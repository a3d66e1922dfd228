import Mathlib.Tactic

/-!
# `Drivers.Pci` — the scan of the PCI bus

Configuration space is read through two ports: an address goes to `0xCF8`, and the register it names is read at
`0xCFC`. `InitPci` asks for every device of every bus, looks at the functions of those that answer, and counts what it
finds.

The host bridge decodes an address into four fields; `PciReadConfig` puts them together, and for the devices of the
scan it reads the register it means (`readConfig_eq`). So the scan, which leaves another address in the bridge with
every read, is a pure walk over the functions that are there (`initPci_eq`), and its counters and flags say how many of
each kind there are (`initPci_counts`). None of the counters wraps.
-/

namespace UefiBoot
namespace Pci

/-- The registers of every function, by bus, device, function and register number. -/
abbrev Space := UInt8 → UInt8 → UInt8 → UInt8 → UInt32

/-- The host bridge: the address register, and what is behind it. -/
structure Bridge where
  address : UInt32
  space   : Space

def kPciConfigAddress : UInt16 := 0xCF8
def kPciConfigData : UInt16 := 0xCFC

/-- The register that an address names, when its enable bit is set. -/
def Space.decode (space : Space) (address : UInt32) : UInt32 :=
  if address &&& 0x80000000 ≠ 0 then
    space (address >>> 16).toUInt8 ((address >>> 11).toUInt8 &&& 0x1F) ((address >>> 8).toUInt8 &&& 0x07)
      (address.toUInt8 &&& 0xFC)
  else 0xFFFFFFFF

def out32 (b : Bridge) (port : UInt16) (value : UInt32) : Bridge :=
  if port = kPciConfigAddress then { b with address := value } else b

def in32 (b : Bridge) (port : UInt16) : UInt32 :=
  if port = kPciConfigData then b.space.decode b.address else 0xFFFFFFFF

/-- The address of a register. -/
def configAddress (bus device function offset : UInt8) : UInt32 :=
  ((1 : UInt32) <<< 31) ||| (bus.toUInt32 <<< 16) ||| (device.toUInt32 <<< 11) ||| (function.toUInt32 <<< 8) |||
    (offset &&& 0xFC).toUInt32

/-- `PciReadConfig`. -/
def pciReadConfig (b : Bridge) (bus device function offset : UInt8) : UInt32 × Bridge :=
  let b := out32 b kPciConfigAddress (configAddress bus device function offset)
  (in32 b kPciConfigData, b)

/-! ## Devices -/

def kPciInvalidVendor : UInt16 := 0xFFFF
def kIntelVendorId : UInt16 := 0x8086
def kVirtioVendorId : UInt16 := 0x1AF4
def kE1000DeviceId : UInt16 := 0x100E
def kVirtioNetMinDeviceId : UInt16 := 0x1000
def kVirtioNetMaxDeviceId : UInt16 := 0x1041
abbrev kMaxTrackedPciDevices : Nat := 32

structure PciDevice where
  bus           : UInt8
  device        : UInt8
  function      : UInt8
  vendorId      : UInt16
  deviceId      : UInt16
  classCode     : UInt8
  subclass      : UInt8
  progIf        : UInt8
  interruptLine : UInt8
  interruptPin  : UInt8
  deriving DecidableEq

/-- The members of `g_Status` that the scan writes. -/
structure Status where
  pciInterruptsReady      : Bool := false
  uhciSupported           : Bool := false
  ohciSupported           : Bool := false
  ehciSupported           : Bool := false
  xhciSupported           : Bool := false
  intelGpuSupported       : Bool := false
  amdGpuSupported         : Bool := false
  virtioGpuSupported      : Bool := false
  hdaSupported            : Bool := false
  e1000Supported          : Bool := false
  virtioNetSupported      : Bool := false
  pciDeviceCount          : UInt32 := 0
  usbControllerCount      : UInt32 := 0
  ahciControllerCount     : UInt32 := 0
  nvmeControllerCount     : UInt32 := 0
  networkControllerCount  : UInt32 := 0
  ethernetControllerCount : UInt32 := 0
  wifiControllerCount     : UInt32 := 0
  pciReady                : Bool := false
  pciConfigReady          : Bool := false
  usbSupported            : Bool := false
  usbHidSupported         : Bool := false
  ahciSupported           : Bool := false
  nvmeSupported           : Bool := false
  networkSupported        : Bool := false
  ethernetSupported       : Bool := false
  wifiSupported           : Bool := false

/-- `ClassifyPciDevice` behind the reads: the kind of controller. -/
def Status.classify (s : Status) (d : PciDevice) : Status :=
  if d.classCode = 0x0C ∧ d.subclass = 0x03 then
    let s := { s with usbControllerCount := s.usbControllerCount + 1 }
    if d.progIf = 0x00 then { s with uhciSupported := true }
    else if d.progIf = 0x10 then { s with ohciSupported := true }
    else if d.progIf = 0x20 then { s with ehciSupported := true }
    else if d.progIf = 0x30 then { s with xhciSupported := true }
    else s
  else if d.classCode = 0x03 then
    let s := if d.vendorId = kIntelVendorId then { s with intelGpuSupported := true } else s
    let s := if d.vendorId = 0x1002 then { s with amdGpuSupported := true } else s
    if d.vendorId = kVirtioVendorId ∧ d.deviceId = 0x1050 then { s with virtioGpuSupported := true } else s
  else if d.classCode = 0x04 ∧ d.subclass = 0x03 then { s with hdaSupported := true }
  else if d.classCode = 0x01 ∧ d.subclass = 0x06 ∧ d.progIf = 0x01 then
    { s with ahciControllerCount := s.ahciControllerCount + 1 }
  else if d.classCode = 0x01 ∧ d.subclass = 0x08 then { s with nvmeControllerCount := s.nvmeControllerCount + 1 }
  else if d.classCode = 0x02 then
    let s := { s with networkControllerCount := s.networkControllerCount + 1 }
    if d.subclass = 0x00 then { s with ethernetControllerCount := s.ethernetControllerCount + 1 }
    else if d.subclass = 0x80 then { s with wifiControllerCount := s.wifiControllerCount + 1 }
    else s
  else s

/-- `ClassifyPciDevice` behind the reads. -/
def Status.found (s : Status) (d : PciDevice) : Status :=
  let s := { s with pciDeviceCount := s.pciDeviceCount + 1 }
  let s := if d.interruptPin ≠ 0 ∧ d.interruptLine ≠ 0xFF then { s with pciInterruptsReady := true } else s
  let s := s.classify d
  let s := if d.vendorId = kIntelVendorId ∧ d.deviceId = kE1000DeviceId then { s with e1000Supported := true } else s
  if d.vendorId = kVirtioVendorId ∧ d.deviceId ≥ kVirtioNetMinDeviceId ∧ d.deviceId ≤ kVirtioNetMaxDeviceId ∧
      d.classCode = 0x02
  then { s with virtioNetSupported := true } else s

/-! ## The scan -/

/-- The bridge, the status, and `g_PciDevices` up to `g_TrackedPciDeviceCount`. -/
structure Scan where
  bridge  : Bridge
  status  : Status := {}
  tracked : List PciDevice := []

/-- `PciReadConfig` in the scan. -/
def Scan.read (s : Scan) (bus device function offset : UInt8) : UInt32 × Scan :=
  let (value, bridge) := pciReadConfig s.bridge bus device function offset
  (value, { s with bridge })

/-- `PciVendorId`. -/
def Scan.pciVendorId (s : Scan) (bus device function : UInt8) : UInt16 × Scan :=
  let (value, s) := s.read bus device function 0x00
  (value.toUInt16, s)

/-- `TrackPciDevice`. -/
def Scan.trackPciDevice (s : Scan) (d : PciDevice) : Scan :=
  if s.tracked.length ≥ kMaxTrackedPciDevices then s else { s with tracked := s.tracked ++ [d] }

/-- `ClassifyPciDevice`. -/
def Scan.classifyPciDevice (s : Scan) (bus device function : UInt8) : Scan :=
  let (vendorId, s) := s.pciVendorId bus device function
  let (deviceReg, s) := s.read bus device function 0x00
  let (classReg, s) := s.read bus device function 0x08
  let (lineReg, s) := s.read bus device function 0x3C
  let (pinReg, s) := s.read bus device function 0x3C
  let d : PciDevice :=
    { bus, device, function, vendorId
      deviceId := (deviceReg >>> 16).toUInt16
      classCode := (classReg >>> 24).toUInt8
      subclass := (classReg >>> 16).toUInt8
      progIf := (classReg >>> 8).toUInt8
      interruptLine := lineReg.toUInt8
      interruptPin := (pinReg >>> 8).toUInt8 }
  let s := s.trackPciDevice d
  { s with status := s.status.found d }

/-- `ScanPciFunction`. -/
def Scan.scanPciFunction (s : Scan) (bus device function : UInt8) : Scan :=
  let (vendorId, s) := s.pciVendorId bus device function
  if vendorId = kPciInvalidVendor then s else s.classifyPciDevice bus device function

/-- `ScanPciDevice`. -/
def Scan.scanPciDevice (s : Scan) (bus device : UInt8) : Scan :=
  let (vendorId, s) := s.pciVendorId bus device 0
  if vendorId = kPciInvalidVendor then s
  else
    let s := s.scanPciFunction bus device 0
    let (headerReg, s) := s.read bus device 0 0x0C
    if (headerReg >>> 16).toUInt8 &&& 0x80 = 0 then s
    else (List.range' 1 7).foldl (fun s function => s.scanPciFunction bus device (UInt8.ofNat function)) s

/-- `ScanPciBus`. -/
def Scan.scanPciBus (s : Scan) (bus : UInt8) : Scan :=
  (List.range 32).foldl (fun s device => s.scanPciDevice bus (UInt8.ofNat device)) s

structure UsbInterfaceDescriptor where
  length            : UInt8
  descriptorType    : UInt8
  interfaceNumber   : UInt8
  alternateSetting  : UInt8
  endpointCount     : UInt8
  interfaceClass    : UInt8
  interfaceSubclass : UInt8
  interfaceProtocol : UInt8
  interfaceString   : UInt8

/-- `IsUsbHidInterface`; the descriptor has 9 bytes. -/
def isUsbHidInterface (d : UsbInterfaceDescriptor) : Bool :=
  d.length ≥ 9 && d.descriptorType == 0x04 && d.interfaceClass == 0x03

/-- `RunUsbHidSelfTest`. -/
def runUsbHidSelfTest : Bool := isUsbHidInterface ⟨9, 0x04, 0, 0, 1, 0x03, 0x01, 0x01, 0⟩

/-- The last lines of `InitPci`. -/
def Status.ready (s : Status) : Status :=
  { s with
    pciReady := decide (s.pciDeviceCount > 0)
    pciConfigReady := decide (s.pciDeviceCount > 0)
    usbSupported := decide (s.usbControllerCount > 0)
    usbHidSupported := decide (s.usbControllerCount > 0) && runUsbHidSelfTest
    ahciSupported := decide (s.ahciControllerCount > 0)
    nvmeSupported := decide (s.nvmeControllerCount > 0)
    networkSupported := decide (s.networkControllerCount > 0)
    ethernetSupported := decide (s.ethernetControllerCount > 0)
    wifiSupported := decide (s.wifiControllerCount > 0) }

/-- The loop of `InitPci`. -/
def Scan.scanPciBuses (s : Scan) : Scan := (List.range 256).foldl (fun s bus => s.scanPciBus (UInt8.ofNat bus)) s

/-- `InitPci`, after `ResetDriverStatus`. -/
def initPci (bridge : Bridge) : Scan :=
  let s := Scan.scanPciBuses { bridge }
  { s with status := s.status.ready }

/-! ## Reading a register -/

/-- A small byte has no high bits. -/
theorem bit_of_lt {x : UInt8} {n k : Nat} (h : x.toNat < 2 ^ n) (hk : n ≤ k) (hlt : k < 8) : x.toBitVec[k] = false := by
  rw [← BitVec.getLsbD_eq_getElem, ← BitVec.testBit_toNat]
  exact Nat.testBit_lt_two_pow (h.trans_le (Nat.pow_le_pow_right (by omega) hk))

section Address

variable {bus device function offset : UInt8} (hdevice : device.toNat < 32) (hfunction : function.toNat < 8)
include hdevice hfunction

/-- The bridge finds in an address what `PciReadConfig` put into it. -/
theorem configAddress_fields : configAddress bus device function offset &&& 0x80000000 ≠ 0 ∧
    (configAddress bus device function offset >>> 16).toUInt8 = bus ∧
    ((configAddress bus device function offset >>> 11).toUInt8 &&& 0x1F) = device ∧
    ((configAddress bus device function offset >>> 8).toUInt8 &&& 0x07) = function ∧
    ((configAddress bus device function offset).toUInt8 &&& 0xFC) = offset &&& 0xFC := by
  have hd := fun k hk hlt => bit_of_lt (n := 5) (k := k) hdevice hk hlt
  have hf := fun k hk hlt => bit_of_lt (n := 3) (k := k) hfunction hk hlt
  unfold configAddress
  refine ⟨?_, ?_, ?_, ?_, ?_⟩
  · intro h
    have hbit := congrArg (fun v : UInt32 => v.toBitVec.getLsbD 31) h
    simp at hbit
  · apply UInt8.toBitVec_inj.mp
    apply BitVec.eq_of_getLsbD_eq
    intro i hi
    interval_cases i <;> simp [hd]
  · apply UInt8.toBitVec_inj.mp
    apply BitVec.eq_of_getLsbD_eq
    intro i hi
    interval_cases i <;> simp [hd, hf]
  · apply UInt8.toBitVec_inj.mp
    apply BitVec.eq_of_getLsbD_eq
    intro i hi
    interval_cases i <;> simp [hf]
  · apply UInt8.toBitVec_inj.mp
    apply BitVec.eq_of_getLsbD_eq
    intro i hi
    interval_cases i <;> simp

/-- **`PciReadConfig`** reads the register it means. -/
theorem readConfig_eq (b : Bridge) : (pciReadConfig b bus device function offset).1 =
    b.space bus device function (offset &&& 0xFC) := by
  obtain ⟨henable, hbus, hdev, hfun, hoff⟩ := @configAddress_fields bus device function offset hdevice hfunction
  show b.space.decode (configAddress bus device function offset) = _
  unfold Space.decode
  rw [if_pos henable, hbus, hdev, hfun, hoff]

end Address

/-! ## The functions that are there -/

/-- A function, by bus, device and number. -/
structure Location where
  bus      : UInt8
  device   : UInt8
  function : UInt8
  deriving DecidableEq

def Space.present (space : Space) (l : Location) : Bool :=
  (space l.bus l.device l.function 0x00).toUInt16 != kPciInvalidVendor

/-- Whether the device has more than one function, by the header type of the first. -/
def Space.multiFunction (space : Space) (bus device : UInt8) : Bool :=
  (space bus device 0 0x0C >>> 16).toUInt8 &&& 0x80 != 0

/-- The functions of a device. -/
def Space.functions (space : Space) (bus device : UInt8) : List Location :=
  if space.present ⟨bus, device, 0⟩ then
    ⟨bus, device, 0⟩ :: if space.multiFunction bus device
      then ((List.range' 1 7).map fun f => ⟨bus, device, UInt8.ofNat f⟩).filter space.present
      else []
  else []

/-- The functions of the machine, in the order of their addresses. -/
def Space.visible (space : Space) : List Location :=
  (List.range 256).flatMap fun bus => (List.range 32).flatMap fun device =>
    space.functions (UInt8.ofNat bus) (UInt8.ofNat device)

/-- What the registers of a function say. -/
def Space.describe (space : Space) (l : Location) : PciDevice where
  bus           := l.bus
  device        := l.device
  function      := l.function
  vendorId      := (space l.bus l.device l.function 0x00).toUInt16
  deviceId      := (space l.bus l.device l.function 0x00 >>> 16).toUInt16
  classCode     := (space l.bus l.device l.function 0x08 >>> 24).toUInt8
  subclass      := (space l.bus l.device l.function 0x08 >>> 16).toUInt8
  progIf        := (space l.bus l.device l.function 0x08 >>> 8).toUInt8
  interruptLine := (space l.bus l.device l.function 0x3C).toUInt8
  interruptPin  := (space l.bus l.device l.function 0x3C >>> 8).toUInt8

/-- The devices of the machine. -/
def Space.found (space : Space) : List PciDevice := space.visible.map space.describe

/-! ### The scan visits them -/

/-- What the scan has found so far. -/
structure Findings where
  status  : Status
  tracked : List PciDevice

def Scan.findings (s : Scan) : Findings := ⟨s.status, s.tracked⟩

/-- One device more. -/
def Findings.add (r : Findings) (d : PciDevice) : Findings :=
  ⟨r.status.found d, if r.tracked.length ≥ kMaxTrackedPciDevices then r.tracked else r.tracked ++ [d]⟩

/-- A part of the scan visits these functions, one after the other, and leaves the machine as it is. -/
def Visits (space : Space) (part : Scan → Scan) (ls : List Location) : Prop :=
  ∀ s, s.bridge.space = space → (part s).bridge.space = space ∧
    (part s).findings = (ls.map space.describe).foldl Findings.add s.findings

section Visits

variable {space : Space}

theorem Visits.skip {part : Scan → Scan} (h : ∀ s, (part s).findings = s.findings ∧
    (part s).bridge.space = s.bridge.space) : Visits space part [] :=
  fun s hs => ⟨(h s).2.trans hs, (h s).1⟩

theorem Visits.comp {part part' : Scan → Scan} {ls ls' : List Location} (h : Visits space part ls)
    (h' : Visits space part' ls') : Visits space (fun s => part' (part s)) (ls ++ ls') := by
  intro s hs
  obtain ⟨hspace, hfindings⟩ := h s hs
  obtain ⟨hspace', hfindings'⟩ := h' (part s) hspace
  refine ⟨hspace', ?_⟩
  rw [hfindings', hfindings, List.map_append, List.foldl_append]

/-- A loop visits what its turns visit. -/
theorem Visits.loop {part : Nat → Scan → Scan} {ls : Nat → List Location} (is : List Nat)
    (h : ∀ i ∈ is, Visits space (part i) (ls i)) :
    Visits space (fun s => is.foldl (fun s i => part i s) s) (is.flatMap ls) := by
  induction is with
  | nil => exact Visits.skip fun _ => ⟨rfl, rfl⟩
  | cons i is ih =>
      rw [List.flatMap_cons]
      exact (h i List.mem_cons_self).comp (ih fun j hj => h j (List.mem_cons_of_mem i hj))

/-! ### The parts of the scan -/

theorem toNat_small {n k : Nat} (hk : k < n) (hn : n ≤ 256) : (UInt8.ofNat k).toNat < n := by
  rw [UInt8.toNat_ofNat', Nat.mod_eq_of_lt (by omega)]
  exact hk

/-- The scan with another address in the bridge. -/
def Scan.at (s : Scan) (address : UInt32) : Scan := { s with bridge := { s.bridge with address } }

@[simp] theorem Scan.at_at (s : Scan) (a b : UInt32) : (s.at a).at b = s.at b := rfl
@[simp] theorem Scan.at_space (s : Scan) (a : UInt32) : (s.at a).bridge.space = s.bridge.space := rfl
@[simp] theorem Scan.at_findings (s : Scan) (a : UInt32) : (s.at a).findings = s.findings := rfl

section Parts

variable (bus : UInt8) {device function : UInt8} (hdevice : device.toNat < 32) (hfunction : function.toNat < 8)
include hdevice hfunction

theorem read_eq (s : Scan) (offset : UInt8) : s.read bus device function offset =
    (s.bridge.space bus device function (offset &&& 0xFC), s.at (configAddress bus device function offset)) := by
  rw [← readConfig_eq hdevice hfunction s.bridge]
  rfl

theorem vendorId_eq (s : Scan) : s.pciVendorId bus device function =
    ((s.bridge.space bus device function 0x00).toUInt16, s.at (configAddress bus device function 0x00)) := by
  unfold Scan.pciVendorId
  rw [read_eq bus hdevice hfunction]
  rfl

/-- `ClassifyPciDevice` adds what the registers say. -/
theorem classify_findings (s : Scan) :
    (s.classifyPciDevice bus device function).bridge.space = s.bridge.space ∧
      (s.classifyPciDevice bus device function).findings =
        s.findings.add (s.bridge.space.describe ⟨bus, device, function⟩) := by
  unfold Scan.classifyPciDevice
  simp only [vendorId_eq bus hdevice hfunction, read_eq bus hdevice hfunction, Scan.at_at, Scan.at_space]
  unfold Scan.trackPciDevice Findings.add
  have hclass : (0x08 &&& 0xFC : UInt8) = 0x08 := rfl
  have hline : (0x3C &&& 0xFC : UInt8) = 0x3C := rfl
  have hid : (0x00 &&& 0xFC : UInt8) = 0x00 := rfl
  rw [hclass, hline, hid]
  split
  · next hfull =>
      have hfull' : s.findings.tracked.length ≥ kMaxTrackedPciDevices := hfull
      rw [if_pos hfull']
      exact ⟨rfl, rfl⟩
  · next hroom =>
      have hroom' : ¬ s.findings.tracked.length ≥ kMaxTrackedPciDevices := hroom
      rw [if_neg hroom']
      exact ⟨rfl, rfl⟩

theorem visits_function : Visits space (fun s => s.scanPciFunction bus device function)
    ([⟨bus, device, function⟩].filter space.present) := by
  intro s hs
  have hvendor := vendorId_eq bus hdevice hfunction s
  rw [hs] at hvendor
  unfold Scan.scanPciFunction
  dsimp only
  rw [hvendor]
  dsimp only
  by_cases hpresent : (space bus device function 0x00).toUInt16 = kPciInvalidVendor
  · have habsent : space.present ⟨bus, device, function⟩ = false := by
      unfold Space.present
      rw [hpresent]
      rfl
    rw [if_pos hpresent, List.filter_cons_of_neg (by simp [habsent]), List.filter_nil]
    exact ⟨hs, rfl⟩
  · have hthere : space.present ⟨bus, device, function⟩ = true := bne_iff_ne.mpr hpresent
    obtain ⟨hspace, hfindings⟩ := classify_findings bus hdevice hfunction
      (s.at (configAddress bus device function 0))
    rw [if_neg hpresent, List.filter_cons_of_pos hthere, List.filter_nil]
    refine ⟨hspace.trans hs, ?_⟩
    rw [hfindings, Scan.at_space, Scan.at_findings, hs]
    rfl

end Parts

theorem visits_device {bus device : UInt8} (hdevice : device.toNat < 32) :
    Visits space (fun s => s.scanPciDevice bus device) (space.functions bus device) := by
  have hzero : (0 : UInt8).toNat < 8 := by decide
  have hmore : Visits space (fun s => (List.range' 1 7).foldl
      (fun s f => s.scanPciFunction bus device (UInt8.ofNat f)) s)
      (((List.range' 1 7).map fun f => ⟨bus, device, UInt8.ofNat f⟩).filter space.present) := by
    rw [List.map_eq_flatMap, List.filter_flatMap]
    refine Visits.loop (List.range' 1 7) fun f hf => ?_
    exact visits_function bus hdevice (toNat_small (by have := List.mem_range'_1.mp hf; omega) (by omega))
  intro s hs
  have hvendor := vendorId_eq bus hdevice hzero s
  rw [hs] at hvendor
  unfold Scan.scanPciDevice Space.functions
  dsimp only
  rw [hvendor]
  dsimp only
  by_cases hpresent : (space bus device 0 0x00).toUInt16 = kPciInvalidVendor
  · have habsent : space.present ⟨bus, device, 0⟩ = false := by
      unfold Space.present
      rw [hpresent]
      rfl
    rw [if_pos hpresent, if_neg (by simp [habsent])]
    exact ⟨hs, rfl⟩
  · have hthere : space.present ⟨bus, device, 0⟩ = true := bne_iff_ne.mpr hpresent
    have hfirst := visits_function bus hdevice hzero (s.at (configAddress bus device 0 0)) hs
    rw [List.filter_cons_of_pos hthere, List.filter_nil] at hfirst
    obtain ⟨hspace, hfindings⟩ := hfirst
    have hheader := read_eq bus hdevice hzero
      ((s.at (configAddress bus device 0 0)).scanPciFunction bus device 0) 0x0C
    dsimp only at hspace hfindings
    rw [hspace] at hheader
    rw [if_neg hpresent, if_pos hthere, hheader]
    dsimp only
    have hregister : (0x0C &&& 0xFC : UInt8) = 0x0C := rfl
    rw [hregister]
    by_cases hmulti : (space bus device 0 0x0C >>> 16).toUInt8 &&& 0x80 = 0
    · have hsingle : space.multiFunction bus device = false := by
        unfold Space.multiFunction
        rw [hmulti]
        rfl
      rw [if_pos hmulti, if_neg (by simp [hsingle])]
      exact ⟨hspace, hfindings⟩
    · have hmany : space.multiFunction bus device = true := bne_iff_ne.mpr hmulti
      rw [if_neg hmulti, if_pos hmany]
      obtain ⟨hspace', hfindings'⟩ := hmore (((s.at (configAddress bus device 0 0)).scanPciFunction bus device 0).at
        (configAddress bus device 0 0x0C)) hspace
      refine ⟨hspace', ?_⟩
      rw [hfindings', Scan.at_findings, hfindings]
      rfl

theorem visits_bus (bus : UInt8) : Visits space (fun s => s.scanPciBus bus)
    ((List.range 32).flatMap fun device => space.functions bus (UInt8.ofNat device)) :=
  Visits.loop (List.range 32) fun _ hi => visits_device (toNat_small (List.mem_range.mp hi) (by omega))

/-- **The scan visits the functions that are there**, each once, in the order of their addresses. -/
theorem visits_all : Visits space Scan.scanPciBuses space.visible :=
  Visits.loop (List.range 256) fun bus _ => visits_bus (UInt8.ofNat bus)

end Visits

/-! ## What the status says -/

namespace PciDevice

variable (d : PciDevice)

def isUsb : Bool := d.classCode == 0x0C && d.subclass == 0x03
def isDisplay : Bool := d.classCode == 0x03
def isHda : Bool := d.classCode == 0x04 && d.subclass == 0x03
def isAhci : Bool := d.classCode == 0x01 && d.subclass == 0x06 && d.progIf == 0x01
def isNvme : Bool := d.classCode == 0x01 && d.subclass == 0x08
def isNetwork : Bool := d.classCode == 0x02
def isEthernet : Bool := d.isNetwork && d.subclass == 0x00
def isWifi : Bool := d.isNetwork && d.subclass == 0x80
def isE1000 : Bool := d.vendorId == kIntelVendorId && d.deviceId == kE1000DeviceId
def interrupts : Bool := d.interruptPin != 0 && d.interruptLine != 0xFF

def isVirtioNet : Bool :=
  d.vendorId == kVirtioVendorId && decide (kVirtioNetMinDeviceId ≤ d.deviceId) &&
    decide (d.deviceId ≤ kVirtioNetMaxDeviceId) && d.isNetwork

end PciDevice

/-- A number of devices of a kind. -/
def countOf (p : PciDevice → Bool) (ds : List PciDevice) : UInt32 := UInt32.ofNat (ds.countP p)

/-- **What the status is to say** about the devices of the machine. -/
def Status.of (ds : List PciDevice) : Status where
  pciInterruptsReady      := ds.any PciDevice.interrupts
  uhciSupported           := ds.any fun d => d.isUsb && d.progIf == 0x00
  ohciSupported           := ds.any fun d => d.isUsb && d.progIf == 0x10
  ehciSupported           := ds.any fun d => d.isUsb && d.progIf == 0x20
  xhciSupported           := ds.any fun d => d.isUsb && d.progIf == 0x30
  intelGpuSupported       := ds.any fun d => d.isDisplay && d.vendorId == kIntelVendorId
  amdGpuSupported         := ds.any fun d => d.isDisplay && d.vendorId == 0x1002
  virtioGpuSupported      := ds.any fun d => d.isDisplay && d.vendorId == kVirtioVendorId && d.deviceId == 0x1050
  hdaSupported            := ds.any PciDevice.isHda
  e1000Supported          := ds.any PciDevice.isE1000
  virtioNetSupported      := ds.any PciDevice.isVirtioNet
  pciDeviceCount          := countOf (fun _ => true) ds
  usbControllerCount      := countOf PciDevice.isUsb ds
  ahciControllerCount     := countOf PciDevice.isAhci ds
  nvmeControllerCount     := countOf PciDevice.isNvme ds
  networkControllerCount  := countOf PciDevice.isNetwork ds
  ethernetControllerCount := countOf PciDevice.isEthernet ds
  wifiControllerCount     := countOf PciDevice.isWifi ds

/-- The flags at the end of the scan say of which kinds there are any. -/
def Status.summary (ds : List PciDevice) : Status :=
  { Status.of ds with
    pciReady := !ds.isEmpty
    pciConfigReady := !ds.isEmpty
    usbSupported := ds.any PciDevice.isUsb
    usbHidSupported := ds.any PciDevice.isUsb
    ahciSupported := ds.any PciDevice.isAhci
    nvmeSupported := ds.any PciDevice.isNvme
    networkSupported := ds.any PciDevice.isNetwork
    ethernetSupported := ds.any PciDevice.isEthernet
    wifiSupported := ds.any PciDevice.isWifi }

section Counts

variable {p : PciDevice → Bool} {ds : List PciDevice}

/-- One more in a counter. -/
def tally (b : Bool) : UInt32 := if b then 1 else 0

theorem countOf_concat (d : PciDevice) : countOf p (ds ++ [d]) = countOf p ds + tally (p d) := by
  unfold countOf tally
  rw [List.countP_append, List.countP_singleton, UInt32.ofNat_add]
  split <;> rfl

/-- **The branches of `ClassifyPciDevice` exclude each other**, so each counts and flags its own kind. -/
theorem classify_eq (s : Status) (d : PciDevice) : s.classify d =
    { s with
      uhciSupported := s.uhciSupported || (d.isUsb && d.progIf == 0x00)
      ohciSupported := s.ohciSupported || (d.isUsb && d.progIf == 0x10)
      ehciSupported := s.ehciSupported || (d.isUsb && d.progIf == 0x20)
      xhciSupported := s.xhciSupported || (d.isUsb && d.progIf == 0x30)
      intelGpuSupported := s.intelGpuSupported || (d.isDisplay && d.vendorId == kIntelVendorId)
      amdGpuSupported := s.amdGpuSupported || (d.isDisplay && d.vendorId == 0x1002)
      virtioGpuSupported := s.virtioGpuSupported || (d.isDisplay && d.vendorId == kVirtioVendorId && d.deviceId == 0x1050)
      hdaSupported := s.hdaSupported || d.isHda
      usbControllerCount := s.usbControllerCount + tally d.isUsb
      ahciControllerCount := s.ahciControllerCount + tally d.isAhci
      nvmeControllerCount := s.nvmeControllerCount + tally d.isNvme
      networkControllerCount := s.networkControllerCount + tally d.isNetwork
      ethernetControllerCount := s.ethernetControllerCount + tally d.isEthernet
      wifiControllerCount := s.wifiControllerCount + tally d.isWifi } := by
  cases s
  unfold Status.classify
  simp only [PciDevice.isUsb, PciDevice.isDisplay, PciDevice.isHda, PciDevice.isAhci, PciDevice.isNvme,
    PciDevice.isNetwork, PciDevice.isEthernet, PciDevice.isWifi]
  split_ifs <;> simp_all [tally]

/-- All of `ClassifyPciDevice` behind the reads. -/
theorem found_eq (s : Status) (d : PciDevice) : s.found d =
    { s.classify d with
      pciDeviceCount := s.pciDeviceCount + 1
      pciInterruptsReady := s.pciInterruptsReady || d.interrupts
      e1000Supported := s.e1000Supported || d.isE1000
      virtioNetSupported := s.virtioNetSupported || d.isVirtioNet } := by
  have hinterrupts : (d.interruptPin ≠ 0 ∧ d.interruptLine ≠ 0xFF) ↔ d.interrupts = true := by
    simp [PciDevice.interrupts]
  have he1000 : (d.vendorId = kIntelVendorId ∧ d.deviceId = kE1000DeviceId) ↔ d.isE1000 = true := by
    simp [PciDevice.isE1000]
  have hvirtio : (d.vendorId = kVirtioVendorId ∧ d.deviceId ≥ kVirtioNetMinDeviceId ∧
      d.deviceId ≤ kVirtioNetMaxDeviceId ∧ d.classCode = 0x02) ↔ d.isVirtioNet = true := by
    simp [PciDevice.isVirtioNet, PciDevice.isNetwork, and_assoc]
  unfold Status.found
  simp only [hinterrupts, he1000, hvirtio, classify_eq]
  cases d.interrupts <;> cases d.isE1000 <;> cases d.isVirtioNet <;> simp

/-- One device more. -/
theorem found_of (d : PciDevice) : (Status.of ds).found d = Status.of (ds ++ [d]) := by
  have hany : ∀ p : PciDevice → Bool, (ds ++ [d]).any p = (ds.any p || p d) := by
    intro p
    rw [List.any_append, List.any_cons, List.any_nil, Bool.or_false]
  rw [found_eq, classify_eq]
  unfold Status.of
  simp only [hany, countOf_concat]
  rfl

/-- The findings of a list of devices. -/
theorem foldl_add (ds ds' : List PciDevice) :
    ds'.foldl Findings.add ⟨Status.of ds, ds.take kMaxTrackedPciDevices⟩ =
      ⟨Status.of (ds ++ ds'), (ds ++ ds').take kMaxTrackedPciDevices⟩ := by
  induction ds' generalizing ds with
  | nil => rw [List.append_nil]; rfl
  | cons d ds' ih =>
      have hone : Findings.add ⟨Status.of ds, ds.take kMaxTrackedPciDevices⟩ d =
          ⟨Status.of (ds ++ [d]), (ds ++ [d]).take kMaxTrackedPciDevices⟩ := by
        unfold Findings.add
        dsimp only
        rw [found_of, List.length_take]
        by_cases hfull : kMaxTrackedPciDevices ≤ ds.length
        · rw [if_pos (by omega), List.take_append_of_le_length hfull]
        · have hshort : ds.length < 32 := not_le.mp hfull
          rw [if_neg (by omega), List.take_of_length_le (by omega), List.take_of_length_le]
          rw [List.length_append, List.length_singleton]
          omega
      rw [List.foldl_cons, hone, ih, List.append_assoc]
      rfl

end Counts

/-! ### No counter wraps -/

theorem length_functions_le (space : Space) (bus device : UInt8) : (space.functions bus device).length ≤ 8 := by
  unfold Space.functions
  split
  · rw [List.length_cons]
    split
    · have hle := List.length_filter_le space.present ((List.range' 1 7).map fun f => (⟨bus, device, UInt8.ofNat f⟩ : Location))
      rw [List.length_map, List.length_range'] at hle
      omega
    · decide
  · decide

/-- Eight functions on each of 32 devices on each of 256 buses. -/
theorem length_visible_le (space : Space) : space.visible.length ≤ 65536 := by
  have hbus : ∀ bus : Nat, ((List.range 32).flatMap fun device =>
      space.functions (UInt8.ofNat bus) (UInt8.ofNat device)).length ≤ 256 := by
    intro bus
    rw [List.length_flatMap]
    refine (List.sum_le_card_nsmul _ 8 ?_).trans ?_
    · intro n hn
      obtain ⟨device, -, rfl⟩ := List.mem_map.mp hn
      exact length_functions_le space _ _
    · rw [List.length_map, List.length_range]
      decide
  unfold Space.visible
  rw [List.length_flatMap]
  refine (List.sum_le_card_nsmul _ 256 ?_).trans ?_
  · intro n hn
    obtain ⟨bus, -, rfl⟩ := List.mem_map.mp hn
    exact hbus bus
  · rw [List.length_map, List.length_range]
    decide

/-- A counter below the width of the word is zero exactly when there is none. -/
theorem countOf_pos (p : PciDevice → Bool) {ds : List PciDevice} (h : ds.length ≤ 65536) :
    decide (countOf p ds > 0) = ds.any p := by
  have hle := List.countP_le_length (p := p) (l := ds)
  have hval : (countOf p ds).toNat = ds.countP p := by
    unfold countOf
    rw [UInt32.toNat_ofNat']
    omega
  have hpos : countOf p ds > 0 ↔ ds.any p = true := by
    rw [gt_iff_lt, UInt32.lt_iff_toNat_lt, hval, List.any_eq_true]
    exact List.countP_pos_iff
  rw [Bool.eq_iff_iff, decide_eq_true_iff]
  exact hpos

/-- The end of the scan. -/
theorem ready_of {ds : List PciDevice} (h : ds.length ≤ 65536) : (Status.of ds).ready = Status.summary ds := by
  have hempty : ds.any (fun _ => true) = !ds.isEmpty := by
    cases ds <;> simp
  have hhid : runUsbHidSelfTest = true := by decide
  unfold Status.ready Status.summary
  rw [hhid]
  unfold Status.of
  simp only [countOf_pos _ h, hempty, Bool.and_true]

/-- **What `InitPci` finds.** The table holds the first 32 functions that the configuration space shows; the counters
    count all of them, exactly; a flag is set when there is a device of its kind. -/
theorem initPci_finds (bridge : Bridge) :
    let found := bridge.space.found
    (initPci bridge).tracked = found.take kMaxTrackedPciDevices ∧
      (initPci bridge).status = Status.summary found ∧
      (initPci bridge).bridge.space = bridge.space ∧
      ∀ p, (countOf p found).toNat = found.countP p := by
  intro found
  obtain ⟨hspace, hfindings⟩ := visits_all ({ bridge } : Scan) rfl
  have hstart : ({ bridge } : Scan).findings = ⟨Status.of [], ([] : List PciDevice).take kMaxTrackedPciDevices⟩ := rfl
  have hlength : found.length ≤ 65536 := by
    unfold found Space.found
    rw [List.length_map]
    exact length_visible_le bridge.space
  rw [hstart, foldl_add, List.nil_append] at hfindings
  unfold initPci
  generalize Scan.scanPciBuses { bridge } = s at hspace hfindings ⊢
  obtain ⟨b, status, tracked⟩ := s
  obtain ⟨rfl, rfl⟩ := Findings.mk.inj hfindings
  refine ⟨rfl, ready_of hlength, hspace, ?_⟩
  intro p
  have hle := List.countP_le_length (p := p) (l := found)
  unfold countOf
  rw [UInt32.toNat_ofNat']
  omega

end Pci
end UefiBoot
