import UefiBoot.Cpu.Interrupt
import UefiBoot.Lib.Align
import UefiBoot.Lib.Fields
import UefiBoot.Lib.Run
import UefiBoot.Scheduler.State

/-!
# `Scheduler.ContextSwitch` — `SchedulerContextSwitch`, instruction by instruction

The scheduler's model keeps for a suspended thread the code that it will go on with. Here is what stands for that
in memory: `context_switch.S` stores the callee-saved registers and the extended state in the context of the thread
that leaves, loads those of the thread that comes, and returns on the stack it finds there.

A `Frame` is what a thread goes on with. One switch puts the frame of the call into the context that it leaves and
gives the processor the frame of the context that it goes to (`schedulerContextSwitch_spec`); a context that
`PrepareInitialContext` made holds a thread that starts in `ThreadTrampoline` (`prepareInitialContext_spec`).
-/

namespace UefiBoot
namespace ContextSwitch

open Irq (Reg)
open Lib (Bytes ByteRange)
open Scheduler (kMaxThreads)

/-! ## The processor -/

/-- The instructions that move the extended state: `fxsave64` and `fxrstor64`, or `xsave64` and `xrstor64` with a
    mask of components in `edx:eax`. -/
inductive Format where
  | fx
  | x (mask : UInt64)
  deriving DecidableEq

/-- What the instruction asks of its address. -/
def Format.alignment : Format → Nat
  | .fx  => 16
  | .x _ => 64

/-- The x87, SSE and AVX unit: how many bytes an instruction moves, what it makes of an area, and what it reads from
    one. `xrstor64` faults on an area that it does not accept. -/
structure ExtendedUnit (E : Type) where
  size    : Format → Nat
  save    : Format → E → Bytes → Bytes
  restore : Format → Bytes → Option E

/-- Bytes 8 to 63 of the XSAVE header, which follows the 512 legacy bytes. -/
def ReservedZero (area : Bytes) : Prop := ∀ off : UInt64, 520 ≤ off.toNat → off.toNat < 576 → area off = 0

/-- `sizeof(extended_state)`. -/
def kExtendedStateSize : Nat := 1024

/-- **The documented behaviour of the unit.** An area is at most 1024 bytes; saving leaves the reserved bytes of
    the header alone; restoring reads the area only, and gets back what was saved if the reserved bytes are zero. -/
structure ExtendedUnit.Documented {E : Type} (u : ExtendedUnit E) (format : Format) : Prop where
  size      : u.size format ≤ kExtendedStateSize
  header    : ∀ e area (off : UInt64), 520 ≤ off.toNat → off.toNat < 576 → u.save format e area off = area off
  reads     : ∀ area area' : Bytes, (∀ off : UInt64, off.toNat < u.size format → area off = area' off) →
    u.restore format area = u.restore format area'
  roundTrip : ∀ e area, ReservedZero area → u.restore format (u.save format e area) = some e

structure Cpu (E : Type) where
  regs     : Reg → UInt64
  rip      : UInt64
  extended : E
  mem      : Bytes

variable {E : Type}

/-- The bytes behind an address, by offset. -/
def areaAt (m : Bytes) (address : UInt64) : Bytes := fun off => m (address + off)

/-- `fxsave64` or `xsave64`; a misaligned address faults. -/
def ExtendedUnit.saveAt (u : ExtendedUnit E) (format : Format) (e : E) (m : Bytes) (address : UInt64) : Option Bytes :=
  if address.toNat % format.alignment = 0
  then some (m.overwrite ⟨address, u.size format⟩ (u.save format e (areaAt m address)))
  else none

/-- `fxrstor64` or `xrstor64`. -/
def ExtendedUnit.restoreAt (u : ExtendedUnit E) (format : Format) (m : Bytes) (address : UInt64) : Option E :=
  if address.toNat % format.alignment = 0 then u.restore format (areaAt m address) else none

/-! ## `context_switch.S` -/

/-- The fields of `ThreadContext` that hold registers, in the order of the instructions. -/
def kContextRegisters : List (Reg × UInt64) :=
  [(.r15, 0), (.r14, 8), (.r13, 16), (.r12, 24), (.rbx, 32), (.rbp, 40), (.rsp, 48)]

/-- The offset of `extended_state`, and `sizeof(ThreadContext)`. -/
def kExtendedStateOffset : UInt64 := 64
def kContextSize : Nat := 1088

namespace Cpu

/-- `mov [rdi + offset], reg` for each of the seven. -/
def saveRegisters (c : Cpu E) : Cpu E :=
  { c with mem := c.mem.storeFields (kContextRegisters.map fun s => ⟨c.regs .rdi + s.2, 8, (c.regs s.1).toNat⟩) }

/-- `mov reg, [rsi + offset]` for each of the seven. -/
def restoreRegisters (c : Cpu E) : Cpu E :=
  kContextRegisters.foldl
    (fun c s => { c with regs := Function.update c.regs s.1 (c.mem.load64 (c.regs .rsi + s.2)) }) c

/-- `eax` and `edx` from the two halves of `CpuXsaveMask`. -/
def loadMask (c : Cpu E) (cpuXsaveMask : UInt64) : Cpu E :=
  { c with regs := Function.update (Function.update c.regs .rax (cpuXsaveMask &&& 0xFFFFFFFF)) .rdx (cpuXsaveMask >>> 32) }

/-- `test eax, eax`, and the instruction that the jump leads to. -/
def format (c : Cpu E) : Format :=
  if c.regs .rax = 0 then .fx else .x (c.regs .rdx <<< 32 ||| c.regs .rax)

def ret (c : Cpu E) : Cpu E :=
  { c with rip := c.mem.load64 (c.regs .rsp), regs := Function.update c.regs .rsp (c.regs .rsp + 8) }

/-- `call`, with the two arguments in place. -/
def call (c : Cpu E) (rdi rsi returnAddress : UInt64) : Cpu E :=
  { c with
    regs := Function.update (Function.update (Function.update c.regs .rdi rdi) .rsi rsi) .rsp (c.regs .rsp - 8)
    mem := c.mem.store64 (c.regs .rsp - 8) returnAddress }

section Call

variable (c : Cpu E) (rdi rsi returnAddress : UInt64)

@[simp] theorem call_rdi : (c.call rdi rsi returnAddress).regs .rdi = rdi := rfl
@[simp] theorem call_rsi : (c.call rdi rsi returnAddress).regs .rsi = rsi := rfl
@[simp] theorem call_rsp : (c.call rdi rsi returnAddress).regs .rsp = c.regs .rsp - 8 := rfl

@[simp] theorem call_mem :
    (c.call rdi rsi returnAddress).mem = c.mem.store64 (c.regs .rsp - 8) returnAddress := rfl

end Call

end Cpu

/-- `SchedulerContextSwitch`. -/
def schedulerContextSwitch (u : ExtendedUnit E) (cpuXsaveMask : UInt64) (c : Cpu E) : Option (Cpu E) :=
  let c := c.saveRegisters.loadMask cpuXsaveMask
  match u.saveAt c.format c.extended c.mem (c.regs .rdi + kExtendedStateOffset) with
  | none     => none
  | some mem =>
    let c := { c with mem }.restoreRegisters
    match u.restoreAt c.format c.mem (c.regs .rsi + kExtendedStateOffset) with
    | none          => none
    | some extended => some { c with extended }.ret

/-! ## `PrepareInitialContext` -/

/-- The word that a new thread finds on its stack. -/
def initialStack (stack : ByteRange) : UInt64 :=
  Lib.alignDown (stack.start + UInt64.ofNat stack.size) 16 - 16

/-- The memory that `PrepareInitialContext` leaves; `e` is the extended state of the thread that calls it. -/
def prepareInitialContext (u : ExtendedUnit E) (cpuXsaveMask threadTrampoline : UInt64) (e : E) (mem : Bytes)
    (context : UInt64) (stack : ByteRange) : Option Bytes :=
  let mem := mem.store64 (initialStack stack) threadTrampoline
  let mem := mem.fill context kContextSize 0
  let mem := mem.store64 (context + 48) (initialStack stack)
  u.saveAt (if cpuXsaveMask ≠ 0 then .x cpuXsaveMask else .fx) e mem (context + kExtendedStateOffset)

/-- `InitSimdState` up to the value it gives `CpuXsaveMask`, from the feature bits of CPUID leaf 1. Without SSE it
    returns before it assigns one. -/
def initSimdState (cpuXsaveMask : UInt64) (ecx edx : UInt32) : UInt64 :=
  if edx &&& ((1 : UInt32) <<< 24) = 0 ∨ edx &&& ((1 : UInt32) <<< 25) = 0 then cpuXsaveMask
  else if ecx &&& ((1 : UInt32) <<< 26) ≠ 0 ∧ ecx &&& ((1 : UInt32) <<< 27) ≠ 0 then 7 else 0

/-- The global starts as 0. -/
theorem initSimdState_cases (ecx edx : UInt32) : initSimdState 0 ecx edx = 0 ∨ initSimdState 0 ecx edx = 7 := by
  unfold initSimdState
  split
  · exact Or.inl rfl
  · split
    · exact Or.inr rfl
    · exact Or.inl rfl

/-! ## What one switch does -/

/-- The instruction that moves the extended state. -/
def formatOf (cpuXsaveMask : UInt64) : Format := if cpuXsaveMask ≠ 0 then .x cpuXsaveMask else .fx

section Switch

variable {u : ExtendedUnit E} {cpuXsaveMask : UInt64} (hmask : cpuXsaveMask = 0 ∨ cpuXsaveMask = 7)
  (hdoc : u.Documented (formatOf cpuXsaveMask))

/-- The assembly tests the low half of the mask, `PrepareInitialContext` all of it; they choose alike. -/
theorem format_loadMask (hmask : cpuXsaveMask = 0 ∨ cpuXsaveMask = 7) (c : Cpu E) :
    (c.loadMask cpuXsaveMask).format = formatOf cpuXsaveMask := by
  have hrax : (c.loadMask cpuXsaveMask).regs .rax = cpuXsaveMask &&& 0xFFFFFFFF := rfl
  have hrdx : (c.loadMask cpuXsaveMask).regs .rdx = cpuXsaveMask >>> 32 := rfl
  unfold Cpu.format formatOf
  rw [hrax, hrdx]
  rcases hmask with rfl | rfl
  · rfl
  · rfl

theorem alignment_dvd (format : Format) {a : UInt64} (ha : a.toNat % 64 = 0) : a.toNat % format.alignment = 0 := by
  cases format with
  | fx => show a.toNat % 16 = 0; omega
  | x mask => exact ha

/-- An offset into a context. -/
theorem toNat_context {p off : UInt64} (hp : p.toNat + kContextSize ≤ 2 ^ 64) (hoff : off.toNat < kContextSize) :
    (p + off).toNat = p.toNat + off.toNat := by
  rw [UInt64.toNat_add, Nat.mod_eq_of_lt (by omega)]

theorem contextRegisters_inside : ∀ s ∈ kContextRegisters, s.2.toNat + 8 ≤ 56 := by decide

theorem contextRegisters_order : kContextRegisters.Pairwise fun s t => s.2.toNat + 8 ≤ t.2.toNat := by decide

/-- The stores of `saveRegisters` go to seven words one behind the other. -/
theorem saveRegisters_ascending {c : Cpu E} (hp : (c.regs .rdi).toNat + kContextSize ≤ 2 ^ 64) :
    Bytes.Ascending (kContextRegisters.map fun s => ⟨c.regs .rdi + s.2, 8, (c.regs s.1).toNat⟩) := by
  have hsize : kContextSize = 1088 := rfl
  constructor
  · intro f hf
    obtain ⟨s, hs, rfl⟩ := List.mem_map.mp hf
    have hin := contextRegisters_inside s hs
    show (c.regs .rdi + s.2).toNat + 8 ≤ 2 ^ 64
    rw [toNat_context hp (by omega)]
    omega
  · rw [List.pairwise_map]
    refine contextRegisters_order.imp_of_mem fun {s t} hs ht hst => ?_
    have hs' := contextRegisters_inside s hs
    have ht' := contextRegisters_inside t ht
    show (c.regs .rdi + s.2).toNat + 8 ≤ (c.regs .rdi + t.2).toNat
    rw [toNat_context hp (by omega), toNat_context hp (by omega)]
    omega

theorem saveRegisters_load {c : Cpu E} (hp : (c.regs .rdi).toNat + kContextSize ≤ 2 ^ 64) {s : Reg × UInt64}
    (hs : s ∈ kContextRegisters) : c.saveRegisters.mem.load64 (c.regs .rdi + s.2) = c.regs s.1 := by
  have hload := Bytes.load_storeFields (m := c.mem) (saveRegisters_ascending hp) (List.mem_map.mpr ⟨s, hs, rfl⟩)
  have hlt : (c.regs s.1).toNat < 256 ^ 8 := (c.regs s.1).toNat_lt
  unfold Bytes.load64
  dsimp only at hload
  rw [Nat.mod_eq_of_lt hlt] at hload
  exact (congrArg UInt64.ofNat hload).trans UInt64.ofNat_toNat

/-- A byte outside the first 56 of the context. -/
theorem saveRegisters_outside {c : Cpu E} (hp : (c.regs .rdi).toNat + kContextSize ≤ 2 ^ 64) {a : UInt64}
    (ha : a ∉ ByteRange.mk (c.regs .rdi) 56) : c.saveRegisters.mem a = c.mem a := by
  refine Bytes.storeFields_outside (saveRegisters_ascending hp).fits fun f hf haf => ha ?_
  obtain ⟨s, hs, rfl⟩ := List.mem_map.mp hf
  have hin := contextRegisters_inside s hs
  have hsize : kContextSize = 1088 := rfl
  have hfit : (ByteRange.mk (c.regs .rdi + s.2) 8).Fits := by
    show (c.regs .rdi + s.2).toNat + 8 ≤ 2 ^ 64
    rw [toNat_context hp (by omega)]
    omega
  have hfit' : (ByteRange.mk (c.regs .rdi) 56).Fits := by
    show (c.regs .rdi).toNat + 56 ≤ 2 ^ 64
    omega
  have haf' := (ByteRange.mem_iff_of_fits hfit).mp haf
  rw [ByteRange.mem_iff_of_fits hfit']
  dsimp only at haf' ⊢
  rw [toNat_context hp (by omega)] at haf'
  omega

/-- The loads of `restoreRegisters` read the context that `rsi` points at, which none of them changes. -/
theorem restoreRegisters_regs (c : Cpu E) (r : Reg) : c.restoreRegisters.regs r =
    match kContextRegisters.find? (fun s => s.1 = r) with
    | some s => c.mem.load64 (c.regs .rsi + s.2)
    | none   => c.regs r := by
  cases r <;> simp [Cpu.restoreRegisters, kContextRegisters]

@[simp] theorem restoreRegisters_mem (c : Cpu E) : c.restoreRegisters.mem = c.mem := rfl
@[simp] theorem restoreRegisters_extended (c : Cpu E) : c.restoreRegisters.extended = c.extended := rfl

/-! ### The extended state -/

/-- An offset into the extended state. -/
theorem toNat_extended {p off : UInt64} (hp : p.toNat + kContextSize ≤ 2 ^ 64) (hoff : off.toNat < kExtendedStateSize) :
    (p + kExtendedStateOffset + off).toNat = p.toNat + 64 + off.toNat := by
  have hsize : kContextSize = 1088 := rfl
  have hsize' : kExtendedStateSize = 1024 := rfl
  have h64 : kExtendedStateOffset.toNat = 64 := rfl
  rw [UInt64.toNat_add, toNat_context hp (by omega), h64]
  omega

theorem alignment_extended {p : UInt64} (hp : p.toNat + kContextSize ≤ 2 ^ 64) (halign : p.toNat % 64 = 0)
    (format : Format) : (p + kExtendedStateOffset).toNat % format.alignment = 0 := by
  have hsize : kContextSize = 1088 := rfl
  have h64 : kExtendedStateOffset.toNat = 64 := rfl
  apply alignment_dvd
  rw [toNat_context hp (by omega), h64]
  omega

/-- **Saving the extended state** writes in the area only, and what it leaves there restores it. -/
theorem saveAt_spec {format : Format} (hdoc : u.Documented format) {p : UInt64}
    (hp : p.toNat + kContextSize ≤ 2 ^ 64) (halign : p.toNat % 64 = 0) {m : Bytes} (e : E)
    (hzero : ReservedZero (areaAt m (p + kExtendedStateOffset))) :
    ∃ m', u.saveAt format e m (p + kExtendedStateOffset) = some m' ∧
      (∀ a, a ∉ ByteRange.mk (p + kExtendedStateOffset) kExtendedStateSize → m' a = m a) ∧
      ReservedZero (areaAt m' (p + kExtendedStateOffset)) ∧
      u.restoreAt format m' (p + kExtendedStateOffset) = some e := by
  have hal := alignment_extended hp halign format
  have hsize := hdoc.size
  have hread : ∀ off : UInt64, off.toNat < u.size format →
      areaAt (m.overwrite ⟨p + kExtendedStateOffset, u.size format⟩
          (u.save format e (areaAt m (p + kExtendedStateOffset)))) (p + kExtendedStateOffset) off =
        u.save format e (areaAt m (p + kExtendedStateOffset)) off := by
    intro off hoff
    have hsub : p + kExtendedStateOffset + off - (p + kExtendedStateOffset) = off := by
      rw [UInt64.add_comm, UInt64.add_sub_cancel]
    unfold areaAt
    rw [Bytes.overwrite_inside]
    · dsimp only
      rw [hsub]
    · rw [ByteRange.mem_iff]
      dsimp only
      rw [hsub]
      exact hoff
  refine ⟨_, if_pos hal, ?_, ?_, ?_⟩
  · intro a ha
    apply Bytes.overwrite_outside
    rw [ByteRange.mem_iff] at ha ⊢
    dsimp only at ha ⊢
    omega
  · intro off hlo hhi
    by_cases hin : off.toNat < u.size format
    · rw [hread off hin, hdoc.header e _ off hlo hhi]
      exact hzero off hlo hhi
    · have hout : p + kExtendedStateOffset + off ∉ ByteRange.mk (p + kExtendedStateOffset) (u.size format) := by
        rw [ByteRange.mem_iff]
        dsimp only
        rw [UInt64.add_comm, UInt64.add_sub_cancel]
        exact hin
      unfold areaAt
      rw [Bytes.overwrite_outside hout]
      exact hzero off hlo hhi
  · unfold ExtendedUnit.restoreAt
    rw [if_pos hal, hdoc.reads _ _ hread]
    exact hdoc.roundTrip e _ hzero

/-- Restoring depends on the bytes of the area only. -/
theorem restoreAt_congr {format : Format} (hdoc : u.Documented format) {p : UInt64} {m m' : Bytes}
    (h : ∀ a, a ∈ ByteRange.mk (p + kExtendedStateOffset) kExtendedStateSize → m' a = m a) :
    u.restoreAt format m' (p + kExtendedStateOffset) = u.restoreAt format m (p + kExtendedStateOffset) := by
  have hsize := hdoc.size
  unfold ExtendedUnit.restoreAt
  rw [hdoc.reads (areaAt m' _) (areaAt m _)]
  intro off hoff
  apply h
  rw [ByteRange.mem_iff]
  dsimp only
  rw [UInt64.add_comm, UInt64.add_sub_cancel]
  omega

end Switch

/-! ## Frames -/

/-- What a thread goes on with: the callee-saved registers and the stack pointer, where it goes on, the extended state,
    and the bytes of its stack. -/
@[ext] structure Frame (E : Type) where
  saved    : Reg → UInt64
  rip      : UInt64
  extended : Option E
  stack    : UInt64 → Option UInt8

/-- The bytes of a stack. -/
def bytesOf (m : Bytes) (stack : ByteRange) (a : UInt64) : Option UInt8 := if a ∈ stack then some (m a) else none

/-- The frame of a thread that the processor runs. -/
def Cpu.frame (c : Cpu E) (stack : ByteRange) : Frame E where
  saved    := fun r => if r.callerSaved then 0 else c.regs r
  rip      := c.rip
  extended := some c.extended
  stack    := bytesOf c.mem stack

/-- What a call of `SchedulerContextSwitch` comes back to: it returns to `returnAddress`, which it leaves on the stack. -/
def Cpu.callFrame (c : Cpu E) (stack : ByteRange) (returnAddress : UInt64) : Frame E :=
  Cpu.frame { c with rip := returnAddress, mem := c.mem.store64 (c.regs .rsp - 8) returnAddress } stack

/-- The frame of a thread that is in its context. -/
def contextFrame (u : ExtendedUnit E) (cpuXsaveMask : UInt64) (m : Bytes) (context : UInt64) (stack : ByteRange) :
    Frame E where
  saved    := fun r =>
    match kContextRegisters.find? (fun s => s.1 = r) with
    | some s => m.load64 (context + s.2) + if r = .rsp then 8 else 0
    | none   => 0
  rip      := m.load64 (m.load64 (context + 48))
  extended := u.restoreAt (formatOf cpuXsaveMask) m (context + kExtendedStateOffset)
  stack    := bytesOf m stack

/-- A word of zero bytes. -/
theorem load64_zero {m : Bytes} {a : UInt64} (h : ∀ b ∈ ByteRange.mk a 8, m b = 0) : m.load64 a = 0 := by
  have hall : m.load64 a = Bytes.load64 (fun _ => 0) a := Bytes.load64_congr h
  rw [hall]
  rfl

/-- The word under the saved stack pointer, where the thread will return to. -/
def returnSlot (m : Bytes) (context : UInt64) : ByteRange := ⟨m.load64 (context + 48), 8⟩

theorem bytesOf_congr {m m' : Bytes} {stack : ByteRange} (h : ∀ a ∈ stack, m' a = m a) :
    bytesOf m' stack = bytesOf m stack := by
  funext a
  unfold bytesOf
  split
  · rename_i ha
    rw [h a ha]
  · rfl

/-- The range of a context. -/
def contextRange (context : UInt64) : ByteRange := ⟨context, kContextSize⟩

/-- The seven words at its start. -/
theorem mem_contextRange {context a : UInt64} (h : a ∈ ByteRange.mk context 56) : a ∈ contextRange context := by
  rw [ByteRange.mem_iff] at h
  show (a - context).toNat < 1088
  dsimp only at h
  omega

/-- The header is in the context, behind the registers. -/
theorem reservedZero_congr {m m' : Bytes} {context : UInt64} (hfit : context.toNat + kContextSize ≤ 2 ^ 64)
    (h : ∀ a ∈ contextRange context, a ∉ ByteRange.mk context 56 → m' a = m a)
    (hzero : ReservedZero (areaAt m (context + kExtendedStateOffset))) :
    ReservedZero (areaAt m' (context + kExtendedStateOffset)) := by
  have hsize : kExtendedStateSize = 1024 := rfl
  intro off hlo hhi
  have haddr : (context + kExtendedStateOffset + off).toNat = _ := toNat_extended hfit (by omega)
  have hlt := context.toNat_lt
  rw [← hzero off hlo hhi]
  apply h
  · show (context + kExtendedStateOffset + off - context).toNat < 1088
    rw [UInt64.toNat_sub, haddr]
    omega
  · show ¬ (context + kExtendedStateOffset + off - context).toNat < 56
    rw [UInt64.toNat_sub, haddr]
    omega

theorem load_context_congr {m m' : Bytes} {context : UInt64} (h : ∀ a ∈ contextRange context, m' a = m a)
    {s : Reg × UInt64} (hs : s ∈ kContextRegisters) : m'.load64 (context + s.2) = m.load64 (context + s.2) := by
  have hin := contextRegisters_inside s hs
  have hsize : kContextSize = 1088 := rfl
  exact Bytes.load64_congr fun b hb => h b (ByteRange.mem_of_part (by omega) hb)

theorem rsp_mem : (Reg.rsp, (48 : UInt64)) ∈ kContextRegisters := by decide

section Frames

variable {u : ExtendedUnit E} {cpuXsaveMask : UInt64}

/-- **A frame stays as it is** when its context and its stack do. -/
theorem contextFrame_congr (hdoc : u.Documented (formatOf cpuXsaveMask)) {m m' : Bytes} {context : UInt64}
    {stack : ByteRange} (hcontext : ∀ a ∈ contextRange context, m' a = m a) (hstack : ∀ a ∈ stack, m' a = m a)
    (hslot : ∀ a ∈ returnSlot m context, a ∈ stack) :
    contextFrame u cpuXsaveMask m' context stack = contextFrame u cpuXsaveMask m context stack := by
  have h64 : kExtendedStateOffset.toNat = 64 := rfl
  have hsize : kContextSize = 1088 := rfl
  have hsize' : kExtendedStateSize = 1024 := rfl
  have hrsp := load_context_congr hcontext rsp_mem
  dsimp only at hrsp
  apply Frame.ext
  · funext r
    unfold contextFrame
    dsimp only
    cases hfind : kContextRegisters.find? (fun s => s.1 = r) with
    | none => rfl
    | some s =>
        dsimp only
        rw [load_context_congr hcontext (List.mem_of_find?_eq_some hfind)]
  · show m'.load64 (m'.load64 (context + 48)) = m.load64 (m.load64 (context + 48))
    rw [hrsp]
    exact Bytes.load64_congr fun b hb => hstack b (hslot b hb)
  · show u.restoreAt _ m' _ = u.restoreAt _ m _
    apply restoreAt_congr hdoc
    intro a ha
    exact hcontext a (ByteRange.mem_of_part (by omega) ha)
  · exact bytesOf_congr hstack

/-- What is loaded from a context and returned to is the frame that the context holds. -/
theorem ret_frame {c : Cpu E} {stack : ByteRange} {e : E}
    (he : u.restoreAt (formatOf cpuXsaveMask) c.mem (c.regs .rsi + kExtendedStateOffset) = some e) :
    Cpu.frame (Cpu.ret { c.restoreRegisters with extended := e }) stack =
      contextFrame u cpuXsaveMask c.mem (c.regs .rsi) stack := by
  have hregs := restoreRegisters_regs c
  have hrsp : c.restoreRegisters.regs .rsp = c.mem.load64 (c.regs .rsi + 48) := hregs .rsp
  apply Frame.ext
  · funext r
    show (if r.callerSaved then 0 else
      Function.update c.restoreRegisters.regs .rsp (c.restoreRegisters.regs .rsp + 8) r) = _
    unfold contextFrame
    dsimp only
    by_cases hr : r = .rsp
    · subst hr
      rw [if_neg (by decide), Function.update_self, hrsp]
      rfl
    · rw [Function.update_of_ne hr, hregs r, if_neg hr]
      cases r <;> simp [Reg.callerSaved, kContextRegisters] at hr ⊢
  · show c.mem.load64 (c.restoreRegisters.regs .rsp) = c.mem.load64 (c.mem.load64 (c.regs .rsi + 48))
    rw [hrsp]
  · exact he.symm
  · rfl

section Leaving

variable {c : Cpu E} {p q returnAddress : UInt64} {old : ByteRange} (hp : p.toNat + kContextSize ≤ 2 ^ 64)
  (hold : ∀ a ∈ ByteRange.mk (c.regs .rsp - 8) 8, a ∈ old) (holdp : old.Apart (contextRange p))
include hp hold holdp

omit holdp in
/-- The call and the stores of the registers write the old stack and the start of the context. -/
theorem saveRegisters_call_outside {a : UInt64} (ha : a ∉ ByteRange.mk p 56) (hstack : a ∉ old) :
    (c.call p q returnAddress).saveRegisters.mem a = c.mem a := by
  rw [saveRegisters_outside, Cpu.call_mem]
  · exact Bytes.store64_outside returnAddress fun hslot => hstack (hold a hslot)
  · rw [Cpu.call_rdi]
    exact hp
  · rw [Cpu.call_rdi]
    exact ha

/-- Once memory has the registers and the extended state of the thread that leaves, its frame is that of the call. -/
theorem contextFrame_call {m : Bytes}
    (hm : ∀ a, a ∉ ByteRange.mk (p + kExtendedStateOffset) kExtendedStateSize →
      m a = (c.call p q returnAddress).saveRegisters.mem a)
    (he : u.restoreAt (formatOf cpuXsaveMask) m (p + kExtendedStateOffset) = some c.extended) :
    contextFrame u cpuXsaveMask m p old = c.callFrame old returnAddress ∧ ∀ a ∈ returnSlot m p, a ∈ old := by
  have h64 : kExtendedStateOffset.toNat = 64 := rfl
  have hsize : kContextSize = 1088 := rfl
  have hsize' : kExtendedStateSize = 1024 := rfl
  have hrdi : ((c.call p q returnAddress).regs .rdi).toNat + kContextSize ≤ 2 ^ 64 := by
    rw [Cpu.call_rdi]
    exact hp
  have hload : ∀ s ∈ kContextRegisters, m.load64 (p + s.2) = (c.call p q returnAddress).regs s.1 := by
    intro s hs
    have hin := contextRegisters_inside s hs
    have hsaved := saveRegisters_load hrdi hs
    rw [Cpu.call_rdi] at hsaved
    rw [← hsaved]
    apply Bytes.load64_congr
    intro b hb
    exact hm b (ByteRange.parts_apart (by omega) (by omega) b hb)
  have hrsp := hload _ rsp_mem
  dsimp only at hrsp
  rw [Cpu.call_rsp] at hrsp
  -- the old stack is as the call left it
  have hstack : ∀ a ∈ old, m a = c.mem.store64 (c.regs .rsp - 8) returnAddress a := by
    intro a ha
    have hout := holdp a ha
    rw [hm a fun hin => hout (ByteRange.mem_of_part (by omega) hin), saveRegisters_outside hrdi, Cpu.call_mem]
    rw [Cpu.call_rdi]
    exact fun hin => hout (mem_contextRange hin)
  constructor
  · apply Frame.ext
    · funext r
      unfold contextFrame Cpu.callFrame Cpu.frame
      dsimp only
      cases hfind : kContextRegisters.find? (fun s => s.1 = r) with
      | none => cases r <;> first | rfl | exact absurd hfind (by decide)
      | some s =>
          have hs := List.mem_of_find?_eq_some hfind
          obtain rfl : s.1 = r := by simpa using List.find?_some hfind
          dsimp only
          rw [hload s hs]
          simp only [kContextRegisters, List.mem_cons, List.not_mem_nil, or_false] at hs
          rcases hs with rfl | rfl | rfl | rfl | rfl | rfl | rfl
          · exact UInt64.add_zero _
          · exact UInt64.add_zero _
          · exact UInt64.add_zero _
          · exact UInt64.add_zero _
          · exact UInt64.add_zero _
          · exact UInt64.add_zero _
          · exact UInt64.sub_add_cancel _ _
    · show m.load64 (m.load64 (p + 48)) = returnAddress
      rw [hrsp, Bytes.load64_congr fun b hb => hstack b (hold b hb), Bytes.load64_store64]
    · exact he
    · exact bytesOf_congr hstack
  · intro a ha
    unfold returnSlot at ha
    rw [hrsp] at ha
    exact hold a ha

end Leaving

/-- **One switch.** From `p` to `q`: the thread that leaves is in its context as its call will return, the processor has
    what was in the other context, and nothing is written but the one context and the return address. -/
theorem schedulerContextSwitch_spec (hmask : cpuXsaveMask = 0 ∨ cpuXsaveMask = 7)
    (hdoc : u.Documented (formatOf cpuXsaveMask)) {c : Cpu E} {p q returnAddress : UInt64} {old new : ByteRange}
    (hp : p.toNat + kContextSize ≤ 2 ^ 64) (hpal : p.toNat % 64 = 0)
    (hpq : (contextRange q).Apart (contextRange p))
    (hold : ∀ a ∈ ByteRange.mk (c.regs .rsp - 8) 8, a ∈ old) (holdp : old.Apart (contextRange p))
    (holdq : old.Apart (contextRange q)) (hnewp : new.Apart (contextRange p)) (hapart : new.Apart old)
    (hslot : ∀ a ∈ returnSlot c.mem q, a ∈ new)
    (hzero : ReservedZero (areaAt c.mem (p + kExtendedStateOffset)))
    {e : E} (hrestore : u.restoreAt (formatOf cpuXsaveMask) c.mem (q + kExtendedStateOffset) = some e) :
    ∃ c', schedulerContextSwitch u cpuXsaveMask (c.call p q returnAddress) = some c' ∧
      (∀ a, a ∉ contextRange p → a ∉ old → c'.mem a = c.mem a) ∧
      contextFrame u cpuXsaveMask c'.mem p old = c.callFrame old returnAddress ∧
      c'.frame new = contextFrame u cpuXsaveMask c.mem q new ∧
      (∀ a ∈ returnSlot c'.mem p, a ∈ old) ∧
      ReservedZero (areaAt c'.mem (p + kExtendedStateOffset)) := by
  have h64 : kExtendedStateOffset.toNat = 64 := rfl
  have hsize : kContextSize = 1088 := rfl
  have hsize' : kExtendedStateSize = 1024 := rfl
  have hsaved : ∀ a, a ∉ ByteRange.mk p 56 → a ∉ old →
      (c.call p q returnAddress).saveRegisters.mem a = c.mem a :=
    fun a => saveRegisters_call_outside hp hold
  have hzero' : ReservedZero (areaAt (c.call p q returnAddress).saveRegisters.mem (p + kExtendedStateOffset)) :=
    reservedZero_congr hp (fun a hin hregs => hsaved a hregs fun hmem => holdp a hmem hin) hzero
  obtain ⟨m, hsave, hout, hzero'', hback⟩ := saveAt_spec hdoc hp hpal c.extended hzero'
  have houtside : ∀ a, a ∉ contextRange p → a ∉ old → m a = c.mem a := by
    intro a ha hstack
    rw [hout a fun hin => ha (ByteRange.mem_of_part (by omega) hin)]
    refine hsaved a (fun hin => ha ?_) hstack
    exact mem_contextRange hin
  obtain ⟨hframe, hslot'⟩ := contextFrame_call hp hold holdp hout hback
  have hq : ∀ a ∈ contextRange q, m a = c.mem a :=
    fun a ha => houtside a (hpq a ha) fun hstack => holdq a hstack ha
  have hrestore' : u.restoreAt (formatOf cpuXsaveMask) m (q + kExtendedStateOffset) = some e := by
    rw [restoreAt_congr hdoc fun a ha => hq a (ByteRange.mem_of_part (by omega) ha)]
    exact hrestore
  let saved : Cpu E := { (c.call p q returnAddress).saveRegisters.loadMask cpuXsaveMask with mem := m }
  refine ⟨Cpu.ret { saved.restoreRegisters with extended := e }, ?_, houtside, hframe, ?_, hslot', hzero''⟩
  · have hformat := format_loadMask hmask (c.call p q returnAddress).saveRegisters
    have hsave' : u.saveAt ((c.call p q returnAddress).saveRegisters.loadMask cpuXsaveMask).format
        ((c.call p q returnAddress).saveRegisters.loadMask cpuXsaveMask).extended
        ((c.call p q returnAddress).saveRegisters.loadMask cpuXsaveMask).mem
        (((c.call p q returnAddress).saveRegisters.loadMask cpuXsaveMask).regs .rdi + kExtendedStateOffset) =
          some m := by
      rw [hformat]
      exact hsave
    have hload : u.restoreAt saved.restoreRegisters.format saved.restoreRegisters.mem
        (saved.restoreRegisters.regs .rsi + kExtendedStateOffset) = some e := by
      have hformat' : saved.restoreRegisters.format = formatOf cpuXsaveMask := by
        rw [← hformat]
        rfl
      rw [hformat']
      exact hrestore'
    unfold schedulerContextSwitch
    dsimp only
    rw [hsave']
    dsimp only
    rw [hload]
  · have hret : Cpu.frame (Cpu.ret { saved.restoreRegisters with extended := e }) new =
        contextFrame u cpuXsaveMask m q new := @ret_frame E u cpuXsaveMask saved new e hrestore'
    rw [hret]
    exact contextFrame_congr hdoc hq (fun a ha => houtside a (hnewp a ha) (hapart a ha)) hslot

/-! ## What `PrepareInitialContext` does -/

section Prepare

variable {stack : ByteRange}

/-- The word that a new thread finds is 16-byte aligned and in its stack. -/
theorem initialStack_spec (hfit : stack.start.toNat + stack.size < 2 ^ 64) (hsize : 32 ≤ stack.size) :
    (initialStack stack).toNat % 16 = 0 ∧ stack.start.toNat ≤ (initialStack stack).toNat ∧
      (initialStack stack).toNat + 16 ≤ stack.start.toNat + stack.size := by
  have h16 : (16 : UInt64).toNat = 16 := rfl
  have htop : (stack.start + UInt64.ofNat stack.size).toNat = stack.start.toNat + stack.size := by
    rw [UInt64.toNat_add, UInt64.toNat_ofNat', Nat.mod_eq_of_lt (by omega : stack.size < 2 ^ 64),
      Nat.mod_eq_of_lt hfit]
  have hdown := @Lib.toNat_alignDown (stack.start + UInt64.ofNat stack.size) 16 4 rfl
  rw [htop, h16] at hdown
  have hsub : (initialStack stack).toNat =
      (Lib.alignDown (stack.start + UInt64.ofNat stack.size) 16).toNat - 16 := by
    unfold initialStack
    rw [UInt64.toNat_sub_of_le, h16]
    rw [UInt64.le_iff_toNat_le, h16]
    omega
  omega

theorem initialStack_mem (hfit : stack.start.toNat + stack.size < 2 ^ 64) (hsize : 32 ≤ stack.size) {a : UInt64}
    (ha : a ∈ ByteRange.mk (initialStack stack) 8) : a ∈ stack := by
  obtain ⟨-, hlo, hhi⟩ := initialStack_spec hfit hsize
  have hfit' : (ByteRange.mk (initialStack stack) 8).Fits := by
    show (initialStack stack).toNat + 8 ≤ 2 ^ 64
    omega
  have hfit'' : stack.Fits := by
    unfold ByteRange.Fits
    omega
  rw [ByteRange.mem_iff_of_fits hfit'] at ha
  rw [ByteRange.mem_iff_of_fits hfit'']
  dsimp only at ha
  omega

/-- The registers of a new thread: all zero, the stack pointer above the word that it has returned to. -/
def freshSaved (stack : ByteRange) (r : Reg) : UInt64 := if r = .rsp then initialStack stack + 8 else 0

theorem freshSaved_of_ne {r : Reg} (hr : r ≠ .rsp) : freshSaved stack r = 0 := if_neg hr

/-- **A new context.** It holds a thread that goes on in `ThreadTrampoline`, on its own stack, with the extended state
    of the thread that made it; nothing is written but the context and the one word. -/
theorem prepareInitialContext_spec (hdoc : u.Documented (formatOf cpuXsaveMask)) (threadTrampoline : UInt64) (e : E)
    {m : Bytes} {p : UInt64} (hp : p.toNat + kContextSize ≤ 2 ^ 64) (hpal : p.toNat % 64 = 0)
    (hfit : stack.start.toNat + stack.size < 2 ^ 64) (hsize : 32 ≤ stack.size) (hapart : stack.Apart (contextRange p)) :
    ∃ m', prepareInitialContext u cpuXsaveMask threadTrampoline e m p stack = some m' ∧
      (∀ a, a ∉ contextRange p → a ∉ stack → m' a = m a) ∧
      (contextFrame u cpuXsaveMask m' p stack).saved = freshSaved stack ∧
      (contextFrame u cpuXsaveMask m' p stack).rip = threadTrampoline ∧
      (contextFrame u cpuXsaveMask m' p stack).extended = some e ∧
      (∀ a ∈ returnSlot m' p, a ∈ stack) ∧
      ReservedZero (areaAt m' (p + kExtendedStateOffset)) := by
  have h48 : (48 : UInt64).toNat = 48 := rfl
  have h64 : kExtendedStateOffset.toNat = 64 := rfl
  have hsize' : kContextSize = 1088 := rfl
  have hsize'' : kExtendedStateSize = 1024 := rfl
  set cleared := (m.store64 (initialStack stack) threadTrampoline).fill p kContextSize 0 with hcleared
  set mem := cleared.store64 (p + 48) (initialStack stack) with hmem
  -- the context is zero but for the stack pointer
  have hfill : ∀ a ∈ contextRange p, cleared a = 0 := by
    intro a ha
    rw [hcleared, Bytes.fill_apply (by omega)]
    exact if_pos ha
  have hkeep : ∀ a, a ∉ contextRange p → cleared a = m.store64 (initialStack stack) threadTrampoline a := by
    intro a ha
    rw [hcleared, Bytes.fill_apply (by omega)]
    exact if_neg ha
  have hword : ∀ a, a ∉ contextRange p → mem a = m.store64 (initialStack stack) threadTrampoline a := by
    intro a ha
    rw [hmem, Bytes.store64_outside _ fun hin => ha (ByteRange.mem_of_part (by omega) hin)]
    exact hkeep a ha
  have hzero : ReservedZero (areaAt mem (p + kExtendedStateOffset)) := by
    refine reservedZero_congr (m := fun _ => 0) hp (fun a hin hregs => ?_) fun _ _ _ => rfl
    have hout : a ∉ ByteRange.mk (p + 48) 8 := fun h => hregs (ByteRange.mem_of_part (by omega) h)
    rw [hmem, Bytes.store64_outside _ hout]
    exact hfill a hin
  obtain ⟨m', hsave, hout, hzero', hback⟩ := saveAt_spec hdoc hp hpal e hzero
  have hstack : ∀ a ∈ stack, m' a = m.store64 (initialStack stack) threadTrampoline a := by
    intro a ha
    rw [hout a fun hin => hapart a ha (ByteRange.mem_of_part (by omega) hin)]
    exact hword a (hapart a ha)
  have hrsp : m'.load64 (p + 48) = initialStack stack := by
    rw [Bytes.load64_congr fun b hb => hout b (ByteRange.parts_apart (by omega) (by omega) b hb), hmem,
      Bytes.load64_store64]
  have hprepare : prepareInitialContext u cpuXsaveMask threadTrampoline e m p stack = some m' := by
    unfold prepareInitialContext
    rw [← hsave, hmem, hcleared]
    rfl
  refine ⟨m', hprepare, ?_, ?_, ?_, ?_, ?_, hzero'⟩
  · intro a ha hna
    rw [hout a fun hin => ha (ByteRange.mem_of_part (by omega) hin), hword a ha]
    exact Bytes.store64_outside _ fun hin => hna (initialStack_mem hfit hsize hin)
  · funext r
    by_cases hr : r = .rsp
    · subst hr
      show m'.load64 (p + 48) + 8 = initialStack stack + 8
      rw [hrsp]
    · rw [freshSaved_of_ne hr]
      unfold contextFrame
      dsimp only
      cases hfind : kContextRegisters.find? (fun s => s.1 = r) with
      | none => rfl
      | some s =>
          have hs := List.mem_of_find?_eq_some hfind
          have hin := contextRegisters_inside s hs
          obtain rfl : s.1 = r := by simpa using List.find?_some hfind
          have hne : s.2.toNat + 8 ≤ 48 := by
            simp only [kContextRegisters, List.mem_cons, List.not_mem_nil, or_false] at hs
            rcases hs with rfl | rfl | rfl | rfl | rfl | rfl | rfl <;> first | decide | exact absurd rfl hr
          dsimp only
          rw [if_neg hr, UInt64.add_zero]
          apply load64_zero
          intro b hb
          rw [hout b (ByteRange.parts_apart (by omega) (by omega) b hb), hmem,
            Bytes.store64_outside _ (ByteRange.parts_apart (by omega) (by omega) b hb)]
          exact hfill b (ByteRange.mem_of_part (by omega) hb)
  · show m'.load64 (m'.load64 (p + 48)) = threadTrampoline
    rw [hrsp, Bytes.load64_congr fun b hb => hstack b (initialStack_mem hfit hsize hb), Bytes.load64_store64]
  · unfold contextFrame
    dsimp only
    exact hback
  · intro a ha
    unfold returnSlot at ha
    rw [hrsp] at ha
    exact initialStack_mem hfit hsize ha

end Prepare

end Frames

end ContextSwitch
end UefiBoot
