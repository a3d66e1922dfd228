import UefiBoot.Lib.Bitmap
import Mathlib.Tactic

/-!
# `Cpu.Pic` — the two 8259 interrupt controllers behind their ports

A chip gathers eight lines. `irr` holds the lines that were raised, `isr` those that the processor is serving, and
`imr` masks lines. The output of the second chip is line 2 of the first. A command byte with bit 4 begins the
initialization, in which the data port takes two or three more words; otherwise the data port is the mask.

Whatever state the firmware leaves the chips in, `InitPic` brings them to one state (`initPic_eq`): vectors 32 to 47,
cascaded, nothing in service and every line masked. `KernelSetIrqMask` then changes the one bit it names
(`masked_setIrqMask`).
-/

namespace UefiBoot
namespace Pic

local instance irqCount_neZero : NeZero 16 := ⟨by decide⟩

/-- Which word of the initialization the data port takes next. -/
inductive Stage where
  | icw2 | icw3 | icw4 | ready
  deriving DecidableEq

/-- One 8259. -/
structure Chip where
  stage      : Stage
  icw4Needed : Bool
  single     : Bool
  vectorBase : UInt8
  cascade    : UInt8
  autoEoi    : Bool
  imr        : UInt8
  irr        : Fin 8 → Bool
  isr        : Fin 8 → Bool

def kPic1Command : UInt16 := 0x20
def kPic1Data : UInt16 := 0x21
def kPic2Command : UInt16 := 0xA0
def kPic2Data : UInt16 := 0xA1
def kPicEoi : UInt8 := 0x20

/-- The line of highest priority. -/
def first (lines : Fin 8 → Bool) : Option (Fin 8) := (List.finRange 8).find? lines

/-- Whether bit `i` of a register is set. -/
def bitSet (register : UInt8) (i : Fin 8) : Bool := register &&& Lib.Bitmap.mask i != 0

namespace Chip

/-- The first word of the initialization. It clears the masks and everything that is pending or in service. -/
def begin (icw1 : UInt8) : Chip where
  stage      := .icw2
  icw4Needed := icw1 &&& 0x01 != 0
  single     := icw1 &&& 0x02 != 0
  vectorBase := 0
  cascade    := 0
  autoEoi    := false
  imr        := 0
  irr        := fun _ => false
  isr        := fun _ => false

/-- The end of interrupt, for the line of highest priority in service. -/
def endOfInterrupt (c : Chip) : Chip :=
  match first c.isr with
  | none   => c
  | some i => { c with isr := Function.update c.isr i false }

/-- A byte on the command port. Of the operation words the kernel writes only the end of interrupt. -/
def writeCommand (c : Chip) (value : UInt8) : Chip :=
  if value &&& 0x10 != 0 then begin value else if value = kPicEoi then c.endOfInterrupt else c

/-- A byte on the data port. -/
def writeData (c : Chip) (value : UInt8) : Chip :=
  match c.stage with
  | .icw2  =>
    { c with
      vectorBase := value &&& 0xF8
      stage := if c.single then (if c.icw4Needed then .icw4 else .ready) else .icw3 }
  | .icw3  => { c with cascade := value, stage := if c.icw4Needed then .icw4 else .ready }
  | .icw4  => { c with autoEoi := value &&& 0x02 != 0, stage := .ready }
  | .ready => { c with imr := value }

def masked (c : Chip) (i : Fin 8) : Bool := bitSet c.imr i

/-- The line that the chip asks the processor to serve: raised, not masked, and before every line in service. -/
def request (c : Chip) (lines : Fin 8 → Bool) : Option (Fin 8) :=
  if c.stage ≠ .ready then none
  else
    match first fun i => lines i && !c.masked i, first c.isr with
    | none, _        => none
    | some i, none   => some i
    | some i, some j => if i < j then some i else none

/-- The processor takes the line. -/
def acknowledge (c : Chip) (i : Fin 8) : Chip :=
  { c with
    irr := Function.update c.irr i false
    isr := if c.autoEoi then c.isr else Function.update c.isr i true }

/-- The vector of a line. -/
def vector (c : Chip) (i : Fin 8) : UInt8 := c.vectorBase + UInt8.ofNat i

end Chip

/-- The two chips of a PC. -/
structure Pair where
  pic1 : Chip
  pic2 : Chip

namespace Pair

/-- The lines of the first chip: where the second is wired in, its request. -/
def lines1 (p : Pair) (i : Fin 8) : Bool :=
  if bitSet p.pic1.cascade i then (p.pic2.request p.pic2.irr).isSome else p.pic1.irr i

/-- The processor asks for the vector. The second chip answers when the first names it; a line that has gone in
    between reads as its last one. -/
def acknowledge (p : Pair) : Option (UInt8 × Pair) :=
  match p.pic1.request p.lines1 with
  | none   => none
  | some i =>
    if bitSet p.pic1.cascade i && p.pic2.cascade == UInt8.ofNat i then
      match p.pic2.request p.pic2.irr with
      | none   => some (p.pic2.vector 7, { p with pic1 := p.pic1.acknowledge i })
      | some j => some (p.pic2.vector j, ⟨p.pic1.acknowledge i, p.pic2.acknowledge j⟩)
    else some (p.pic1.vector i, { p with pic1 := p.pic1.acknowledge i })

/-- A device raises its line. -/
def raise (p : Pair) (line : Fin 16) : Pair :=
  if h : (line : Nat) < 8
  then { p with pic1 := { p.pic1 with irr := Function.update p.pic1.irr ⟨line, h⟩ true } }
  else { p with pic2 := { p.pic2 with irr := Function.update p.pic2.irr ⟨line - 8, by omega⟩ true } }

/-- `Out8` on the ports of the chips. -/
def out8 (p : Pair) (port : UInt16) (value : UInt8) : Pair :=
  if port = kPic1Command then { p with pic1 := p.pic1.writeCommand value }
  else if port = kPic1Data then { p with pic1 := p.pic1.writeData value }
  else if port = kPic2Command then { p with pic2 := p.pic2.writeCommand value }
  else if port = kPic2Data then { p with pic2 := p.pic2.writeData value }
  else p

/-- `In8` on the data ports. -/
def in8 (p : Pair) (port : UInt16) : UInt8 :=
  if port = kPic1Data then p.pic1.imr else if port = kPic2Data then p.pic2.imr else 0

end Pair

/-! ## What the kernel writes -/

def kIrqBaseVector : UInt8 := 32
def kIrqCount : UInt8 := 16

/-- The bytes that `InitPic` writes, in order. -/
def initWords : List (UInt16 × UInt8) :=
  [(kPic1Command, 0x11), (kPic2Command, 0x11), (kPic1Data, kIrqBaseVector), (kPic2Data, kIrqBaseVector + 8),
    (kPic1Data, 0x04), (kPic2Data, 0x02), (kPic1Data, 0x01), (kPic2Data, 0x01), (kPic1Data, 0xFF), (kPic2Data, 0xFF)]

/-- `InitPic`. -/
def initPic (p : Pair) : Pair := initWords.foldl (fun p w => p.out8 w.1 w.2) p

/-- `SendPicEoi`. -/
def sendPicEoi (p : Pair) (irq : UInt8) : Pair :=
  let p := if irq ≥ 8 then p.out8 kPic2Command kPicEoi else p
  p.out8 kPic1Command kPicEoi

/-- `KernelSetIrqMask`. -/
def kernelSetIrqMask (p : Pair) (irq : UInt8) (masked : Bool) : Pair :=
  if irq ≥ kIrqCount then p
  else
    let port := if irq < 8 then kPic1Data else kPic2Data
    let bit := Lib.Bitmap.mask irq.toNat
    let mask := p.in8 port
    let mask := if masked then mask ||| bit else mask &&& ~~~bit
    p.out8 port mask

/-! ## The state of the chips -/

/-- A chip of the kernel, with its vectors and what it is wired to. -/
structure Configured (c : Chip) (vectorBase cascade : UInt8) : Prop where
  stage      : c.stage = .ready
  vectorBase : c.vectorBase = vectorBase
  cascade    : c.cascade = cascade
  autoEoi    : c.autoEoi = false

/-- **The chips between two interrupts**: configured, and nothing in service. -/
structure Idle (p : Pair) : Prop where
  pic1 : Configured p.pic1 kIrqBaseVector 0x04
  pic2 : Configured p.pic2 (kIrqBaseVector + 8) 0x02
  isr1 : p.pic1.isr = fun _ => false
  isr2 : p.pic2.isr = fun _ => false

/-- The two masks. -/
def Pair.masks (p : Pair) : Lib.Bitmap
  | 0 => p.pic1.imr
  | _ => p.pic2.imr

/-- Line `i` of the pair. -/
def Pair.masked (p : Pair) (i : Nat) : Bool := p.masks.test i

/-- What `InitPic` leaves of a chip. -/
def fresh (vectorBase cascade : UInt8) : Chip where
  stage      := .ready
  icw4Needed := true
  single     := false
  vectorBase := vectorBase
  cascade    := cascade
  autoEoi    := false
  imr        := 0xFF
  irr        := fun _ => false
  isr        := fun _ => false

/-- **`InitPic` forgets what was before.** -/
theorem initPic_eq (p : Pair) : initPic p = ⟨fresh kIrqBaseVector 0x04, fresh (kIrqBaseVector + 8) 0x02⟩ := rfl

theorem idle_initPic (p : Pair) : Idle (initPic p) := by
  rw [initPic_eq]
  exact ⟨⟨rfl, rfl, rfl, rfl⟩, ⟨rfl, rfl, rfl, rfl⟩, rfl, rfl⟩

section Masks

variable {p : Pair}

theorem masked_pic1 (i : Fin 8) : p.pic1.masked i = p.masked i := by
  have hbyte : (i : Nat) / 8 = 0 := Nat.div_eq_of_lt i.isLt
  unfold Chip.masked bitSet Pair.masked Lib.Bitmap.test
  rw [hbyte]
  rfl

theorem masked_pic2 (i : Fin 8) : p.pic2.masked i = p.masked (8 + i) := by
  have hi := i.isLt
  have hbyte : (8 + (i : Nat)) / 8 = 1 := by omega
  have hbit : (8 + (i : Nat)) % 8 = i % 8 := by omega
  unfold Chip.masked bitSet Pair.masked Lib.Bitmap.test Lib.Bitmap.mask
  rw [hbyte, hbit]
  rfl

theorem masked_initPic (p : Pair) {i : Nat} (hi : i < 16) : (initPic p).masked i = true := by
  rw [initPic_eq]
  interval_cases i <;> rfl

/-- What `KernelSetIrqMask` makes of the masks. -/
def newMasks (b : Lib.Bitmap) (irq : UInt8) (masked : Bool) : Lib.Bitmap :=
  if irq ≥ kIrqCount then b else if masked then b.set irq.toNat else b.clear irq.toNat

/-- On a chip that is not being initialized, the data port is the mask. -/
theorem writeData_ready {c : Chip} (value : UInt8) (h : c.stage = .ready) : c.writeData value = { c with imr := value } := by
  cases c
  cases h
  rfl

/-- On chips that are not being initialized, `KernelSetIrqMask` writes masks only. -/
theorem setIrqMask_eq (h : Idle p) (irq : UInt8) (masked : Bool) : kernelSetIrqMask p irq masked =
    ⟨{ p.pic1 with imr := newMasks p.masks irq masked 0 }, { p.pic2 with imr := newMasks p.masks irq masked 1 }⟩ := by
  have h1 := fun value => writeData_ready value h.pic1.stage
  have h2 := fun value => writeData_ready value h.pic2.stage
  unfold kernelSetIrqMask newMasks
  by_cases hcount : irq ≥ kIrqCount
  · rw [if_pos hcount, if_pos hcount]
    rfl
  · rw [if_neg hcount, if_neg hcount]
    have hlt : irq.toNat < 16 := by
      have hcount' := UInt8.not_le.mp hcount
      exact UInt8.lt_iff_toNat_lt.mp hcount'
    by_cases hlow : irq < 8
    · have hbyte : irq.toNat / 8 = 0 := Nat.div_eq_of_lt (UInt8.lt_iff_toNat_lt.mp hlow)
      simp only [if_pos hlow, Pair.out8, Pair.in8, Lib.Bitmap.set, Lib.Bitmap.clear, hbyte]
      cases masked <;> simp [h1, Pair.masks, kPic1Data, kPic1Command]
    · have hge : 8 ≤ irq.toNat := UInt8.le_iff_toNat_le.mp (UInt8.not_lt.mp hlow)
      have hbyte : irq.toNat / 8 = 1 := by omega
      simp only [if_neg hlow, Pair.out8, Pair.in8, Lib.Bitmap.set, Lib.Bitmap.clear, hbyte]
      cases masked <;> simp [h2, Pair.masks, kPic1Data, kPic1Command, kPic2Data, kPic2Command]

theorem masks_setIrqMask (h : Idle p) (irq : UInt8) (masked : Bool) {k : Nat} (hk : k < 2) :
    (kernelSetIrqMask p irq masked).masks k = newMasks p.masks irq masked k := by
  rw [setIrqMask_eq h]
  interval_cases k <;> rfl

/-- **`KernelSetIrqMask`** changes the one bit it names, if there is one. -/
theorem masked_setIrqMask (h : Idle p) (irq : UInt8) (masked : Bool) {i : Nat} (hi : i < 16) :
    (kernelSetIrqMask p irq masked).masked i = if i = irq.toNat then masked else p.masked i := by
  have hbyte : (kernelSetIrqMask p irq masked).masked i = (newMasks p.masks irq masked).test i := by
    unfold Pair.masked Lib.Bitmap.test
    rw [masks_setIrqMask h irq masked (by omega : i / 8 < 2)]
  rw [hbyte]
  unfold newMasks
  by_cases hcount : irq ≥ kIrqCount
  · have hge : 16 ≤ irq.toNat := UInt8.le_iff_toNat_le.mp hcount
    rw [if_pos hcount, if_neg (by omega)]
    rfl
  · rw [if_neg hcount]
    cases masked with
    | false => exact Lib.Bitmap.test_clear p.masks irq.toNat i
    | true => exact Lib.Bitmap.test_set p.masks irq.toNat i

theorem idle_setIrqMask (h : Idle p) (irq : UInt8) (masked : Bool) : Idle (kernelSetIrqMask p irq masked) := by
  obtain ⟨⟨hstage, hbase, hcascade, hauto⟩, ⟨hstage', hbase', hcascade', hauto'⟩, hisr, hisr'⟩ := h
  rw [setIrqMask_eq ⟨⟨hstage, hbase, hcascade, hauto⟩, ⟨hstage', hbase', hcascade', hauto'⟩, hisr, hisr'⟩]
  exact ⟨⟨hstage, hbase, hcascade, hauto⟩, ⟨hstage', hbase', hcascade', hauto'⟩, hisr, hisr'⟩

end Masks

/-! ## One interrupt, from the request to the end of interrupt -/

section Serve

variable {p : Pair}

/-- The first chip has the second on line 2. -/
theorem bitSet_cascade : ∀ i : Fin 8, bitSet 0x04 i = decide (i = 2) := by decide

/-- The lines of the first chip, with the second on line 2. -/
theorem lines1_eq (h : Idle p) (i : Fin 8) :
    p.lines1 i = if i = 2 then (p.pic2.request p.pic2.irr).isSome else p.pic1.irr i := by
  have hbit : bitSet p.pic1.cascade i = decide (i = 2) := by
    rw [h.pic1.cascade, bitSet_cascade]
  unfold Pair.lines1
  rw [hbit]
  by_cases hi : i = 2
  · rw [if_pos hi, if_pos (decide_eq_true hi)]
  · rw [if_neg hi, if_neg (by simpa using hi)]

/-- With nothing in service, a chip asks for the first line that is raised and not masked. -/
theorem request_eq {c : Chip} (hstage : c.stage = .ready) (hisr : c.isr = fun _ => false) (lines : Fin 8 → Bool) :
    c.request lines = first fun i => lines i && !c.masked i := by
  have hnone : first c.isr = none := by
    rw [hisr]
    rfl
  unfold Chip.request
  rw [if_neg (by simp [hstage]), hnone]
  cases first fun i => lines i && !c.masked i <;> rfl

theorem first_update (isr : Fin 8 → Bool) (i : Fin 8) (h : isr = fun _ => false) :
    first (Function.update isr i true) = some i := by
  subst h
  revert i
  decide

/-- The one line in service is done. -/
theorem endOfInterrupt_acknowledge {c : Chip} {vectorBase cascade : UInt8} (hc : Configured c vectorBase cascade)
    (hisr : c.isr = fun _ => false) (i : Fin 8) :
    (c.acknowledge i).endOfInterrupt = { c with irr := Function.update c.irr i false } := by
  have hack : (c.acknowledge i).isr = Function.update c.isr i true := by
    unfold Chip.acknowledge
    dsimp only
    rw [hc.autoEoi]
    rfl
  unfold Chip.endOfInterrupt
  rw [hack, first_update c.isr i hisr]
  dsimp only
  rw [Function.update_idem, hisr]
  have hzero : Function.update (fun _ : Fin 8 => false) i false = fun _ => false := Function.update_eq_self i _
  rw [hzero, ← hisr]
  rfl

/-- An end of interrupt with nothing in service. -/
theorem endOfInterrupt_idle {c : Chip} (hisr : c.isr = fun _ => false) : c.endOfInterrupt = c := by
  have hnone : first c.isr = none := by
    rw [hisr]
    rfl
  unfold Chip.endOfInterrupt
  rw [hnone]

theorem out8_eoi1 (p : Pair) : p.out8 kPic1Command kPicEoi = { p with pic1 := p.pic1.endOfInterrupt } := rfl
theorem out8_eoi2 (p : Pair) : p.out8 kPic2Command kPicEoi = { p with pic2 := p.pic2.endOfInterrupt } := rfl

/-- A line is no longer raised. -/
def Pair.lower (p : Pair) (line : Fin 16) : Pair :=
  if h : (line : Nat) < 8
  then { p with pic1 := { p.pic1 with irr := Function.update p.pic1.irr ⟨line, h⟩ false } }
  else
    { pic1 := { p.pic1 with irr := Function.update p.pic1.irr 2 false }
      pic2 := { p.pic2 with irr := Function.update p.pic2.irr ⟨line - 8, by omega⟩ false } }

/-- Whether line `i` is raised. -/
def Pair.raised (p : Pair) (i : Fin 16) : Bool :=
  if h : (i : Nat) < 8 then p.pic1.irr ⟨i, h⟩ else p.pic2.irr ⟨i - 8, by omega⟩

/-- The lines by priority; the second chip comes in at line 2 of the first. -/
def order : List (Fin 16) := [0, 1, 8, 9, 10, 11, 12, 13, 14, 15, 3, 4, 5, 6, 7]

/-- A line that reaches the processor: a line of the second chip has to pass line 2 as well. -/
def Pair.deliverable (p : Pair) (i : Fin 16) : Bool :=
  p.raised i && !p.masked i && (decide ((i : Nat) < 8) || !p.masked 2)

/-- The lines of the first and of the second chip. -/
def low (i : Fin 8) : Fin 16 := Fin.castLE (by decide) i
def high (i : Fin 8) : Fin 16 := Fin.natAdd 8 i

theorem order_eq : order = [0, 1].map low ++ ((List.finRange 8).map high ++ [3, 4, 5, 6, 7].map low) := by decide

theorem lines_eq : List.finRange 8 = [0, 1] ++ ([2] ++ [3, 4, 5, 6, 7]) := by decide

theorem vector_high : ∀ j : Fin 8, kIrqBaseVector + 8 + UInt8.ofNat j = 32 + UInt8.ofNat (high j) := by decide

theorem before_cascade : ∀ i ∈ ([0, 1] : List (Fin 8)), i ≠ 2 := by decide

theorem behind_cascade : ∀ i ∈ ([3, 4, 5, 6, 7] : List (Fin 8)), i ≠ 2 := by decide

theorem deliverable_low (i : Fin 8) : p.deliverable (low i) = (p.pic1.irr i && !p.pic1.masked i) := by
  have hi : ((low i : Fin 16) : Nat) < 8 := i.isLt
  unfold Pair.deliverable Pair.raised
  rw [dif_pos hi, decide_eq_true hi, Bool.true_or, Bool.and_true, masked_pic1]
  rfl

theorem deliverable_high (i : Fin 8) :
    p.deliverable (high i) = (p.pic2.irr i && !p.pic2.masked i && !p.pic1.masked 2) := by
  have hi : ¬ ((high i : Fin 16) : Nat) < 8 := by
    show ¬ 8 + (i : Nat) < 8
    omega
  have hsub : (⟨(high i : Fin 16) - 8, by omega⟩ : Fin 8) = i := by
    apply Fin.ext
    show 8 + (i : Nat) - 8 = i
    omega
  unfold Pair.deliverable Pair.raised
  rw [dif_neg hi, decide_eq_false hi, Bool.false_or, masked_pic1, masked_pic2, hsub]
  rfl

/-- What the processor is given: a line of the first chip, or one of the second through line 2. -/
theorem acknowledge_low (h : Idle p) {i : Fin 8} (hi : i ≠ 2)
    (hfirst : first (fun i => p.lines1 i && !p.pic1.masked i) = some i) :
    p.acknowledge = some (32 + UInt8.ofNat (low i), { p with pic1 := p.pic1.acknowledge i }) := by
  have hbit : bitSet p.pic1.cascade i = false := by
    rw [h.pic1.cascade, bitSet_cascade]
    exact decide_eq_false hi
  unfold Pair.acknowledge
  rw [request_eq h.pic1.stage h.isr1, hfirst]
  dsimp only
  rw [hbit]
  unfold Chip.vector
  rw [h.pic1.vectorBase]
  rfl

theorem acknowledge_high (h : Idle p) {j : Fin 8}
    (hfirst : first (fun i => p.lines1 i && !p.pic1.masked i) = some 2)
    (hsecond : first (fun i => p.pic2.irr i && !p.pic2.masked i) = some j) :
    p.acknowledge = some (32 + UInt8.ofNat (high j), ⟨p.pic1.acknowledge 2, p.pic2.acknowledge j⟩) := by
  have hvector : p.pic2.vector j = 32 + UInt8.ofNat (high j) := by
    unfold Chip.vector
    rw [h.pic2.vectorBase, vector_high]
  unfold Pair.acknowledge
  rw [request_eq h.pic1.stage h.isr1, request_eq h.pic2.stage h.isr2, hfirst, hsecond]
  dsimp only
  rw [hvector, h.pic1.cascade, h.pic2.cascade]
  rfl

theorem sendPicEoi_low (h : Idle p) (i : Fin 8) :
    sendPicEoi { p with pic1 := p.pic1.acknowledge i } (UInt8.ofNat (low i)) = p.lower (low i) := by
  have hi : ((low i : Fin 16) : Nat) < 8 := i.isLt
  have hlow : ¬ UInt8.ofNat (low i) ≥ 8 := by
    revert i
    decide
  unfold sendPicEoi Pair.lower
  rw [if_neg hlow, dif_pos hi]
  dsimp only
  rw [out8_eoi1]
  dsimp only
  rw [endOfInterrupt_acknowledge h.pic1 h.isr1]
  rfl

theorem sendPicEoi_high (h : Idle p) (j : Fin 8) :
    sendPicEoi ⟨p.pic1.acknowledge 2, p.pic2.acknowledge j⟩ (UInt8.ofNat (high j)) = p.lower (high j) := by
  have hi : ¬ ((high j : Fin 16) : Nat) < 8 := by
    show ¬ 8 + (j : Nat) < 8
    omega
  have hhigh : UInt8.ofNat (high j) ≥ 8 := by
    revert j
    decide
  have hsub : (⟨(high j : Fin 16) - 8, by omega⟩ : Fin 8) = j := by
    apply Fin.ext
    show 8 + (j : Nat) - 8 = j
    omega
  unfold sendPicEoi Pair.lower
  rw [if_pos hhigh, dif_neg hi, hsub]
  dsimp only
  rw [out8_eoi2, out8_eoi1]
  dsimp only
  rw [endOfInterrupt_acknowledge h.pic1 h.isr1, endOfInterrupt_acknowledge h.pic2 h.isr2]

/-- **One interrupt.** The processor is given the first line that reaches it, as vector 32 on; after the end of interrupt
    the line is no longer raised, and nothing is in service. -/
theorem serve (h : Idle p) :
    match order.find? p.deliverable with
    | none   => p.acknowledge = none
    | some i => ∃ q, p.acknowledge = some (32 + UInt8.ofNat i, q) ∧ sendPicEoi q (UInt8.ofNat i) = p.lower i := by
  have hpending : ∀ i : Fin 8, i ≠ 2 →
      (p.lines1 i && !p.pic1.masked i) = (p.deliverable ∘ low) i := by
    intro i hi
    show _ = p.deliverable (low i)
    rw [lines1_eq h, if_neg hi, deliverable_low]
  have hbefore : [0, 1].find? (fun i => p.lines1 i && !p.pic1.masked i) = [0, 1].find? (p.deliverable ∘ low) :=
    List.find?_congr fun i hi => hpending i (before_cascade i hi)
  have hbehind : [3, 4, 5, 6, 7].find? (fun i => p.lines1 i && !p.pic1.masked i) =
      [3, 4, 5, 6, 7].find? (p.deliverable ∘ low) :=
    List.find?_congr fun i hi => hpending i (behind_cascade i hi)
  have hfirst : first (fun i => p.lines1 i && !p.pic1.masked i) =
      ([0, 1].find? (p.deliverable ∘ low)).or
        (([2].find? fun i => p.lines1 i && !p.pic1.masked i).or ([3, 4, 5, 6, 7].find? (p.deliverable ∘ low))) := by
    unfold first
    rw [lines_eq, List.find?_append, List.find?_append, hbefore, hbehind]
  have hrequest2 : p.lines1 2 = (first fun i => p.pic2.irr i && !p.pic2.masked i).isSome := by
    rw [lines1_eq h, if_pos rfl, request_eq h.pic2.stage h.isr2]
  have hsecond : (List.finRange 8).find? (p.deliverable ∘ high) =
      if p.pic1.masked 2 then none else first fun i => p.pic2.irr i && !p.pic2.masked i := by
    have hhigh : (p.deliverable ∘ high) = fun i => p.pic2.irr i && !p.pic2.masked i && !p.pic1.masked 2 :=
      funext fun i => deliverable_high i
    rw [hhigh]
    cases p.pic1.masked 2 with
    | false => simp [first]
    | true => simp
  rw [order_eq, List.find?_append, List.find?_append, List.find?_map, List.find?_map, List.find?_map, hsecond]
  cases hlow : [0, 1].find? (p.deliverable ∘ low) with
  | some i =>
      have hi : i ≠ 2 := before_cascade i (List.mem_of_find?_eq_some hlow)
      rw [hlow] at hfirst
      exact ⟨_, acknowledge_low h hi hfirst, sendPicEoi_low h i⟩
  | none =>
      rw [hlow, Option.none_or] at hfirst
      have hcascade : [2].find? (fun i => p.lines1 i && !p.pic1.masked i) =
          if p.lines1 2 && !p.pic1.masked 2 then some 2 else none := by
        rw [List.find?_cons]
        cases p.lines1 2 && !p.pic1.masked 2 <;> rfl
      rw [hcascade, hrequest2] at hfirst
      cases hj : (if p.pic1.masked 2 then none else first fun i => p.pic2.irr i && !p.pic2.masked i) with
      | some j =>
          have hopen : p.pic1.masked 2 = false := by
            by_contra hmasked
            rw [if_pos (by simpa using hmasked)] at hj
            exact nomatch hj
          rw [if_neg (by simp [hopen])] at hj
          rw [hj, hopen, if_pos (by rfl)] at hfirst
          exact ⟨_, acknowledge_high h hfirst hj, sendPicEoi_high h j⟩
      | none =>
          have hclosed : ((first fun i => p.pic2.irr i && !p.pic2.masked i).isSome && !p.pic1.masked 2) = false := by
            cases hmasked : p.pic1.masked 2 with
            | true => exact Bool.and_false _
            | false =>
                rw [if_neg (by simp [hmasked])] at hj
                rw [hj]
                rfl
          rw [if_neg (by simp [hclosed]), Option.none_or] at hfirst
          cases hback : [3, 4, 5, 6, 7].find? (p.deliverable ∘ low) with
          | some i =>
              rw [hback] at hfirst
              exact ⟨_, acknowledge_low h (behind_cascade i (List.mem_of_find?_eq_some hback)) hfirst, sendPicEoi_low h i⟩
          | none =>
              rw [hback] at hfirst
              show p.acknowledge = none
              unfold Pair.acknowledge
              rw [request_eq h.pic1.stage h.isr1, hfirst]

end Serve

end Pic
end UefiBoot
