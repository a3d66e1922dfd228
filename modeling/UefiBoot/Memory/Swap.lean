import UefiBoot.Lib.Select
import UefiBoot.Memory.Frames

/-!
# `Memory.Swap` — `SwapManager`, frames that keep copies of pages

`SwapOut` copies the page at an address into a fresh frame and answers the slot that records it; `SwapIn`
copies the frame to a destination, frees it and empties the slot. As for the other managers, `Effect` lists
once what an operation can do, and everything is read off it.

Neither address is checked against the frames of the slots: what the copies do when they overlap a frame is
the matter of `Memory.SwapRuns`.
-/

namespace UefiBoot

/-- `SwapManager::Slot`. -/
structure SwapSlot where
  backing : UInt64 := 0
  used    : Bool := false
  deriving DecidableEq, Repr

namespace SwapSlot

/-- The frame of a slot. -/
def frame (slot : SwapSlot) : Option UInt64 := if slot.used then some slot.backing else none

theorem frame_used {slot : SwapSlot} (h : slot.used = true) : slot.frame = some slot.backing := if_pos h

theorem frame_some {slot : SwapSlot} {a : UInt64} (h : slot.frame = some a) :
    slot.used = true ∧ slot.backing = a := by
  unfold frame at h
  split at h
  · rename_i hused
    exact ⟨hused, Option.some.inj h⟩
  · exact absurd h (by simp)

end SwapSlot

structure SwapManager where
  mPhysicalMemory : Bool := false
  mSlots          : Fin kSwapSlotCount → SwapSlot := fun _ => {}

namespace SwapManager

def init (_m : SwapManager) : SwapManager := { mPhysicalMemory := true, mSlots := fun _ => {} }

/-- Write one slot of the table. -/
@[simps] def setSlot (m : SwapManager) (i : Fin kSwapSlotCount) (slot : SwapSlot) : SwapManager :=
  { m with mSlots := Function.update m.mSlots i slot }

theorem setSlot_apply (m : SwapManager) (i q : Fin kSwapSlotCount) (slot : SwapSlot) :
    (m.setSlot i slot).mSlots q = if q = i then slot else m.mSlots q := Function.update_apply ..

/-- The loop of `SwapOut`, up to the slot it takes. -/
def findUnused (m : SwapManager) : Option (Fin kSwapSlotCount) := Lib.firstSlot fun i => !(m.mSlots i).used

/-- The answer is a slot, or `-1`. -/
def swapOut (m : SwapManager) (physical : UInt64) (p : Physical) : Int32 × SwapManager × Physical :=
  if !m.mPhysicalMemory ∨ physical = 0 then (-1, m, p)
  else
    match m.findUnused with
    | none   => (-1, m, p)
    | some i =>
      let (backing, p) := p.allocatePage
      if backing = 0 then (-1, m, p)
      else (Int32.ofNat i, m.setSlot i { backing, used := true }, p.copyPage backing physical)

def swapIn (m : SwapManager) (slot : UInt32) (destination : UInt64) (p : Physical) :
    Bool × SwapManager × Physical :=
  if !m.mPhysicalMemory then (false, m, p)
  else if hslot : slot.toNat < kSwapSlotCount then
    let i : Fin kSwapSlotCount := ⟨slot.toNat, hslot⟩
    if !(m.mSlots i).used ∨ destination = 0 then (false, m, p)
    else
      (true, m.setSlot i {},
        (p.copyPage destination (m.mSlots i).backing).freePage (m.mSlots i).backing)
  else (false, m, p)

/-! ## What an operation can do -/

variable {m m' : SwapManager} {p p' : Physical} {i q : Fin kSwapSlotCount}

theorem findUnused_some (h : m.findUnused = some i) : (m.mSlots i).used = false := by
  simpa using Lib.firstSlot_true h

/-- The frames of the slots, over the frames the allocator has handed out. -/
def ledger (m : SwapManager) (p : Physical) : Lib.Ledger (Fin kSwapSlotCount) UInt64 :=
  frameLedger SwapSlot.frame m.mSlots p.pmm

/-- The table and the allocator fit together. -/
structure Inv (m : SwapManager) (p : Physical) : Prop where
  ready : p.pmm.Ready
  sound : (m.ledger p).Sound 0

/-- What an operation did. -/
inductive Change where
  | out (i : Fin kSwapSlotCount) (backing physical : UInt64)
  | back (i : Fin kSwapSlotCount) (destination : UInt64)
  deriving DecidableEq, Repr

/-- **Everything an operation can do to the table and to memory**, when it does something. -/
inductive Effect (m : SwapManager) (p : Physical) : Change → SwapManager → Physical → Prop
  | out {p' : Physical} (i : Fin kSwapSlotCount) (backing physical : UInt64)
      (hslot : (m.mSlots i).used = false) (hgrants : p.pmm.Grants p'.pmm backing)
      (hbytes : p'.bytes = p.bytes.copy backing physical kPageSize.toNat) :
      Effect m p (.out i backing physical) (m.setSlot i ⟨backing, true⟩) p'
  | back {p' : Physical} (i : Fin kSwapSlotCount) (destination : UInt64)
      (hslot : (m.mSlots i).used = true) (hreturns : p.pmm.Returns p'.pmm (m.mSlots i).backing)
      (hbytes : p'.bytes = p.bytes.copy destination (m.mSlots i).backing kPageSize.toNat) :
      Effect m p (.back i destination) (m.setSlot i {}) p'

theorem swapOut_effect (hready : p.pmm.Ready) (m : SwapManager) (physical : UInt64) :
    m.swapOut physical p = (-1, m, p) ∨
    ∃ (i : Fin kSwapSlotCount) (backing : UInt64), (m.swapOut physical p).1 = Int32.ofNat i ∧
      Effect m p (.out i backing physical) (m.swapOut physical p).2.1 (m.swapOut physical p).2.2 := by
  unfold swapOut
  by_cases hbad : !m.mPhysicalMemory ∨ physical = 0
  · exact Or.inl (if_pos hbad)
  · rw [if_neg hbad]
    cases hfind : m.findUnused with
    | none => exact Or.inl rfl
    | some i =>
        dsimp only
        by_cases hz : p.allocatePage.1 = 0
        · rw [if_pos hz, Physical.allocatePage_failed hready hz]
          exact Or.inl rfl
        · rw [if_neg hz]
          refine Or.inr ⟨i, p.allocatePage.1, rfl, ?_⟩
          exact .out i _ physical (findUnused_some hfind) (Physical.allocatePage_grants hready hz) rfl

theorem swapIn_effect (h : Inv m p) (slot : UInt32) (destination : UInt64) :
    m.swapIn slot destination p = (false, m, p) ∨
    ∃ i : Fin kSwapSlotCount, slot.toNat = i ∧ (m.swapIn slot destination p).1 = true ∧
      Effect m p (.back i destination) (m.swapIn slot destination p).2.1 (m.swapIn slot destination p).2.2 := by
  unfold swapIn
  by_cases hbad : !m.mPhysicalMemory
  · exact Or.inl (if_pos hbad)
  · rw [if_neg hbad]
    by_cases hslot : slot.toNat < kSwapSlotCount
    · rw [dif_pos hslot]
      dsimp only
      by_cases hno : !(m.mSlots ⟨slot.toNat, hslot⟩).used ∨ destination = 0
      · exact Or.inl (if_pos hno)
      · rw [if_neg hno]
        have hused : (m.mSlots ⟨slot.toNat, hslot⟩).used = true := by
          by_contra hunused
          exact hno (Or.inl (by simpa using hunused))
        have hholds : (m.ledger p).holds ⟨slot.toNat, hslot⟩ = some _ := SwapSlot.frame_used hused
        have hreturns := PhysicalMemoryManager.freePage_returns h.ready (h.sound.taken hholds).1
          (h.sound.unheld hholds)
        exact Or.inr ⟨⟨slot.toNat, hslot⟩, rfl, rfl, .back _ destination hused hreturns rfl⟩
    · rw [dif_neg hslot]
      exact Or.inl rfl

/-- A used slot and a destination make `SwapIn` succeed. -/
theorem swapIn_used (hpmm : m.mPhysicalMemory = true) {slot : UInt32} (hslot : slot.toNat = i)
    (hused : (m.mSlots i).used = true) {destination : UInt64} (hnz : destination ≠ 0) (p : Physical) :
    (m.swapIn slot destination p).1 = true := by
  have hin : slot.toNat < kSwapSlotCount := hslot ▸ i.isLt
  have hi : (⟨slot.toNat, hin⟩ : Fin kSwapSlotCount) = i := Fin.ext hslot
  unfold swapIn
  rw [if_neg (by simp [hpmm]), dif_pos hin]
  dsimp only
  rw [hi, if_neg (by simp [hused, hnz])]

/-! ## What an effect keeps -/

section Effect

variable {change : Change}

theorem Effect.ready (he : Effect m p change m' p') : p'.pmm.Ready := by
  cases he with
  | out i backing physical hslot hgrants hbytes => exact hgrants.ready
  | back i destination hslot hreturns hbytes => exact hreturns.ready

/-- **An effect moves frames as grants and revokes.** -/
theorem Effect.steps (he : Effect m p change m' p') (hs : (m.ledger p).Sound 0) :
    Lib.Ledger.Steps (m.ledger p) (m'.ledger p') := by
  cases he with
  | out i backing physical hslot hgrants hbytes => exact frameLedger_grants hgrants rfl
  | back i destination hslot hreturns hbytes =>
      exact frameLedger_returns hs hreturns (SwapSlot.frame_used hslot) rfl

/-- **Step lemma.** -/
theorem Effect.inv (he : Effect m p change m' p') (h : Inv m p) : Inv m' p' :=
  ⟨he.ready, (he.steps h.sound).sound h.sound⟩

theorem Effect.out_bytes {backing physical : UInt64} (he : Effect m p (.out i backing physical) m' p') :
    p'.bytes = p.bytes.copy backing physical kPageSize.toNat := by
  cases he with
  | out i backing physical hslot hgrants hbytes => exact hbytes

theorem Effect.mPhysicalMemory (he : Effect m p change m' p') : m'.mPhysicalMemory = m.mPhysicalMemory := by
  cases he <;> rfl

end Effect

theorem inv_init (m : SwapManager) {p : Physical} (h : p.pmm.Ready) : Inv m.init p :=
  ⟨h, frameLedger_empty (fun _ => rfl) h⟩

/-- Used slots have distinct frames. -/
theorem Inv.backing_inj (h : Inv m p) (hi : (m.mSlots i).used = true) (hq : (m.mSlots q).used = true)
    (heq : (m.mSlots i).backing = (m.mSlots q).backing) : i = q := by
  have hheld : (m.ledger p).holds q = some (m.mSlots i).backing := by
    rw [heq]
    exact SwapSlot.frame_used hq
  exact h.sound.unique (SwapSlot.frame_used hi : (m.ledger p).holds i = _) hheld

theorem Inv.taken (h : Inv m p) (hi : (m.mSlots i).used = true) : p.pmm.Taken (m.mSlots i).backing :=
  h.sound.taken (SwapSlot.frame_used hi : (m.ledger p).holds i = _)

end SwapManager
end UefiBoot
