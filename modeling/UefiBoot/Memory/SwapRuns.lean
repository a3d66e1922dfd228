import UefiBoot.Lib.Run
import UefiBoot.Memory.FrameSets
import UefiBoot.Memory.Swap

/-!
# `Memory.SwapRuns` — a page that was swapped out comes back

A run mixes `SwapOut` and `SwapIn` of any slots with what others do: allocations, frees of frames that are not
in a slot, and writes of any byte. `Saved` says that a slot still has its frame and the frame its bytes; every
step keeps it that spares the frame (`Saved.step`), so it lasts from a `SwapOut` to the `SwapIn` of its slot.

Addresses are not checked. `roundTrip` therefore says which copies overlap: the page swapped out must not run
into the frame it is copied to, the destination must not start inside the backing frame, and only frames that
the destination does not touch keep their bytes. Pages at multiples of the page size meet the first two
(`forward_of_aligned`).
-/

namespace UefiBoot
namespace SwapManager

/-- The swap table and physical memory. -/
structure Run where
  swap : SwapManager
  phys : Physical

inductive Action where
  | swapOut (physical : UInt64)
  | swapIn (slot : UInt32) (destination : UInt64)
  /-- Somebody else calls `AllocateAligned`. -/
  | otherAllocate (pageCount alignmentPages : UInt64)
  /-- Somebody else calls `FreePage`. -/
  | otherFree (address : UInt64)
  /-- Somebody writes a byte. -/
  | write (address : UInt64) (value : UInt8)
  deriving DecidableEq, Repr

namespace Run

/-- The allocator after its `Init`, and the table after its own. -/
def start (m : SwapManager) (pmm : PhysicalMemoryManager) (image : KernelImage) (boot : BootInfo)
    (bytes : Lib.Bytes) : Run :=
  { swap := m.init, phys := { pmm := (pmm.init image boot bytes).2, bytes := bytes } }

/-- The page of the address is in the frame of a used slot, or it is page 0. -/
def Reserved (s : Run) (address : UInt64) : Prop :=
  pageOf address = 0 ∨ ∃ i, (s.swap.mSlots i).used = true ∧ pageOf (s.swap.mSlots i).backing = pageOf address

instance (s : Run) (address : UInt64) : Decidable (Reserved s address) := by
  unfold Reserved
  infer_instance

/-- One call. Others do not free what is not theirs. -/
def step (s : Run) : Action → Run
  | .swapOut physical =>
    { swap := (s.swap.swapOut physical s.phys).2.1, phys := (s.swap.swapOut physical s.phys).2.2 }
  | .swapIn slot destination =>
    { swap := (s.swap.swapIn slot destination s.phys).2.1
      phys := (s.swap.swapIn slot destination s.phys).2.2 }
  | .otherAllocate pageCount alignmentPages =>
    { s with phys := { s.phys with pmm := (s.phys.pmm.allocateAligned pageCount alignmentPages).2 } }
  | .otherFree address => if Reserved s address then s else { s with phys := s.phys.freePage address }
  | .write address value =>
    { s with phys := { s.phys with bytes := Function.update s.phys.bytes address value } }

variable {s : Run}

@[simp] theorem start_swap (m : SwapManager) (pmm : PhysicalMemoryManager) (image : KernelImage) (boot : BootInfo)
    (bytes : Lib.Bytes) : (start m pmm image boot bytes).swap = m.init := rfl

@[simp] theorem start_pmm (m : SwapManager) (pmm : PhysicalMemoryManager) (image : KernelImage) (boot : BootInfo)
    (bytes : Lib.Bytes) : (start m pmm image boot bytes).phys.pmm = (pmm.init image boot bytes).2 := rfl

@[simp] theorem start_bytes (m : SwapManager) (pmm : PhysicalMemoryManager) (image : KernelImage) (boot : BootInfo)
    (bytes : Lib.Bytes) : (start m pmm image boot bytes).phys.bytes = bytes := rfl

theorem step_otherFree {address : UInt64} (h : ¬ Reserved s address) :
    s.step (.otherFree address) = { s with phys := s.phys.freePage address } :=
  if_neg h

theorem step_otherFree_reserved {address : UInt64} (h : Reserved s address) :
    s.step (.otherFree address) = s :=
  if_pos h

/-! ## What the claims say -/

/-- Used slots have distinct frames. -/
def DistinctBackings (s : Run) : Prop :=
  ∀ i q, (s.swap.mSlots i).used = true → (s.swap.mSlots q).used = true →
    (s.swap.mSlots i).backing = (s.swap.mSlots q).backing → i = q

/-- The action leaves slot `i` and its frame alone: it is no `SwapIn` of the slot, and its writes stay out of
    the frame. -/
def Spares (i : Fin kSwapSlotCount) (s : Run) : Action → Prop
  | .swapIn slot destination => slot.toNat ≠ i ∧ PagesApart (s.swap.mSlots i).backing destination
  | .write address _ => 4096 ≤ (address - (s.swap.mSlots i).backing).toNat
  | _ => True

instance (i : Fin kSwapSlotCount) (s : Run) (a : Action) : Decidable (Spares i s a) := by
  unfold Spares
  cases a <;> infer_instance

/-- **What a `SwapIn` of slot `i` in state `t` does**, when the slot was filled from `physical` in state `s`. -/
structure Restores (s t : Run) (i : Fin kSwapSlotCount) (slot : UInt32) (physical destination : UInt64) :
    Prop where
  succeeds : (t.swap.swapIn slot destination t.phys).1 = true
  /-- The destination has the bytes that the page had when it was swapped out. -/
  bytes    : Forward (t.swap.mSlots i).backing physical → Forward destination (t.swap.mSlots i).backing →
    ∀ k < 4096, (t.step (.swapIn slot destination)).phys.bytes (destination + UInt64.ofNat k)
      = s.phys.bytes (physical + UInt64.ofNat k)
  /-- The backing frame is freed, and nothing else. -/
  frees    : t.phys.pmm.isPageFree (pageOf (t.swap.mSlots i).backing) = false ∧
    ∀ page, (t.step (.swapIn slot destination)).phys.pmm.isPageFree page =
      if page = pageOf (t.swap.mSlots i).backing then true else t.phys.pmm.isPageFree page
  /-- The slot is empty and the others are as they were. -/
  slots    : ∀ q, (t.step (.swapIn slot destination)).swap.mSlots q =
    if q = i then {} else t.swap.mSlots q
  /-- The frames of the other slots keep their bytes, but for those that the destination overlaps. -/
  others   : ∀ q ≠ i, PagesApart (t.swap.mSlots q).backing destination → ∀ k < 4096,
    (t.step (.swapIn slot destination)).phys.bytes ((t.swap.mSlots q).backing + UInt64.ofNat k)
      = t.phys.bytes ((t.swap.mSlots q).backing + UInt64.ofNat k)

/-! ## The invariant -/

/-- A free of a frame that no slot has. -/
theorem inv_otherFree (h : Inv s.swap s.phys) {address : UInt64} (hres : ¬ Reserved s address) :
    Inv s.swap (s.phys.freePage address) := by
  unfold Reserved at hres
  push Not at hres
  obtain ⟨hzero, hslots⟩ := hres
  obtain ⟨hready, hsound⟩ := PhysicalMemoryManager.sound_freePage h.ready h.sound hzero fun i a hi => by
    obtain ⟨hused, hbacking⟩ := SwapSlot.frame_some hi
    rw [← hbacking]
    exact hslots i hused
  exact ⟨hready, hsound⟩

/-- **Step lemma.** -/
theorem inv_step (h : Inv s.swap s.phys) (a : Action) : Inv (s.step a).swap (s.step a).phys := by
  cases a with
  | swapOut physical =>
      rcases swapOut_effect h.ready s.swap physical with hfail | ⟨i, backing, -, heff⟩
      · show Inv (s.swap.swapOut physical s.phys).2.1 (s.swap.swapOut physical s.phys).2.2
        rw [hfail]
        exact h
      · exact heff.inv h
  | swapIn slot destination =>
      rcases swapIn_effect h slot destination with hfail | ⟨i, -, -, heff⟩
      · show Inv (s.swap.swapIn slot destination s.phys).2.1 (s.swap.swapIn slot destination s.phys).2.2
        rw [hfail]
        exact h
      · exact heff.inv h
  | otherAllocate pageCount alignmentPages =>
      obtain ⟨hready, hsound⟩ := PhysicalMemoryManager.sound_allocateAligned h.ready h.sound pageCount alignmentPages
      exact ⟨hready, hsound⟩
  | otherFree address =>
      by_cases hres : Reserved s address
      · rw [step_otherFree_reserved hres]
        exact h
      · rw [step_otherFree hres]
        exact inv_otherFree h hres
  | write address value => exact ⟨h.ready, h.sound⟩

theorem inv_start (m : SwapManager) (pmm : PhysicalMemoryManager) (image : KernelImage) {boot : BootInfo}
    (bytes : Lib.Bytes) (hb : PhysicalMemoryManager.Accepts boot) :
    Inv (start m pmm image boot bytes).swap (start m pmm image boot bytes).phys :=
  inv_init m (PhysicalMemoryManager.ready_init pmm image bytes hb)

/-- What holds in every state of a run. -/
structure Good (s : Run) : Prop where
  inv             : Inv s.swap s.phys
  mPhysicalMemory : s.swap.mPhysicalMemory = true

theorem Good.step (h : Good s) (a : Action) : Good (s.step a) := by
  refine ⟨inv_step h.inv a, ?_⟩
  cases a with
  | swapOut physical =>
      rcases swapOut_effect h.inv.ready s.swap physical with hfail | ⟨i, backing, -, heff⟩
      · show (s.swap.swapOut physical s.phys).2.1.mPhysicalMemory = true
        rw [hfail]
        exact h.mPhysicalMemory
      · exact heff.mPhysicalMemory.trans h.mPhysicalMemory
  | swapIn slot destination =>
      rcases swapIn_effect h.inv slot destination with hfail | ⟨i, -, -, heff⟩
      · show (s.swap.swapIn slot destination s.phys).2.1.mPhysicalMemory = true
        rw [hfail]
        exact h.mPhysicalMemory
      · exact heff.mPhysicalMemory.trans h.mPhysicalMemory
  | otherAllocate pageCount alignmentPages => exact h.mPhysicalMemory
  | otherFree address =>
      by_cases hres : Reserved s address
      · rw [step_otherFree_reserved hres]
        exact h.mPhysicalMemory
      · rw [step_otherFree hres]
        exact h.mPhysicalMemory
  | write address value => exact h.mPhysicalMemory

theorem good_start (m : SwapManager) (pmm : PhysicalMemoryManager) (image : KernelImage) {boot : BootInfo}
    (bytes : Lib.Bytes) (hb : PhysicalMemoryManager.Accepts boot) : Good (start m pmm image boot bytes) :=
  ⟨inv_start m pmm image bytes hb, rfl⟩

/-! ## From the `SwapOut` to the `SwapIn` -/

/-- Slot `i` has its frame, and the frame its bytes. -/
structure Saved (i : Fin kSwapSlotCount) (backing : UInt64) (content : Nat → UInt8) (s : Run) : Prop where
  slot  : s.swap.mSlots i = ⟨backing, true⟩
  bytes : ∀ k < 4096, s.phys.bytes (backing + UInt64.ofNat k) = content k

section Saved

variable {i : Fin kSwapSlotCount} {backing : UInt64} {content : Nat → UInt8}

/-- A `SwapOut` that succeeds saves a page. -/
theorem saved_out {m : SwapManager} {p : Physical} {physical : UInt64}
    (heff : Effect s.swap s.phys (.out i backing physical) m p) :
    Saved i backing (fun k => p.bytes (backing + UInt64.ofNat k)) ⟨m, p⟩ := by
  cases heff with
  | out i backing physical hslot hgrants hbytes =>
      constructor
      · rw [setSlot_apply, if_pos rfl]
      · intro k hk
        rfl

/-- What it saves is the page at `physical`, unless the page runs into the frame. -/
theorem content_out {m : SwapManager} {p : Physical} {physical : UInt64}
    (heff : Effect s.swap s.phys (.out i backing physical) m p) (hfwd : Forward backing physical) {k : Nat}
    (hk : k < 4096) : p.bytes (backing + UInt64.ofNat k) = s.phys.bytes (physical + UInt64.ofNat k) := by
  cases heff with
  | out i backing physical hslot hgrants hbytes =>
      rw [hbytes]
      exact Physical.copyPage_byte hfwd hk

/-- **Step lemma.** What spares slot `i` keeps what it saved. -/
theorem Saved.step (hs : Saved i backing content s) (h : Inv s.swap s.phys) {a : Action} (hspare : Spares i s a) :
    Saved i backing content (s.step a) := by
  have hused : (s.swap.mSlots i).used = true := by rw [hs.slot]
  have hbacking : (s.swap.mSlots i).backing = backing := by rw [hs.slot]
  have htaken : s.phys.pmm.Taken backing := hbacking ▸ h.taken hused
  -- a change to another slot, and bytes written apart from the frame
  have hother : ∀ {j : Fin kSwapSlotCount} {slot : SwapSlot} {p : Physical} {dst src : UInt64}, i ≠ j →
      PagesApart backing dst → p.bytes = s.phys.bytes.copy dst src kPageSize.toNat →
      Saved i backing content ⟨s.swap.setSlot j slot, p⟩ := by
    intro j slot p dst src hij hapart hbytes
    constructor
    · rw [setSlot_apply, if_neg hij]
      exact hs.slot
    · intro k hk
      dsimp only
      rw [hbytes, Physical.copyPage_apart hapart hk]
      exact hs.bytes k hk
  cases a with
  | swapOut physical =>
      rcases swapOut_effect h.ready s.swap physical with hfail | ⟨j, fresh, -, heff⟩
      · show Saved i backing content ⟨(s.swap.swapOut physical s.phys).2.1, (s.swap.swapOut physical s.phys).2.2⟩
        rw [hfail]
        exact hs
      · show Saved i backing content ⟨(s.swap.swapOut physical s.phys).2.1, (s.swap.swapOut physical s.phys).2.2⟩
        generalize (s.swap.swapOut physical s.phys).2.1 = m at heff ⊢
        generalize (s.swap.swapOut physical s.phys).2.2 = p at heff ⊢
        cases heff with
        | out j fresh physical hslot hgrants hbytes =>
            have hij : i ≠ j := by
              rintro rfl
              rw [hused] at hslot
              exact absurd hslot (by simp)
            have hne : backing ≠ fresh := by
              rintro rfl
              exact hgrants.not_taken htaken
            exact hother hij (htaken.1.apart hgrants.isFrame hne) hbytes
  | swapIn slot destination =>
      rcases swapIn_effect h slot destination with hfail | ⟨j, hj, -, heff⟩
      · show Saved i backing content
          ⟨(s.swap.swapIn slot destination s.phys).2.1, (s.swap.swapIn slot destination s.phys).2.2⟩
        rw [hfail]
        exact hs
      · show Saved i backing content
          ⟨(s.swap.swapIn slot destination s.phys).2.1, (s.swap.swapIn slot destination s.phys).2.2⟩
        generalize (s.swap.swapIn slot destination s.phys).2.1 = m at heff ⊢
        generalize (s.swap.swapIn slot destination s.phys).2.2 = p at heff ⊢
        obtain ⟨hslot, hapart⟩ := hspare
        cases heff with
        | back j destination hslot' hreturns hbytes =>
            have hij : i ≠ j := by
              rintro rfl
              exact hslot hj
            exact hother hij (hbacking ▸ hapart) hbytes
  | otherAllocate pageCount alignmentPages => exact ⟨hs.slot, hs.bytes⟩
  | otherFree address =>
      by_cases hres : Reserved s address
      · rw [step_otherFree_reserved hres]
        exact hs
      · rw [step_otherFree hres]
        exact ⟨hs.slot, hs.bytes⟩
  | write address value =>
      refine ⟨hs.slot, fun k hk => ?_⟩
      have hfar : 4096 ≤ (address - backing).toNat := hbacking ▸ hspare
      show Function.update s.phys.bytes address value (backing + UInt64.ofNat k) = content k
      rw [Function.update_of_ne]
      · exact hs.bytes k hk
      · intro heq
        rw [← heq, Lib.Bytes.offset_ofNat (by omega)] at hfar
        omega

/-- **Run lemma.** It lasts as long as the slot is spared. -/
theorem Saved.run (hs : Saved i backing content s) (h : Good s) {as : List Action}
    (hspare : Lib.Along Run.step (Spares i) s as) :
    Saved i backing content (Lib.run Run.step s as) ∧ Good (Lib.run Run.step s as) := by
  apply Lib.run_invariant_along (I := fun s => Saved i backing content s ∧ Good s) _ ⟨hs, h⟩ hspare
  intro s a hgood hspare
  exact ⟨hgood.1.step hgood.2.inv hspare, hgood.2.step a⟩

/-- A `SwapIn` gives back what the slot saved. -/
theorem Saved.restores {t : Run} {physical : UInt64}
    (hs : Saved i backing content t) (h : Good t)
    (hcontent : Forward backing physical → ∀ k < 4096, content k = s.phys.bytes (physical + UInt64.ofNat k))
    {slot : UInt32} (hslot : slot.toNat = i) {destination : UInt64} (hnz : destination ≠ 0) :
    Restores s t i slot physical destination := by
  have hused : (t.swap.mSlots i).used = true := by rw [hs.slot]
  have hbacking : (t.swap.mSlots i).backing = backing := by rw [hs.slot]
  have hok := swapIn_used h.mPhysicalMemory hslot hused hnz t.phys
  rcases swapIn_effect h.inv slot destination with hfail | ⟨j, hj, -, heff⟩
  · rw [hfail] at hok
    exact absurd hok (by simp)
  · obtain rfl : j = i := Fin.ext (hj.symm.trans hslot)
    have htaken := h.inv.taken hused
    have hstep : t.step (.swapIn slot destination) =
        ⟨(t.swap.swapIn slot destination t.phys).2.1, (t.swap.swapIn slot destination t.phys).2.2⟩ := rfl
    generalize (t.swap.swapIn slot destination t.phys).2.1 = m at hstep heff
    generalize (t.swap.swapIn slot destination t.phys).2.2 = p at hstep heff
    cases heff with
    | back j destination hslot' hreturns hbytes =>
        constructor
        · exact hok
        · intro hout hfwd k hk
          rw [hstep]
          dsimp only
          rw [hbytes, Physical.copyPage_byte hfwd hk, hbacking, hs.bytes k hk]
          exact hcontent (hbacking ▸ hout) k hk
        · rw [hstep]
          exact ⟨htaken.2, hreturns.pages⟩
        · intro q
          rw [hstep]
          exact setSlot_apply ..
        · intro q _ hapart k hk
          rw [hstep]
          dsimp only
          rw [hbytes, Physical.copyPage_apart hapart hk]

end Saved

/-! ## Every run -/

theorem Good.distinct (h : Good s) : DistinctBackings s := fun _ _ hi hq heq => h.inv.backing_inj hi hq heq

/-- The slot that a non-negative answer of `SwapOut` names. -/
theorem toNat_toUInt32_ofNat (i : Fin kSwapSlotCount) : (Int32.ofNat i).toUInt32.toNat = i := by
  revert i
  decide

open PhysicalMemoryManager (smallImage smallBoot smallMap isPageFree_init_low allocatePage_small)

/-- A `SwapOut` with a free slot and a free frame. -/
theorem swapOut_granted (h : Good s) {i : Fin kSwapSlotCount} (hfind : s.swap.findUnused = some i)
    {physical : UInt64} (hnz : physical ≠ 0) (hpage : s.phys.pmm.allocatePage.1 ≠ 0) :
    (s.swap.swapOut physical s.phys).1 = Int32.ofNat i ∧
    (s.step (.swapOut physical)).swap = s.swap.setSlot i ⟨s.phys.pmm.allocatePage.1, true⟩ ∧
    (s.step (.swapOut physical)).phys.pmm = s.phys.pmm.allocatePage.2 ∧
    Effect s.swap s.phys (.out i s.phys.pmm.allocatePage.1 physical)
      (s.step (.swapOut physical)).swap (s.step (.swapOut physical)).phys := by
  have hgrants := PhysicalMemoryManager.allocatePage_grants h.inv.ready hpage
  have heq : s.swap.swapOut physical s.phys = (Int32.ofNat i, s.swap.setSlot i ⟨s.phys.pmm.allocatePage.1, true⟩,
      ⟨s.phys.pmm.allocatePage.2, s.phys.bytes.copy s.phys.pmm.allocatePage.1 physical kPageSize.toNat⟩) := by
    unfold swapOut
    rw [if_neg (by simp [h.mPhysicalMemory, hnz]), hfind]
    exact if_neg hpage
  have hstep : s.step (.swapOut physical) =
      ⟨(s.swap.swapOut physical s.phys).2.1, (s.swap.swapOut physical s.phys).2.2⟩ := rfl
  rw [hstep, heq]
  exact ⟨rfl, rfl, rfl, .out i _ physical (findUnused_some hfind) hgrants rfl⟩

/-- Two pages are swapped out into slots 0 and 1. Then slot 0 is swapped in to the frame of slot 1. -/
theorem swapIn_overwrites_of (hs : Good s) (hempty : s.swap = SwapManager.init {}) {p q : UInt64} (hp : p ≠ 0)
    (hq : q ≠ 0) (hpage : s.phys.pmm.allocatePage.1 ≠ 0) (hpage' : s.phys.pmm.allocatePage.2.allocatePage.1 ≠ 0)
    (haligned : p.toNat % 4096 = 0) (htaken : s.phys.pmm.Taken q) :
    let t := Lib.run step s [.swapOut p, .swapOut q]
    (s.swap.swapOut p s.phys).1 = 0 ∧ (t.swap.mSlots 0).used = true ∧ (t.swap.mSlots 1).used = true ∧
    (t.swap.swapIn 0 (t.swap.mSlots 1).backing t.phys).1 = true ∧
    t.phys.bytes (t.swap.mSlots 1).backing = s.phys.bytes q ∧
    (t.step (.swapIn 0 (t.swap.mSlots 1).backing)).phys.bytes (t.swap.mSlots 1).backing = s.phys.bytes p := by
  have hgrants := PhysicalMemoryManager.allocatePage_grants hs.inv.ready hpage
  -- the first call takes slot 0
  have hfind : s.swap.findUnused = some 0 := by
    apply Lib.firstSlot_eq_some_iff.mpr
    rw [hempty]
    exact ⟨rfl, fun j hj => absurd hj (Fin.not_lt_zero j)⟩
  obtain ⟨hanswer, hswap₁, hpmm₁, heff₁⟩ := swapOut_granted hs hfind hp hpage
  have hsaved₁ := saved_out heff₁
  have hgood₁ := hs.step (.swapOut p)
  generalize hs₁ : s.step (.swapOut p) = s₁ at hswap₁ hpmm₁ heff₁ hsaved₁ hgood₁
  -- the second takes slot 1
  have hfind₁ : s₁.swap.findUnused = some 1 := by
    apply Lib.firstSlot_eq_some_iff.mpr
    rw [hswap₁, hempty]
    refine ⟨rfl, fun j hj => ?_⟩
    have hj0 : j = 0 := by
      apply Fin.ext
      have hj1 : j.val < 1 := hj
      show j.val = 0
      omega
    rw [hj0, setSlot_apply, if_pos rfl]
    rfl
  rw [← hpmm₁] at hpage'
  obtain ⟨-, hswap₂, hpmm₂, heff₂⟩ := swapOut_granted hgood₁ hfind₁ hq hpage'
  have hgrants₂ := PhysicalMemoryManager.allocatePage_grants hgood₁.inv.ready hpage'
  have hsaved₂ := saved_out heff₂
  have hgood₂ := hgood₁.step (.swapOut q)
  have hkept : Saved 0 _ _ (s₁.step (.swapOut q)) := hsaved₁.step hgood₁.inv trivial
  show (s.swap.swapOut p s.phys).1 = 0 ∧ _
  rw [Lib.run_cons, hs₁, Lib.run_cons, Lib.run_nil]
  rw [← hpmm₁] at hgrants
  generalize s₁.step (.swapOut q) = t at hsaved₂ hgood₂ hkept heff₂ hgrants₂ hpmm₂ ⊢
  generalize s.phys.pmm.allocatePage.1 = a at hgrants heff₁ hkept
  generalize s₁.phys.pmm.allocatePage.1 = b at hgrants₂ heff₂ hsaved₂
  have hhead : ∀ x : UInt64, x + UInt64.ofNat 0 = x := fun x => UInt64.add_zero x
  have hqa : q ≠ a := by
    rintro rfl
    exact hgrants.not_taken htaken
  -- the second page is untouched by the first copy, so slot 1 saves it
  have hsecond : t.phys.bytes b = s.phys.bytes q := by
    have hcontent := content_out heff₂ (forward_of_aligned hgrants₂.isFrame.1 htaken.1.1) (by omega : 0 < 4096)
    have hapart : s₁.phys.bytes q = s.phys.bytes q := by
      have hcopy : s.phys.bytes.copy a p kPageSize.toNat (q + UInt64.ofNat 0) = s.phys.bytes (q + UInt64.ofNat 0) :=
        Physical.copyPage_apart (htaken.1.apart hgrants.isFrame hqa) (by omega)
      rw [hhead] at hcopy
      rw [heff₁.out_bytes, hcopy]
    rw [hhead, hhead] at hcontent
    rw [hcontent, hapart]
  have hslot : (0 : UInt32).toNat = (0 : Fin kSwapSlotCount) := rfl
  have hrestores := hkept.restores hgood₂ (fun hfwd _ hk => content_out heff₁ hfwd hk) hslot hgrants₂.nonzero
  have hfirst := hrestores.bytes ?_ ?_ 0 (by omega)
  · rw [hhead, hhead] at hfirst
    rw [hkept.slot, hsaved₂.slot]
    exact ⟨hanswer, rfl, rfl, hrestores.succeeds, hsecond, hfirst⟩
  · rw [hkept.slot]
    exact forward_of_aligned hgrants.isFrame.1 haligned
  · rw [hkept.slot]
    exact forward_of_aligned hgrants₂.isFrame.1 hgrants.isFrame.1

end Run
end SwapManager
end UefiBoot
