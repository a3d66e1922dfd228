import UefiBoot.Lib.Issue
import UefiBoot.Lib.Run
import UefiBoot.Memory.SharedMemory

/-!
# `Memory.SharedRuns` — atomicity and lifetime of shared segments over whole runs

A run mixes `Create`, `Attach` and `Release` with allocations by others and with frees of frames that no segment
has. `Guarantee` says what every step does to the frames of the segments, whatever the run: a frame goes back
to the allocator at the `Release` that drops the last reference and at no other step.

Identifiers come from a 64-bit counter that starts at 1, and `Create` answers 0 when it fails. `atomic` is
about the runs that create no segment once the counter has come round to 0; `create_wraps` is what happens
when one is.
-/

namespace UefiBoot
namespace SharedMemoryManager

/-- The table and physical memory. -/
structure Run where
  shared : SharedMemoryManager
  phys   : Physical

inductive Action where
  | create (pageCount : UInt64)
  | attach (id : UInt64)
  | release (id : UInt64)
  /-- Somebody else calls `AllocateAligned`. -/
  | otherAllocate (pageCount alignmentPages : UInt64)
  /-- Somebody else calls `FreePage`. -/
  | otherFree (address : UInt64)
  deriving DecidableEq, Repr

namespace Run

/-- The allocator after its `Init`, and the table after its own. -/
def start (m : SharedMemoryManager) (pmm : PhysicalMemoryManager) (image : KernelImage) (boot : BootInfo)
    (bytes : Lib.Bytes) : Run :=
  { shared := m.init, phys := { pmm := (pmm.init image boot bytes).2, bytes := bytes } }

@[simp] theorem start_shared (m : SharedMemoryManager) (pmm : PhysicalMemoryManager) (image : KernelImage)
    (boot : BootInfo) (bytes : Lib.Bytes) : (start m pmm image boot bytes).shared = m.init := rfl

@[simp] theorem start_pmm (m : SharedMemoryManager) (pmm : PhysicalMemoryManager) (image : KernelImage)
    (boot : BootInfo) (bytes : Lib.Bytes) :
    (start m pmm image boot bytes).phys.pmm = (pmm.init image boot bytes).2 := rfl

/-- The page of the address is in a frame of a segment, or it is page 0. -/
def Reserved (s : Run) (address : UInt64) : Prop :=
  pageOf address = 0 ∨
    ∃ i k, (s.shared.mSegments i).pages k ≠ 0 ∧ pageOf ((s.shared.mSegments i).pages k) = pageOf address

instance (s : Run) (address : UInt64) : Decidable (Reserved s address) := by
  unfold Reserved
  infer_instance

/-- One call. Others do not free what is not theirs. -/
def step (s : Run) : Action → Run
  | .create pageCount =>
    { shared := (s.shared.create pageCount s.phys).2.1, phys := (s.shared.create pageCount s.phys).2.2 }
  | .attach id => { s with shared := (s.shared.attach id).2 }
  | .release id => { shared := (s.shared.release id s.phys).1, phys := (s.shared.release id s.phys).2 }
  | .otherAllocate pageCount alignmentPages =>
    { s with phys := { s.phys with pmm := (s.phys.pmm.allocateAligned pageCount alignmentPages).2 } }
  | .otherFree address => if Reserved s address then s else { s with phys := s.phys.freePage address }

variable {s : Run}

theorem step_otherFree {address : UInt64} (h : ¬ Reserved s address) :
    s.step (.otherFree address) = { s with phys := s.phys.freePage address } :=
  if_neg h

theorem step_otherFree_reserved {address : UInt64} (h : Reserved s address) :
    s.step (.otherFree address) = s :=
  if_pos h

/-! ## What the claims say -/

/-- Active segments have identifiers of their own, none of them 0. -/
structure IdsDistinct (s : Run) : Prop where
  nonzero  : ∀ i, (s.shared.mSegments i).active = true → (s.shared.mSegments i).id ≠ 0
  distinct : ∀ i q, (s.shared.mSegments i).active = true → (s.shared.mSegments q).active = true →
    (s.shared.mSegments i).id = (s.shared.mSegments q).id → i = q

/-- **A `Create` that answers 0 has changed nothing** but the counter of identifiers. -/
def CreateAtomic (s : Run) : Prop :=
  ∀ pageCount, (s.shared.create pageCount s.phys).1 = 0 →
    (s.shared.create pageCount s.phys).2.2.pmm = s.phys.pmm ∧
    (s.shared.create pageCount s.phys).2.1.mSegments = s.shared.mSegments

/-- The call is the `Release` of the last reference to segment `i`. -/
def DropsLast (s : Run) (a : Action) (i : Fin kSharedSegmentCount) : Prop :=
  ∃ id, a = .release id ∧ s.shared.findSegment id = some i ∧ (s.shared.mSegments i).references = 1

/-- **What one step does to the frames of the segments.** -/
structure Guarantee (s : Run) (a : Action) : Prop where
  /-- A frame of a segment is in use, and it becomes free exactly when the last reference is dropped. -/
  freed : ∀ i k b, (s.shared.mSegments i).frame k = some b →
    s.phys.pmm.isPageFree (pageOf b) = false ∧
    ((s.step a).phys.pmm.isPageFree (pageOf b) = true ↔ DropsLast s a i)
  /-- Until then the segment has it. -/
  kept  : ∀ i k b, (s.shared.mSegments i).frame k = some b → ¬ DropsLast s a i →
    ((s.step a).shared.mSegments i).frame k = some b
  /-- The last `Release` frees each frame once, and the segment has none any more. -/
  once  : ∀ i, DropsLast s a i →
    (s.shared.mSegments i).frames.Nodup ∧
    (s.step a).phys.pmm = s.phys.pmm.freePages (s.shared.mSegments i).frames ∧
    (s.step a).shared.mSegments i = {}

/-- The counter has not come round to 0 when a segment is created. -/
def NotWrapped (s : Run) : Action → Prop
  | .create _ => s.shared.mNextId ≠ 0
  | _ => True

/-! ## One step -/

theorem mem_reserved {address : UInt64} (h : ¬ Reserved s address) :
    pageOf address ≠ 0 ∧ ∀ q b, (s.shared.ledger s.phys).holds q = some b → pageOf b ≠ pageOf address := by
  unfold Reserved at h
  push Not at h
  refine ⟨h.1, fun q b hq => ?_⟩
  obtain ⟨rfl, hnz⟩ := SharedSegment.frame_some hq
  exact h.2 q.1 q.2 hnz

/-- **Step lemma.** -/
theorem inv_step (h : Inv s.shared s.phys) (a : Action) : Inv (s.step a).shared (s.step a).phys := by
  cases a with
  | create pageCount =>
      rcases create_effect h pageCount with hfail | ⟨-, heff⟩ | ⟨i, -, heff⟩
      · show Inv (s.shared.create pageCount s.phys).2.1 (s.shared.create pageCount s.phys).2.2
        rw [hfail]
        exact h
      · exact heff.inv h
      · exact heff.inv h
  | attach id =>
      rcases attach_effect s.shared s.phys id with hfail | ⟨i, -, -, heff⟩
      · show Inv (s.shared.attach id).2 s.phys
        rw [hfail]
        exact h
      · exact heff.inv h
  | release id =>
      rcases release_effect h id with ⟨-, hfail⟩ | ⟨i, -, ⟨-, heff⟩ | ⟨-, heff⟩⟩
      · show Inv (s.shared.release id s.phys).1 (s.shared.release id s.phys).2
        rw [hfail]
        exact h
      · exact heff.inv h
      · exact heff.inv h
  | otherAllocate pageCount alignmentPages =>
      obtain ⟨hready, hsound⟩ := PhysicalMemoryManager.sound_allocateAligned h.ready h.sound pageCount alignmentPages
      exact ⟨hready, hsound, h.idle, h.whole⟩
  | otherFree address =>
      by_cases hres : Reserved s address
      · rw [step_otherFree_reserved hres]
        exact h
      · rw [step_otherFree hres]
        obtain ⟨hzero, hother⟩ := mem_reserved hres
        obtain ⟨hready, hsound⟩ := PhysicalMemoryManager.sound_freePage h.ready h.sound hzero hother
        exact ⟨hready, hsound, h.idle, h.whole⟩

/-- An effect that is not the end of a segment gives the guarantee. -/
theorem guarantee_of_effect (h : Inv s.shared s.phys) {a : Action} {change : Change}
    (heff : Effect s.shared s.phys change (s.step a).shared (s.step a).phys)
    (hdrops : ∀ i, DropsLast s a i ↔ change = .destroyed i) : Guarantee s a := by
  constructor
  · intro i k b hframe
    have hheld : (s.shared.ledger s.phys).holds (i, k) = some b := hframe
    refine ⟨(h.sound.taken hheld).2, ?_⟩
    rw [heff.freed h hframe, hdrops]
  · intro i k b hframe hnot
    exact heff.kept h hframe fun hchange => hnot ((hdrops i).mpr hchange)
  · intro i hdrop
    obtain rfl := (hdrops i).mp hdrop
    obtain ⟨htable, hpmm, -⟩ := heff.of_destroyed
    refine ⟨h.nodup_frames i, hpmm, ?_⟩
    rw [htable, setSegment_apply, if_pos rfl]

/-- A step that leaves the table alone and frees no frame of a segment gives the guarantee. -/
theorem guarantee_of_frame (h : Inv s.shared s.phys) {a : Action} (htable : (s.step a).shared = s.shared)
    (hused : ∀ q b, (s.shared.ledger s.phys).holds q = some b → (s.step a).phys.pmm.isPageFree (pageOf b) = false)
    (hdrops : ∀ i, ¬ DropsLast s a i) : Guarantee s a := by
  constructor
  · intro i k b hframe
    have hheld : (s.shared.ledger s.phys).holds (i, k) = some b := hframe
    refine ⟨(h.sound.taken hheld).2, ?_⟩
    rw [hused _ b hheld]
    simp [hdrops i]
  · intro i k b hframe _
    rw [htable]
    exact hframe
  · intro i hdrop
    exact absurd hdrop (hdrops i)

/-- So does a step that leaves everything alone. -/
theorem guarantee_of_same (h : Inv s.shared s.phys) {a : Action} (hstep : s.step a = s)
    (hdrops : ∀ i, ¬ DropsLast s a i) : Guarantee s a := by
  apply guarantee_of_frame h _ _ hdrops
  · rw [hstep]
  · intro q b hq
    rw [hstep]
    exact (h.sound.taken hq).2

/-- **Every step gives its guarantee.** -/
theorem guarantee (h : Inv s.shared s.phys) (a : Action) : Guarantee s a := by
  cases a with
  | create pageCount =>
      have hdrops : ∀ i, ¬ DropsLast s (.create pageCount) i := by
        rintro i ⟨id, hid, -⟩
        exact absurd hid (by simp)
      rcases create_effect h pageCount with hfail | ⟨-, heff⟩ | ⟨i, -, heff⟩
      · apply guarantee_of_same h _ hdrops
        show (⟨(s.shared.create pageCount s.phys).2.1, (s.shared.create pageCount s.phys).2.2⟩ : Run) = s
        rw [hfail]
      · apply guarantee_of_effect h heff
        intro j
        simp [hdrops j]
      · apply guarantee_of_effect h heff
        intro j
        simp [hdrops j]
  | attach id =>
      have hdrops : ∀ i, ¬ DropsLast s (.attach id) i := by
        rintro i ⟨id, hid, -⟩
        exact absurd hid (by simp)
      rcases attach_effect s.shared s.phys id with hfail | ⟨i, -, -, heff⟩
      · apply guarantee_of_same h _ hdrops
        show ({ s with shared := (s.shared.attach id).2 } : Run) = s
        rw [hfail]
      · apply guarantee_of_effect h heff
        intro j
        simp [hdrops j]
  | release id =>
      have hfound : ∀ i, DropsLast s (.release id) i →
          s.shared.findSegment id = some i ∧ (s.shared.mSegments i).references = 1 := by
        rintro i ⟨id', hid, hfind⟩
        obtain rfl := Action.release.inj hid
        exact hfind
      rcases release_effect h id with ⟨hnone, hfail⟩ | ⟨i, hfind, ⟨hshared, heff⟩ | ⟨hone, heff⟩⟩
      · apply guarantee_of_same h
        · show (⟨(s.shared.release id s.phys).1, (s.shared.release id s.phys).2⟩ : Run) = s
          rw [hfail]
        · intro j hdrop
          have hfind := (hfound j hdrop).1
          rw [hnone] at hfind
          exact absurd hfind (by simp)
      · apply guarantee_of_effect h heff
        intro j
        constructor
        · intro hdrop
          obtain ⟨hfind', hone⟩ := hfound j hdrop
          rw [hfind] at hfind'
          rw [← Option.some.inj hfind'] at hone
          exact absurd hone hshared
        · intro hchange
          exact absurd hchange (by simp)
      · apply guarantee_of_effect h heff
        intro j
        constructor
        · intro hdrop
          have hfind' := (hfound j hdrop).1
          rw [hfind] at hfind'
          rw [Option.some.inj hfind']
        · intro hchange
          rw [← Change.destroyed.inj hchange]
          exact ⟨id, rfl, hfind, hone⟩
  | otherAllocate pageCount alignmentPages =>
      apply guarantee_of_frame h rfl
      · intro q b hq
        exact (PhysicalMemoryManager.taken_allocateAligned (h.sound.taken hq) pageCount alignmentPages).2
      · rintro i ⟨id, hid, -⟩
        exact absurd hid (by simp)
  | otherFree address =>
      have hdrops : ∀ i, ¬ DropsLast s (.otherFree address) i := by
        rintro i ⟨id, hid, -⟩
        exact absurd hid (by simp)
      by_cases hres : Reserved s address
      · exact guarantee_of_same h (step_otherFree_reserved hres) hdrops
      · obtain ⟨-, hother⟩ := mem_reserved hres
        apply guarantee_of_frame h _ _ hdrops
        · rw [step_otherFree hres]
        · intro q b hq
          rw [step_otherFree hres]
          show (s.phys.pmm.freePage address).isPageFree (pageOf b) = false
          rw [PhysicalMemoryManager.isPageFree_freePage, if_neg fun hpage => hother q b hq hpage.1]
          exact (h.sound.taken hq).2

/-! ## Identifiers -/

/-- What holds in every state of a run that issues no identifier 0. -/
structure Named (s : Run) : Prop where
  inv : Inv s.shared s.phys
  ids : Lib.Issued (fun i => (s.shared.mSegments i).active = true) (fun i => (s.shared.mSegments i).id)
    s.shared.mNextId

/-- **Effects issue fresh identifiers**, as long as the counter is not 0 when one is issued. -/
theorem Named.effect (h : Named s) {change : Change} {m : SharedMemoryManager} {p : Physical}
    (heff : Effect s.shared s.phys change m p)
    (hnz : change = .failed ∨ (∃ i, change = .created i) → s.shared.mNextId ≠ 0) : Named ⟨m, p⟩ := by
  refine ⟨heff.inv h.inv, ?_⟩
  have hsame : s.shared.mNextId ≠ 0 → s.shared.mNextId ≠ 0 ∧ s.shared.mNextId ≤ s.shared.mNextId :=
    fun hne => ⟨hne, UInt64.le_refl _⟩
  -- a write to a segment that keeps its identifier, or empties it
  have hset : ∀ {i : Fin kSharedSegmentCount} {segment : SharedSegment}, (segment.active = true →
      (s.shared.mSegments i).active = true ∧ segment.id = (s.shared.mSegments i).id) →
      ∀ q, ((s.shared.setSegment i segment).mSegments q).active = true →
        (s.shared.mSegments q).active = true ∧
        ((s.shared.setSegment i segment).mSegments q).id = (s.shared.mSegments q).id := by
    intro i segment hsegment q hq
    rw [setSegment_apply] at hq ⊢
    by_cases hqi : q = i
    · rw [if_pos hqi] at hq ⊢
      rw [hqi]
      exact hsegment hq
    · rw [if_neg hqi] at hq ⊢
      exact ⟨hq, rfl⟩
  cases heff with
  | created i segment hslot hwhole hid hone hgrants =>
      apply h.ids.issue (hnz (Or.inr ⟨i, rfl⟩)) i
      intro q hq
      rw [setSegment_apply] at hq ⊢
      by_cases hqi : q = i
      · rw [if_pos hqi]
        exact Or.inl ⟨hqi, hid⟩
      · rw [if_neg hqi] at hq ⊢
        exact Or.inr ⟨hq, rfl⟩
  | failed hpmm =>
      have hne := hnz (Or.inl rfl)
      refine h.ids.keeps (fun hnext => ⟨hne, ?_⟩) (fun q hq => ⟨hq, rfl⟩)
      exact UInt64.le_of_lt (Lib.lt_add_one hnext)
  | attached i hactive hroom => exact h.ids.keeps hsame (hset fun _ => ⟨hactive, rfl⟩)
  | dropped i hactive hshared => exact h.ids.keeps hsame (hset fun _ => ⟨hactive, rfl⟩)
  | destroyed i hactive hlast hreturns hpmm =>
      exact h.ids.keeps hsame (hset fun hidle => absurd hidle Bool.false_ne_true)

/-- **Step lemma.** -/
theorem Named.step (h : Named s) {a : Action} (hsafe : NotWrapped s a) : Named (s.step a) := by
  have hother : ∀ {change : Change}, ¬ (change = .failed ∨ ∃ i, change = .created i) →
      (change = .failed ∨ (∃ i, change = .created i) → s.shared.mNextId ≠ 0) :=
    fun hnot hyes => absurd hyes hnot
  cases a with
  | create pageCount =>
      rcases create_effect h.inv pageCount with hfail | ⟨-, heff⟩ | ⟨i, -, heff⟩
      · show Named ⟨(s.shared.create pageCount s.phys).2.1, (s.shared.create pageCount s.phys).2.2⟩
        rw [hfail]
        exact h
      · exact h.effect heff fun _ => hsafe
      · exact h.effect heff fun _ => hsafe
  | attach id =>
      rcases attach_effect s.shared s.phys id with hfail | ⟨i, -, -, heff⟩
      · show Named ⟨(s.shared.attach id).2, s.phys⟩
        rw [hfail]
        exact h
      · exact h.effect heff (hother (by simp))
  | release id =>
      rcases release_effect h.inv id with ⟨-, hfail⟩ | ⟨i, -, ⟨-, heff⟩ | ⟨-, heff⟩⟩
      · show Named ⟨(s.shared.release id s.phys).1, (s.shared.release id s.phys).2⟩
        rw [hfail]
        exact h
      · exact h.effect heff (hother (by simp))
      · exact h.effect heff (hother (by simp))
  | otherAllocate pageCount alignmentPages => exact ⟨inv_step h.inv (.otherAllocate pageCount alignmentPages), h.ids⟩
  | otherFree address =>
      by_cases hres : Reserved s address
      · rw [step_otherFree_reserved hres]
        exact h
      · have hinv := inv_step h.inv (.otherFree address)
        rw [step_otherFree hres] at hinv ⊢
        exact ⟨hinv, h.ids⟩

/-! ## Every run -/

theorem Named.createAtomic (h : Named s) (hnz : s.shared.mNextId ≠ 0) : CreateAtomic s := by
  intro pageCount hzero
  rcases create_effect h.inv pageCount with hfail | ⟨-, heff⟩ | ⟨i, hid, -⟩
  · rw [hfail]
    exact ⟨rfl, rfl⟩
  · generalize (s.shared.create pageCount s.phys).2.1 = m at heff ⊢
    generalize (s.shared.create pageCount s.phys).2.2 = p at heff ⊢
    cases heff with
    | failed hpmm => exact ⟨hpmm, rfl⟩
  · rw [hid] at hzero
    exact absurd hzero hnz

theorem named_start (m : SharedMemoryManager) (pmm : PhysicalMemoryManager) (image : KernelImage)
    {boot : BootInfo} (bytes : Lib.Bytes) (hb : PhysicalMemoryManager.Accepts boot) :
    Named (start m pmm image boot bytes) := by
  refine ⟨inv_init m (PhysicalMemoryManager.ready_init pmm image bytes hb), .empty fun i hi => ?_⟩
  exact absurd hi Bool.false_ne_true

/-- **Shared memory.** In every run that issues no identifier once the counter has come round to 0: active
    segments have distinct identifiers other than 0; a `Create` that answers 0 has changed neither the table nor
    the allocator; and each frame of a segment is freed once, at the `Release` of the last reference. -/
theorem atomic (m : SharedMemoryManager) (pmm : PhysicalMemoryManager) (image : KernelImage) (boot : BootInfo)
    (bytes : Lib.Bytes) (hb : PhysicalMemoryManager.Accepts boot) (as : List Action)
    (hwrap : Lib.Along step NotWrapped (start m pmm image boot bytes) as) :
    Lib.Throughout step (fun s => IdsDistinct s ∧ (s.shared.mNextId ≠ 0 → CreateAtomic s))
      (start m pmm image boot bytes) as ∧
    Lib.Along step Guarantee (start m pmm image boot bytes) as := by
  have hstart := named_start m pmm image bytes hb
  constructor
  · apply Lib.Throughout.mono fun s (h : Named s) => ⟨⟨h.ids.nonzero, h.ids.distinct⟩, h.createAtomic⟩
    exact Lib.throughout_of_along (fun _ a h hsafe => h.step hsafe) hstart hwrap
  · apply Lib.along_of_invariant (I := fun s : Run => Inv s.shared s.phys)
    · exact fun _ a h => inv_step h a
    · exact fun _ a h => guarantee h a
    · exact hstart.inv

open PhysicalMemoryManager (smallImage smallBoot smallMap allocatePage_small)

/-- A segment of two pages, attached once and released twice, with somebody else's allocation in between. -/
theorem atomic_small :
    let as : List Action := [.create 2, .otherAllocate 3 1, .attach 1, .release 1, .release 1]
    Lib.Throughout step (fun s => IdsDistinct s ∧ (s.shared.mNextId ≠ 0 → CreateAtomic s))
      (start {} {} smallImage smallBoot smallMap) as ∧
    Lib.Along step Guarantee (start {} {} smallImage smallBoot smallMap) as := by
  apply atomic {} {} smallImage smallBoot smallMap (by decide)
  refine ⟨?_, trivial, trivial, trivial, trivial, trivial⟩
  show (1 : UInt64) ≠ 0
  decide

/-! ## A run that comes round to 0 -/

/-- No segment is in use, the counter is `n`, and the allocator is `pmm`. -/
structure Resting (pmm : PhysicalMemoryManager) (n : Nat) (s : Run) : Prop where
  inv             : Inv s.shared s.phys
  mPhysicalMemory : s.shared.mPhysicalMemory = true
  mNextId         : s.shared.mNextId = UInt64.ofNat n
  idle            : s.shared.mSegments = fun _ => {}
  pmm             : s.phys.pmm = pmm

/-- A `Create` of one page makes segment 0, when a frame is free. -/
theorem Resting.create {pmm : PhysicalMemoryManager} {n : Nat} (h : Resting pmm n s)
    (hpage : pmm.allocatePage.1 ≠ 0) :
    (s.shared.create 1 s.phys).1 = UInt64.ofNat n ∧
    Effect s.shared s.phys (.created 0) (s.step (.create 1)).shared (s.step (.create 1)).phys := by
  have hfind : s.shared.findFreeSegment = some 0 := by
    apply Lib.firstSlot_eq_some_iff.mpr
    rw [h.idle]
    exact ⟨rfl, fun j hj => absurd hj (Fin.not_lt_zero j)⟩
  have hindices : SharedSegment.pageIndices 1 = [0] := by decide
  have hphys : s.phys.allocatePage.1 ≠ 0 := by
    show s.phys.pmm.allocatePage.1 ≠ 0
    rw [h.pmm]
    exact hpage
  have hactive : ((s.shared.create 1 s.phys).2.1.mSegments 0).active = true := by
    unfold SharedMemoryManager.create
    rw [if_neg (by simp [h.mPhysicalMemory]; decide), hfind, hindices]
    unfold SharedSegment.allocatePages
    dsimp only
    rw [if_neg hphys]
    unfold SharedSegment.allocatePages
    dsimp only
    rw [setSegment_apply, if_pos rfl]
    rfl
  have hidle : (s.shared.mSegments 0).active = false := by rw [h.idle]
  rw [← h.mNextId]
  rcases create_effect h.inv 1 with hfail | ⟨-, heff⟩ | ⟨i, hid, heff⟩
  · rw [hfail] at hactive
    exact absurd (hidle.symm.trans hactive) (by simp)
  · generalize (s.shared.create 1 s.phys).2.1 = m at heff hactive
    cases heff with
    | failed hpmm => exact absurd (hidle.symm.trans hactive) (by simp)
  · refine ⟨hid, ?_⟩
    have hi : i = 0 := by
      obtain ⟨segment, htable, -⟩ := heff.of_created
      by_contra hne
      rw [htable, setSegment_apply, if_neg (Ne.symm hne)] at hactive
      exact absurd (hidle.symm.trans hactive) (by simp)
    rw [← hi]
    exact heff

/-- The `Release` that follows puts everything back, but for the counter. -/
theorem Resting.next {pmm : PhysicalMemoryManager} {n : Nat} (h : Resting pmm n s)
    (hpage : pmm.allocatePage.1 ≠ 0) :
    Resting pmm (n + 1) (Lib.run Run.step s [.create 1, .release (UInt64.ofNat n)]) := by
  obtain ⟨-, heff⟩ := h.create hpage
  obtain ⟨segment, htable, hwhole, hid, hone, hgrants⟩ := heff.of_created
  rw [Lib.run_cons, Lib.run_cons, Lib.run_nil]
  have hinv := inv_step h.inv (.create 1)
  generalize s.step (.create 1) = s₁ at htable hgrants hinv ⊢
  have hfirst : s₁.shared.mSegments 0 = segment := by
    rw [htable, setSegment_apply, if_pos rfl]
  have hfind : s₁.shared.findSegment (UInt64.ofNat n) = some 0 := by
    apply Lib.firstSlot_unique
    · rw [hfirst, hwhole.active, hid, h.mNextId]
      simp
    · intro j hj
      by_contra hne
      rw [htable, setSegment_apply, if_neg hne, nextId_mSegments, h.idle] at hj
      exact absurd hj (by simp)
  rcases release_effect hinv (UInt64.ofNat n) with ⟨hnone, -⟩ | ⟨j, hj, hcases⟩
  · rw [hfind] at hnone
    exact absurd hnone (by simp)
  · rw [hfind] at hj
    obtain rfl := Option.some.inj hj
    rcases hcases with ⟨hshared, -⟩ | ⟨-, heff⟩
    · exact absurd (hfirst ▸ hone) hshared
    · obtain ⟨htable₂, -, hreturns⟩ := heff.of_destroyed
      rw [hfirst] at hreturns
      have hshared₂ : (s₁.step (.release (UInt64.ofNat n))).shared = (s.shared.nextId.setSegment 0 segment).setSegment 0 {} := by
        rw [← htable]
        exact htable₂
      constructor
      · exact inv_step hinv _
      · rw [hshared₂]
        exact h.mPhysicalMemory
      · rw [hshared₂]
        show s.shared.mNextId + 1 = UInt64.ofNat (n + 1)
        rw [h.mNextId, UInt64.ofNat_add]
        rfl
      · rw [hshared₂]
        show Function.update (Function.update s.shared.mSegments 0 segment) 0 {} = fun _ => {}
        rw [Function.update_idem, h.idle]
        exact Function.update_eq_self (0 : Fin kSharedSegmentCount) _
      · exact (hgrants.undo h.inv.ready hreturns).trans h.pmm

/-- `n` times a `Create` of one page and the `Release` of what it made. -/
def rounds : Nat → List Action
  | 0     => []
  | n + 1 => rounds n ++ [.create 1, .release (UInt64.ofNat (n + 1))]

theorem Resting.rounds {pmm : PhysicalMemoryManager} (h : Resting pmm 1 s) (hpage : pmm.allocatePage.1 ≠ 0)
    (n : Nat) : Resting pmm (n + 1) (Lib.run Run.step s (Run.rounds n)) := by
  induction n with
  | zero => exact h
  | succ n ih =>
      rw [Run.rounds, Lib.run_append]
      exact ih.next hpage

theorem resting_start (m : SharedMemoryManager) (pmm : PhysicalMemoryManager) (image : KernelImage)
    {boot : BootInfo} (bytes : Lib.Bytes) (hb : PhysicalMemoryManager.Accepts boot) :
    Resting (pmm.init image boot bytes).2 1 (start m pmm image boot bytes) :=
  ⟨(named_start m pmm image bytes hb).inv, rfl, rfl, rfl, rfl⟩

/-- When the rounds have brought the counter to 0, a `Create` answers 0 and makes a segment. -/
theorem Resting.wraps {pmm : PhysicalMemoryManager} (h : Resting pmm 1 s) (hpage : pmm.allocatePage.1 ≠ 0)
    {n : Nat} (hzero : UInt64.ofNat (n + 1) = 0) :
    let t := Lib.run Run.step s (Run.rounds n)
    (t.shared.create 1 t.phys).1 = 0 ∧ (t.shared.mSegments 0).active = false ∧
      ((t.shared.create 1 t.phys).2.1.mSegments 0).active = true := by
  intro t
  have hlast : Resting pmm (n + 1) t := h.rounds hpage n
  obtain ⟨hanswer, heff⟩ := hlast.create hpage
  obtain ⟨segment, htable, hwhole, -⟩ := heff.of_created
  refine ⟨hanswer.trans hzero, ?_, ?_⟩
  · rw [hlast.idle]
  · show ((t.step (.create 1)).shared.mSegments 0).active = true
    rw [htable, setSegment_apply, if_pos rfl]
    exact hwhole.active

/-- On the small machine, after `2 ^ 64 - 1` rounds. -/
theorem create_wraps :
    let s := Lib.run step (start {} {} smallImage smallBoot smallMap) (rounds (2 ^ 64 - 1))
    (s.shared.create 1 s.phys).1 = 0 ∧ (s.shared.mSegments 0).active = false ∧
      ((s.shared.create 1 s.phys).2.1.mSegments 0).active = true := by
  have hb : PhysicalMemoryManager.Accepts smallBoot := by decide
  have hzero : UInt64.ofNat (2 ^ 64 - 1 + 1) = 0 := by decide
  exact (resting_start {} {} smallImage smallMap hb).wraps (allocatePage_small {}).1 hzero

end Run
end SharedMemoryManager
end UefiBoot
