import UefiBoot.Lib.Select
import UefiBoot.Memory.FrameSets

/-!
# `Memory.SharedMemory` — `SharedMemoryManager`, segments of frames with a reference count

`Create` fills a free segment page by page and gives everything back when one allocation fails; `Attach` and
`Release` count references, and the last `Release` frees the pages. `DestroyPartial` frees what `pages` says,
so the failure path is right only because a free segment holds no stale address: `Inv.idle` says that a free
segment is all zero. `Effect` lists once what an operation can do.
-/

namespace UefiBoot

/-- `SharedMemoryManager::SharedSegment`. -/
structure SharedSegment where
  id         : UInt64 := 0
  pageCount  : UInt64 := 0
  pages      : Fin kSharedSegmentMaxPages → UInt64 := fun _ => 0
  references : UInt16 := 0
  active     : Bool := false
  deriving DecidableEq

namespace SharedSegment

/-- The indices that `for (i = 0; i < page_count; i++)` visits. -/
def pageIndices (pageCount : UInt64) : List (Fin kSharedSegmentMaxPages) :=
  (List.finRange kSharedSegmentMaxPages).filter fun k => decide (k.val < pageCount.toNat)

/-- Write one entry of `pages`. -/
@[simps] def setPage (segment : SharedSegment) (k : Fin kSharedSegmentMaxPages) (a : UInt64) : SharedSegment :=
  { segment with pages := Function.update segment.pages k a }

/-- The segment with another count. -/
@[simps] def withReferences (segment : SharedSegment) (references : UInt16) : SharedSegment :=
  { segment with references }

/-- The addresses that `DestroyPartial` frees, in its order. -/
def frames (segment : SharedSegment) : List UInt64 :=
  ((pageIndices segment.pageCount).map segment.pages).filter fun a => decide (a ≠ 0)

/-- The frame at one index. -/
def frame (segment : SharedSegment) (k : Fin kSharedSegmentMaxPages) : Option UInt64 :=
  if segment.pages k = 0 then none else some (segment.pages k)

/-- The loop of `Create` over the indices `ks`. -/
def allocatePages (segment : SharedSegment) (p : Physical) :
    List (Fin kSharedSegmentMaxPages) → Bool × SharedSegment × Physical
  | []      => (true, segment, p)
  | k :: ks =>
    let (a, p) := p.allocatePage
    let segment := segment.setPage k a
    if a = 0 then (false, segment, p) else segment.allocatePages (p.clearPage a) ks

def destroyPartial (segment : SharedSegment) (p : Physical) : SharedSegment × Physical :=
  ({ id := 0, pageCount := 0, references := 0, active := false
     pages := fun k => if k ∈ pageIndices segment.pageCount then 0 else segment.pages k },
   { p with pmm := p.pmm.freePages segment.frames })

end SharedSegment

structure SharedMemoryManager where
  mPhysicalMemory : Bool := false
  mNextId         : UInt64 := 1
  mSegments       : Fin kSharedSegmentCount → SharedSegment := fun _ => {}

namespace SharedMemoryManager

def init (_m : SharedMemoryManager) : SharedMemoryManager :=
  { mPhysicalMemory := true, mNextId := 1, mSegments := fun _ => {} }

/-- Write one segment of the table. -/
@[simps] def setSegment (m : SharedMemoryManager) (i : Fin kSharedSegmentCount) (segment : SharedSegment) :
    SharedMemoryManager :=
  { m with mSegments := Function.update m.mSegments i segment }

theorem setSegment_apply (m : SharedMemoryManager) (i q : Fin kSharedSegmentCount) (segment : SharedSegment) :
    (m.setSegment i segment).mSegments q = if q = i then segment else m.mSegments q := Function.update_apply ..

/-- `m_NextId++`. -/
@[simps] def nextId (m : SharedMemoryManager) : SharedMemoryManager := { m with mNextId := m.mNextId + 1 }

def findFreeSegment (m : SharedMemoryManager) : Option (Fin kSharedSegmentCount) :=
  Lib.firstSlot fun i => !(m.mSegments i).active

def findSegment (m : SharedMemoryManager) (id : UInt64) : Option (Fin kSharedSegmentCount) :=
  Lib.firstSlot fun i => (m.mSegments i).active && (m.mSegments i).id == id

def create (m : SharedMemoryManager) (pageCount : UInt64) (p : Physical) :
    UInt64 × SharedMemoryManager × Physical :=
  if !m.mPhysicalMemory ∨ pageCount = 0 ∨ pageCount > UInt64.ofNat kSharedSegmentMaxPages then (0, m, p)
  else
    match m.findFreeSegment with
    | none   => (0, m, p)
    | some i =>
      let segment : SharedSegment :=
        { id := m.mNextId, pageCount, references := 1, active := true, pages := (m.mSegments i).pages }
      match segment.allocatePages p (SharedSegment.pageIndices pageCount) with
      | (true, segment, p)  => (segment.id, m.nextId.setSegment i segment, p)
      | (false, segment, p) =>
        (0, m.nextId.setSegment i (segment.destroyPartial p).1, (segment.destroyPartial p).2)

def attach (m : SharedMemoryManager) (id : UInt64) : Bool × SharedMemoryManager :=
  match m.findSegment id with
  | none   => (false, m)
  | some i =>
    let segment := m.mSegments i
    if segment.references = 0xFFFF then (false, m)
    else (true, m.setSegment i (segment.withReferences (segment.references + 1)))

def release (m : SharedMemoryManager) (id : UInt64) (p : Physical) : SharedMemoryManager × Physical :=
  match m.findSegment id with
  | none   => (m, p)
  | some i =>
    let segment := m.mSegments i
    if segment.references = 0 then (m, p)
    else
      let segment := segment.withReferences (segment.references - 1)
      if segment.references = 0 then
        (m.setSegment i (segment.destroyPartial p).1, (segment.destroyPartial p).2)
      else (m.setSegment i segment, p)

end SharedMemoryManager

/-! ## The loops over `pages` -/

namespace SharedSegment

variable {segment : SharedSegment} {p : Physical} {k : Fin kSharedSegmentMaxPages} {pageCount : UInt64}

theorem mem_pageIndices : k ∈ pageIndices pageCount ↔ k.val < pageCount.toNat := by
  unfold pageIndices
  rw [List.mem_filter, decide_eq_true_eq]
  exact and_iff_right (List.mem_finRange k)

theorem nodup_pageIndices (pageCount : UInt64) : (pageIndices pageCount).Nodup :=
  (List.nodup_finRange _).filter _

theorem frame_some {a : UInt64} (h : segment.frame k = some a) : segment.pages k = a ∧ a ≠ 0 := by
  unfold frame at h
  split at h
  · exact absurd h (by simp)
  · rename_i hnz
    obtain rfl := Option.some.inj h
    exact ⟨rfl, hnz⟩

theorem frame_eq (h : segment.pages k ≠ 0) : segment.frame k = some (segment.pages k) := if_neg h

/-- What the loop of `Create` leaves alone. -/
structure Filled (segment filled : SharedSegment) (ks : List (Fin kSharedSegmentMaxPages)) : Prop where
  id         : filled.id = segment.id
  pageCount  : filled.pageCount = segment.pageCount
  references : filled.references = segment.references
  active     : filled.active = segment.active
  others     : ∀ k ∉ ks, filled.pages k = segment.pages k

/-- **The loop of `Create`.** Whether it runs to its end or stops at a failure, the frames that were handed out
    are the addresses in `pages`; only if it runs to its end is each of them non-null. -/
theorem allocatePages_spec (hready : p.pmm.Ready) {ks : List (Fin kSharedSegmentMaxPages)} (hnodup : ks.Nodup)
    (hzero : ∀ k ∈ ks, segment.pages k = 0) :
    let r := segment.allocatePages p ks
    Filled segment r.2.1 ks ∧
    p.pmm.GrantsAll r.2.2.pmm ((ks.map r.2.1.pages).filter fun a => decide (a ≠ 0)) ∧
    (r.1 = true → ∀ k ∈ ks, r.2.1.pages k ≠ 0) := by
  induction ks generalizing segment p with
  | nil =>
      refine ⟨⟨rfl, rfl, rfl, rfl, fun k _ => rfl⟩, .nil hready, ?_⟩
      intro _ k hk
      exact absurd hk (by simp)
  | cons k ks ih =>
      obtain ⟨hk, hnodup⟩ := List.nodup_cons.mp hnodup
      have hrest : ∀ q ∈ ks, (segment.setPage k p.allocatePage.1).pages q = segment.pages q := by
        intro q hq
        rw [setPage_pages, Function.update_of_ne]
        rintro rfl
        exact hk hq
      have hhead : (segment.setPage k p.allocatePage.1).pages k = p.allocatePage.1 := by
        rw [setPage_pages, Function.update_self]
      intro r
      by_cases hz : p.allocatePage.1 = 0
      · -- the call fails here: no frame was handed out, and `pages` holds none at these indices
        have hr : r = (false, segment.setPage k p.allocatePage.1, p) := by
          show segment.allocatePages p (k :: ks) = _
          unfold allocatePages
          dsimp only
          rw [if_pos hz, Physical.allocatePage_failed hready hz]
        have hnone : ((k :: ks).map r.2.1.pages).filter (fun a => decide (a ≠ 0)) = [] := by
          rw [List.filter_eq_nil_iff]
          intro a ha
          obtain ⟨q, hq, rfl⟩ := List.mem_map.mp ha
          have hqzero : r.2.1.pages q = 0 := by
            rw [hr]
            rcases List.mem_cons.mp hq with rfl | hq
            · exact hhead.trans hz
            · exact (hrest q hq).trans (hzero q (List.mem_cons_of_mem _ hq))
          simp [hqzero]
        rw [hnone, hr]
        refine ⟨⟨rfl, rfl, rfl, rfl, ?_⟩, .nil hready, fun h => absurd h (by simp)⟩
        intro q hq
        exact Function.update_of_ne (fun h : q = k => hq (h ▸ List.mem_cons_self)) _ _
      · have hgrants := Physical.allocatePage_grants hready hz
        have hr : r = (segment.setPage k p.allocatePage.1).allocatePages
            (p.allocatePage.2.clearPage p.allocatePage.1) ks := by
          show segment.allocatePages p (k :: ks) = _
          rw [allocatePages]
          exact if_neg hz
        obtain ⟨hfilled, hall, hnonzero⟩ := @ih (segment.setPage k p.allocatePage.1)
          (p.allocatePage.2.clearPage p.allocatePage.1) hgrants.ready hnodup
          (fun q hq => (hrest q hq).trans (hzero q (List.mem_cons_of_mem _ hq)))
        rw [← hr] at hfilled hall hnonzero
        have hkept : r.2.1.pages k = p.allocatePage.1 := (hfilled.others k hk).trans hhead
        refine ⟨⟨hfilled.id, hfilled.pageCount, hfilled.references, hfilled.active, ?_⟩, ?_, ?_⟩
        · intro q hq
          rw [hfilled.others q fun h => hq (List.mem_cons_of_mem _ h)]
          exact Function.update_of_ne (fun h : q = k => hq (h ▸ List.mem_cons_self)) _ _
        · rw [List.map_cons, List.filter_cons, hkept, if_pos (decide_eq_true hz)]
          exact .cons hgrants hall
        · intro hok q hq
          rcases List.mem_cons.mp hq with rfl | hq
          · rw [hkept]
            exact hz
          · exact hnonzero hok q hq

theorem mem_frames {a : UInt64} :
    a ∈ segment.frames ↔ ∃ k, k.val < segment.pageCount.toNat ∧ segment.frame k = some a := by
  unfold frames
  rw [List.mem_filter, List.mem_map]
  constructor
  · rintro ⟨⟨k, hk, rfl⟩, hnz⟩
    exact ⟨k, mem_pageIndices.mp hk, frame_eq (of_decide_eq_true hnz)⟩
  · rintro ⟨k, hk, hframe⟩
    obtain ⟨rfl, hnz⟩ := frame_some hframe
    exact ⟨⟨k, mem_pageIndices.mpr hk, rfl⟩, decide_eq_true hnz⟩

/-- Distinct frames are at distinct indices. -/
theorem frame_inj (hnodup : segment.frames.Nodup) {j : Fin kSharedSegmentMaxPages} {a : UInt64}
    (hk : k.val < segment.pageCount.toNat) (hj : j.val < segment.pageCount.toNat)
    (hka : segment.frame k = some a) (hja : segment.frame j = some a) : k = j := by
  obtain ⟨hkpage, hnz⟩ := frame_some hka
  obtain ⟨hjpage, -⟩ := frame_some hja
  unfold frames at hnodup
  rw [List.filter_map] at hnodup
  apply List.inj_on_of_nodup_map hnodup
  · rw [List.mem_filter]
    exact ⟨mem_pageIndices.mpr hk, decide_eq_true (hkpage ▸ hnz)⟩
  · rw [List.mem_filter]
    exact ⟨mem_pageIndices.mpr hj, decide_eq_true (hjpage ▸ hnz)⟩
  · rw [hkpage, hjpage]

/-- A segment in use: it has references, and an address for each of its pages and for no other. -/
structure Whole (segment : SharedSegment) : Prop where
  active     : segment.active = true
  references : segment.references ≠ 0
  bounded    : 0 < segment.pageCount.toNat ∧ segment.pageCount.toNat ≤ kSharedSegmentMaxPages
  pages      : ∀ k, segment.pages k ≠ 0 ↔ k.val < segment.pageCount.toNat

theorem Whole.frame_lt (h : Whole segment) {a : UInt64} (hk : segment.frame k = some a) :
    k.val < segment.pageCount.toNat := by
  obtain ⟨rfl, hnz⟩ := frame_some hk
  exact (h.pages k).mp hnz

/-- `DestroyPartial` leaves a free segment, if `pages` holds nothing past the pages it counts. -/
theorem destroyPartial_fst (h : ∀ k, ¬ k.val < segment.pageCount.toNat → segment.pages k = 0) :
    (segment.destroyPartial p).1 = {} := by
  have hpages : (fun k => if k ∈ pageIndices segment.pageCount then 0 else segment.pages k) = fun _ => 0 := by
    funext k
    split
    · rfl
    · rename_i hk
      exact h k fun hlt => hk (mem_pageIndices.mpr hlt)
  unfold destroyPartial
  dsimp only
  rw [hpages]

end SharedSegment

/-! ## What an operation can do -/

namespace SharedMemoryManager

open SharedSegment (Whole)

variable {m m' : SharedMemoryManager} {p p' : Physical} {i q : Fin kSharedSegmentCount} {id : UInt64}

theorem findFreeSegment_some (h : m.findFreeSegment = some i) : (m.mSegments i).active = false := by
  simpa using Lib.firstSlot_true h

theorem findSegment_some (h : m.findSegment id = some i) :
    (m.mSegments i).active = true ∧ (m.mSegments i).id = id := by
  simpa using Lib.firstSlot_true h

/-- The frames of the segments, over the frames the allocator has handed out. -/
def ledger (m : SharedMemoryManager) (p : Physical) :
    Lib.Ledger (Fin kSharedSegmentCount × Fin kSharedSegmentMaxPages) UInt64 :=
  { holds := fun q => (m.mSegments q.1).frame q.2, taken := p.pmm.Taken }

/-- The table and the allocator fit together. -/
structure Inv (m : SharedMemoryManager) (p : Physical) : Prop where
  ready : p.pmm.Ready
  sound : (m.ledger p).Sound 0
  idle  : ∀ i, (m.mSegments i).active = false → m.mSegments i = {}
  whole : ∀ i, (m.mSegments i).active = true → Whole (m.mSegments i)

/-- A segment has distinct frames. -/
theorem Inv.nodup_frames (h : Inv m p) (i : Fin kSharedSegmentCount) : (m.mSegments i).frames.Nodup := by
  unfold SharedSegment.frames
  rw [List.filter_map]
  apply List.Nodup.map_on _ ((SharedSegment.nodup_pageIndices _).filter _)
  intro k hk j hj heq
  have hknz : (m.mSegments i).pages k ≠ 0 := of_decide_eq_true (List.mem_filter.mp hk).2
  have hjnz : (m.mSegments i).pages j ≠ 0 := of_decide_eq_true (List.mem_filter.mp hj).2
  have hkheld : (m.ledger p).holds (i, k) = some _ := SharedSegment.frame_eq hknz
  have hjheld : (m.ledger p).holds (i, j) = some _ := SharedSegment.frame_eq hjnz
  rw [heq] at hkheld
  exact congrArg Prod.snd (h.sound.unique hkheld hjheld)

/-- What an operation did, and to which segment. -/
inductive Change where
  | created (i : Fin kSharedSegmentCount)
  | failed
  | attached (i : Fin kSharedSegmentCount)
  | dropped (i : Fin kSharedSegmentCount)
  | destroyed (i : Fin kSharedSegmentCount)
  deriving DecidableEq, Repr

/-- **Everything an operation can do to the table and the allocator**, when it does something. -/
inductive Effect (m : SharedMemoryManager) (p : Physical) : Change → SharedMemoryManager → Physical → Prop
  | created {p' : Physical} (i : Fin kSharedSegmentCount) (segment : SharedSegment)
      (hslot : (m.mSegments i).active = false) (hwhole : Whole segment) (hid : segment.id = m.mNextId)
      (hone : segment.references = 1) (hgrants : p.pmm.GrantsAll p'.pmm segment.frames) :
      Effect m p (.created i) (m.nextId.setSegment i segment) p'
  /-- `Create` ran out of frames: the identifier is spent and the frames are back. -/
  | failed {p' : Physical} (hpmm : p'.pmm = p.pmm) : Effect m p .failed m.nextId p'
  | attached (i : Fin kSharedSegmentCount) (hactive : (m.mSegments i).active = true)
      (hroom : (m.mSegments i).references ≠ 0xFFFF) :
      Effect m p (.attached i)
        (m.setSegment i ((m.mSegments i).withReferences ((m.mSegments i).references + 1))) p
  | dropped (i : Fin kSharedSegmentCount) (hactive : (m.mSegments i).active = true)
      (hshared : (m.mSegments i).references - 1 ≠ 0) :
      Effect m p (.dropped i)
        (m.setSegment i ((m.mSegments i).withReferences ((m.mSegments i).references - 1))) p
  | destroyed {p' : Physical} (i : Fin kSharedSegmentCount) (hactive : (m.mSegments i).active = true)
      (hlast : (m.mSegments i).references = 1)
      (hreturns : p.pmm.ReturnsAll p'.pmm (m.mSegments i).frames)
      (hpmm : p'.pmm = p.pmm.freePages (m.mSegments i).frames) :
      Effect m p (.destroyed i) (m.setSegment i {}) p'

/-- **`Create`**: it fails at once, it fails for want of a frame, or it makes a segment. -/
theorem create_effect (h : Inv m p) (pageCount : UInt64) :
    m.create pageCount p = (0, m, p) ∨
    (m.create pageCount p).1 = 0 ∧
      Effect m p .failed (m.create pageCount p).2.1 (m.create pageCount p).2.2 ∨
    ∃ i, (m.create pageCount p).1 = m.mNextId ∧
      Effect m p (.created i) (m.create pageCount p).2.1 (m.create pageCount p).2.2 := by
  unfold create
  by_cases hbad : !m.mPhysicalMemory ∨ pageCount = 0 ∨ pageCount > UInt64.ofNat kSharedSegmentMaxPages
  · exact Or.inl (if_pos hbad)
  · rw [if_neg hbad]
    cases hfind : m.findFreeSegment with
    | none => exact Or.inl rfl
    | some i =>
        dsimp only
        have hslot := findFreeSegment_some hfind
        have hidle := h.idle i hslot
        have hbounded : 0 < pageCount.toNat ∧ pageCount.toNat ≤ kSharedSegmentMaxPages := by
          push Not at hbad
          obtain ⟨-, hne, hle⟩ := hbad
          have hpos : pageCount.toNat ≠ 0 := fun hz => hne (UInt64.toNat_inj.mp hz)
          have hmax : pageCount.toNat ≤ (UInt64.ofNat kSharedSegmentMaxPages).toNat :=
            UInt64.le_iff_toNat_le.mp (UInt64.not_lt.mp hle)
          exact ⟨Nat.pos_of_ne_zero hpos, hmax⟩
        obtain ⟨hfilled, hgrants, hnonzero⟩ := @SharedSegment.allocatePages_spec
          { id := m.mNextId, pageCount, references := 1, active := true, pages := (m.mSegments i).pages } p
          h.ready _ (SharedSegment.nodup_pageIndices pageCount) (fun k _ => by rw [hidle])
        generalize SharedSegment.allocatePages _ p (SharedSegment.pageIndices pageCount) = r
          at hfilled hgrants hnonzero ⊢
        obtain ⟨ok, segment, p₁⟩ := r
        dsimp only at hfilled hgrants hnonzero
        have hframes : (List.map segment.pages (SharedSegment.pageIndices pageCount)).filter
            (fun a => decide (a ≠ 0)) = segment.frames := by
          unfold SharedSegment.frames
          rw [hfilled.pageCount]
        rw [hframes] at hgrants
        -- past the pages of the segment nothing was written
        have hrest : ∀ k : Fin kSharedSegmentMaxPages, ¬ k.val < pageCount.toNat → segment.pages k = 0 := by
          intro k hk
          rw [hfilled.others k fun hmem => hk (SharedSegment.mem_pageIndices.mp hmem), hidle]
        cases ok with
        | false =>
            refine Or.inr (Or.inl ⟨rfl, ?_⟩)
            have hsegment : (segment.destroyPartial p₁).1 = m.nextId.mSegments i := by
              rw [SharedSegment.destroyPartial_fst (by rw [hfilled.pageCount]; exact hrest)]
              exact hidle.symm
            have htable : m.nextId.setSegment i (segment.destroyPartial p₁).1 = m.nextId := by
              unfold setSegment
              rw [hsegment, Function.update_eq_self]
            dsimp only
            rw [htable]
            have hreturns := PhysicalMemoryManager.freePages_returns (F := segment.frames) hgrants.ready
              fun a ha => ⟨(hgrants.frames a ha).1, (hgrants.frames a ha).2.1⟩
            exact .failed (hgrants.undo h.ready hreturns)
        | true =>
            refine Or.inr (Or.inr ⟨i, hfilled.id, ?_⟩)
            refine .created i segment hslot ⟨hfilled.active, ?_, ?_, ?_⟩ hfilled.id hfilled.references hgrants
            · rw [hfilled.references]
              show (1 : UInt16) ≠ 0
              decide
            · rw [hfilled.pageCount]
              exact hbounded
            · intro k
              rw [hfilled.pageCount]
              constructor
              · intro hnz
                by_contra hk
                exact hnz (hrest k hk)
              · intro hk
                exact hnonzero rfl k (SharedSegment.mem_pageIndices.mpr hk)

theorem attach_effect (m : SharedMemoryManager) (p : Physical) (id : UInt64) :
    m.attach id = (false, m) ∨
    ∃ i, m.findSegment id = some i ∧ (m.attach id).1 = true ∧ Effect m p (.attached i) (m.attach id).2 p := by
  unfold attach
  cases hfind : m.findSegment id with
  | none => exact Or.inl rfl
  | some i =>
      dsimp only
      by_cases hfull : (m.mSegments i).references = 0xFFFF
      · exact Or.inl (if_pos hfull)
      · rw [if_neg hfull]
        exact Or.inr ⟨i, rfl, rfl, .attached i (findSegment_some hfind).1 hfull⟩

/-- **`Release`**: it does nothing, it drops a reference, or it destroys the segment. -/
theorem release_effect (h : Inv m p) (id : UInt64) :
    m.findSegment id = none ∧ m.release id p = (m, p) ∨
    ∃ i, m.findSegment id = some i ∧
      ((m.mSegments i).references ≠ 1 ∧ Effect m p (.dropped i) (m.release id p).1 (m.release id p).2 ∨
       (m.mSegments i).references = 1 ∧ Effect m p (.destroyed i) (m.release id p).1 (m.release id p).2) := by
  unfold release
  cases hfind : m.findSegment id with
  | none => exact Or.inl ⟨rfl, rfl⟩
  | some i =>
      dsimp only
      have hactive := (findSegment_some hfind).1
      have hwhole := h.whole i hactive
      rw [if_neg hwhole.references]
      refine Or.inr ⟨i, rfl, ?_⟩
      by_cases hlast : (m.mSegments i).references - 1 = 0
      · right
        have hone : (m.mSegments i).references = 1 := by
          rw [← UInt16.sub_add_cancel (m.mSegments i).references 1, hlast]
          rfl
        rw [SharedSegment.withReferences_references, if_pos hlast]
        dsimp only
        have hsegment : (((m.mSegments i).withReferences ((m.mSegments i).references - 1)).destroyPartial p).1 = {} :=
          SharedSegment.destroyPartial_fst fun k hk => by_contra fun hnz => hk ((hwhole.pages k).mp hnz)
        rw [hsegment]
        refine ⟨hone, .destroyed i hactive hone (PhysicalMemoryManager.freePages_returns h.ready ?_) rfl⟩
        intro a ha
        obtain ⟨k, -, hk⟩ := SharedSegment.mem_frames.mp ha
        have hholds : (m.ledger p).holds (i, k) = some a := hk
        exact ⟨(h.sound.taken hholds).1, h.sound.unheld hholds⟩
      · left
        rw [SharedSegment.withReferences_references, if_neg hlast]
        refine ⟨?_, .dropped i hactive hlast⟩
        intro hone
        rw [hone] at hlast
        exact hlast rfl

/-! ## What an effect keeps -/

section Effect

variable {change : Change}

theorem Effect.ready (he : Effect m p change m' p') (h : p.pmm.Ready) : p'.pmm.Ready := by
  cases he with
  | created i segment hslot hwhole hid hone hgrants => exact hgrants.ready
  | failed hpmm => exact hpmm ▸ h
  | attached i hactive hroom => exact h
  | dropped i hactive hshared => exact h
  | destroyed i hactive hlast hreturns hpmm => exact hreturns.ready

/-- A write to one segment, seen from the ledger. -/
theorem holds_setSegment (segment : SharedSegment) (q : Fin kSharedSegmentCount × Fin kSharedSegmentMaxPages) :
    ((m.setSegment i segment).ledger p).holds q =
      if q.1 = i then segment.frame q.2 else (m.ledger p').holds q := by
  show ((m.setSegment i segment).mSegments q.1).frame q.2 = _
  rw [setSegment_apply]
  split <;> rfl

/-- Another count is no change of ownership. -/
theorem ledger_withReferences (references : UInt16) :
    (m.setSegment i ((m.mSegments i).withReferences references)).ledger p = m.ledger p := by
  have hholds : ((m.setSegment i ((m.mSegments i).withReferences references)).ledger p).holds
      = (m.ledger p).holds := by
    funext q
    rw [holds_setSegment]
    split
    · rename_i hq
      rw [← hq]
      rfl
    · rfl
  unfold ledger at hholds ⊢
  rw [Lib.Ledger.mk.injEq]
  exact ⟨hholds, rfl⟩

/-- **An effect moves frames as grants and revokes.** -/
theorem Effect.steps (he : Effect m p change m' p') (h : Inv m p) :
    Lib.Ledger.Steps (m.ledger p) (m'.ledger p') := by
  have hs := h.sound
  cases he with
  | created i segment hslot hwhole hid hone hgrants =>
      apply Relation.ReflTransGen.single
      have hholds : ∀ q a, ((m.nextId.setSegment i segment).ledger p').holds q = some a →
          (m.ledger p).holds q = some a ∨ q.1 = i ∧ segment.frame q.2 = some a := by
        intro q a hq
        rw [@holds_setSegment _ _ p] at hq
        split at hq
        · rename_i hqi
          exact Or.inr ⟨hqi, hq⟩
        · exact Or.inl hq
      refine .grantMany (A := {a | a ∈ segment.frames}) (i, ⟨0, by decide⟩) ?_ ?_ ?_ hgrants.taken
      · intro a ha
        exact hgrants.not_taken ha
      · intro q r a ha hq hr
        have hfresh : ∀ {q}, (m.ledger p).holds q ≠ some a := fun hq => hgrants.not_taken ha (hs.taken hq)
        rcases hholds q a hq with hq | ⟨hqi, hq⟩
        · exact absurd hq hfresh
        · rcases hholds r a hr with hr | ⟨hri, hr⟩
          · exact absurd hr hfresh
          · apply Prod.ext (hqi.trans hri.symm)
            exact SharedSegment.frame_inj hgrants.nodup (hwhole.frame_lt hq) (hwhole.frame_lt hr) hq hr
      · intro q a hq
        apply (hholds q a hq).imp_right
        rintro ⟨-, hframe⟩
        exact SharedSegment.mem_frames.mpr ⟨q.2, hwhole.frame_lt hframe, hframe⟩
  | failed hpmm =>
      have hledger : m.nextId.ledger p' = m.ledger p := by
        unfold ledger
        rw [hpmm]
        rfl
      rw [hledger]
  | attached i hactive hroom => rw [ledger_withReferences]
  | dropped i hactive hshared => rw [ledger_withReferences]
  | destroyed i hactive hlast hreturns hpmm =>
      apply Relation.ReflTransGen.single
      refine .revoke {a | a ∈ (m.mSegments i).frames} ?_ ?_ ?_
      · intro a ha
        obtain ⟨k, -, hk⟩ := SharedSegment.mem_frames.mp ha
        exact ⟨(i, k), hk⟩
      · intro q a hq
        rw [@holds_setSegment _ _ p] at hq
        split at hq
        · exact absurd hq (by simp [SharedSegment.frame])
        · rename_i hqi
          refine ⟨hq, fun ha => hqi ?_⟩
          obtain ⟨k, -, hk⟩ := SharedSegment.mem_frames.mp ha
          have hheld : (m.ledger p).holds (i, k) = some a := hk
          exact congrArg Prod.fst (hs.unique hq hheld)
      · intro a
        exact (hreturns.taken a).trans and_comm

theorem inv_setSegment {segment : SharedSegment} (h : Inv m p) (hready : p'.pmm.Ready)
    (hsound : ((m.setSegment i segment).ledger p').Sound 0) (hsegment : segment = {} ∨ Whole segment) :
    Inv (m.setSegment i segment) p' := by
  refine ⟨hready, hsound, ?_, ?_⟩
  · intro q hq
    rw [setSegment_apply] at hq ⊢
    split at hq
    · rename_i hqi
      rw [if_pos hqi]
      rcases hsegment with hidle | hwhole
      · exact hidle
      · rw [hwhole.active] at hq
        exact absurd hq (by simp)
    · rename_i hqi
      rw [if_neg hqi]
      exact h.idle q hq
  · intro q hq
    rw [setSegment_apply] at hq ⊢
    split at hq
    · rename_i hqi
      rw [if_pos hqi]
      rcases hsegment with rfl | hwhole
      · exact absurd hq (by simp)
      · exact hwhole
    · rename_i hqi
      rw [if_neg hqi]
      exact h.whole q hq

/-- **Step lemma.** -/
theorem Effect.inv (he : Effect m p change m' p') (h : Inv m p) : Inv m' p' := by
  have hready := he.ready h.ready
  have hsound := (he.steps h).sound h.sound
  have hnext : Inv m.nextId p := ⟨h.ready, h.sound, h.idle, h.whole⟩
  have hwith : ∀ {i r}, (m.mSegments i).active = true → r ≠ 0 → Whole ((m.mSegments i).withReferences r) := by
    intro i r hi hr
    have hwhole := h.whole i hi
    exact ⟨hi, hr, hwhole.bounded, hwhole.pages⟩
  cases he with
  | created i segment hslot hwhole hid hone hgrants => exact inv_setSegment hnext hready hsound (Or.inr hwhole)
  | failed hpmm => exact ⟨hready, hsound, h.idle, h.whole⟩
  | attached i hactive hroom =>
      apply inv_setSegment h hready hsound
      right
      apply hwith hactive
      intro hz
      apply hroom
      rw [← UInt16.add_sub_cancel (m.mSegments i).references 1, hz]
      rfl
  | dropped i hactive hshared => exact inv_setSegment h hready hsound (Or.inr (hwith hactive hshared))
  | destroyed i hactive hlast hreturns hpmm => exact inv_setSegment h hready hsound (Or.inl rfl)

/-- What a new segment looks like. -/
theorem Effect.of_created (he : Effect m p (.created i) m' p') :
    ∃ segment, m' = m.nextId.setSegment i segment ∧ Whole segment ∧ segment.id = m.mNextId ∧
      segment.references = 1 ∧ p.pmm.GrantsAll p'.pmm segment.frames := by
  cases he with
  | created i segment hslot hwhole hid hone hgrants => exact ⟨segment, rfl, hwhole, hid, hone, hgrants⟩

/-- What the end of a segment leaves. -/
theorem Effect.of_destroyed (he : Effect m p (.destroyed i) m' p') :
    m' = m.setSegment i {} ∧ p'.pmm = p.pmm.freePages (m.mSegments i).frames ∧
      p.pmm.ReturnsAll p'.pmm (m.mSegments i).frames := by
  cases he with
  | destroyed i hactive hlast hreturns hpmm => exact ⟨rfl, hpmm, hreturns⟩

/-- **A frame of a segment becomes free exactly when the segment is destroyed.** -/
theorem Effect.freed (he : Effect m p change m' p') (h : Inv m p) {k : Fin kSharedSegmentMaxPages} {b : UInt64}
    (hframe : (m.mSegments i).frame k = some b) :
    p'.pmm.isPageFree (pageOf b) = true ↔ change = .destroyed i := by
  have hheld : (m.ledger p).holds (i, k) = some b := hframe
  obtain ⟨hb, hused⟩ := h.sound.taken hheld
  cases he with
  | created j segment hslot hwhole hid hone hgrants =>
      rw [hgrants.pages, hused, ite_self]
      simp
  | failed hpmm =>
      rw [hpmm, hused]
      simp
  | attached j hactive hroom =>
      rw [hused]
      simp
  | dropped j hactive hshared =>
      rw [hused]
      simp
  | destroyed j hactive hlast hreturns hpmm =>
      rw [hreturns.pages, hused, Change.destroyed.injEq]
      constructor
      · intro hfree
        have hmem : pageOf b ∈ (m.mSegments j).frames.map pageOf := by
          by_contra hnot
          rw [if_neg hnot] at hfree
          exact absurd hfree (by simp)
        have hbj := PhysicalMemoryManager.mem_of_pageOf_mem (fun a ha => (hreturns.frames a ha).1) hb hmem
        obtain ⟨k', -, hk'⟩ := SharedSegment.mem_frames.mp hbj
        have hheld' : (m.ledger p).holds (j, k') = some b := hk'
        exact congrArg Prod.fst (h.sound.unique hheld' hheld)
      · rintro rfl
        have hbj : b ∈ (m.mSegments j).frames :=
          SharedSegment.mem_frames.mpr ⟨k, (h.whole j hactive).frame_lt hframe, hframe⟩
        rw [if_pos (List.mem_map_of_mem hbj)]

/-- Until then the segment has it. -/
theorem Effect.kept (he : Effect m p change m' p') (h : Inv m p) {k : Fin kSharedSegmentMaxPages} {b : UInt64}
    (hframe : (m.mSegments i).frame k = some b) (hne : change ≠ .destroyed i) :
    (m'.mSegments i).frame k = some b := by
  cases he with
  | created j segment hslot hwhole hid hone hgrants =>
      rw [setSegment_apply, if_neg]
      · exact hframe
      · rintro rfl
        rw [h.idle i hslot] at hframe
        obtain ⟨hz, hnz⟩ := SharedSegment.frame_some hframe
        exact hnz hz.symm
  | failed hpmm => exact hframe
  | attached j hactive hroom =>
      rw [setSegment_apply]
      split
      · rename_i hij
        rw [← hij]
        exact hframe
      · exact hframe
  | dropped j hactive hshared =>
      rw [setSegment_apply]
      split
      · rename_i hij
        rw [← hij]
        exact hframe
      · exact hframe
  | destroyed j hactive hlast hreturns hpmm =>
      rw [setSegment_apply, if_neg]
      · exact hframe
      · rintro rfl
        exact hne rfl

end Effect

theorem inv_init (m : SharedMemoryManager) {p : Physical} (h : p.pmm.Ready) : Inv m.init p := by
  have hnone : ∀ {q a}, (m.init.ledger p).holds q ≠ some a := by
    intro q a hq
    have hframe : SharedSegment.frame {} q.2 = some a := hq
    obtain ⟨hz, hnz⟩ := SharedSegment.frame_some hframe
    exact hnz hz.symm
  refine ⟨h, ⟨?_, ?_, h.taken_zero, ?_⟩, fun i _ => rfl, ?_⟩
  · intro q r a hq
    exact absurd hq hnone
  · intro q a hq
    exact absurd hq hnone
  · intro q a hq
    exact absurd hq hnone
  · intro i hi
    exact absurd hi Bool.false_ne_true

end SharedMemoryManager
end UefiBoot
