import UefiBoot.Lib.Run
import UefiBoot.Memory.FrameSets
import UefiBoot.Memory.Slab

/-!
# `Memory.SlabRuns` — objects in use and free objects, in every run

A run mixes `Prime`, `Allocate` and `Free` with what others do: clients write inside objects in use, anybody writes
outside the pages of the caches, and frames that are no cache's page come and go. `Free` is called on objects in use,
with the size they were allocated with; the run keeps the list of these.

`Intact` is what the claims about the free lists come to in one state, and `integrity` says that it holds in every
state of every run, and what `Allocate` can answer there.
-/

namespace UefiBoot
namespace SlabAllocator

/-- The allocator, physical memory, and the objects in use with the sizes they were asked for. -/
structure Run where
  slab : SlabAllocator
  phys : Physical
  live : List (UInt64 × UInt64) := []

inductive Action where
  | prime
  | allocate (size : UInt64)
  | free (object size : UInt64)
  /-- Somebody writes a byte. -/
  | write (address : UInt64) (value : UInt8)
  /-- Somebody else calls `AllocateAligned`. -/
  | otherAllocate (pageCount alignmentPages : UInt64)
  /-- Somebody else calls `FreePage`. -/
  | otherFree (address : UInt64)
  deriving DecidableEq, Repr

namespace Run

/-- The allocator after its `Init`, and the caches after their own. -/
def start (m : SlabAllocator) (pmm : PhysicalMemoryManager) (image : KernelImage) (boot : BootInfo)
    (bytes : Lib.Bytes) : Run :=
  { slab := m.init, phys := { pmm := (pmm.init image boot bytes).2, bytes := bytes } }

/-- The objects in use of one cache. -/
def liveOf (s : Run) (i : Fin kSlabCacheCount) : List UInt64 :=
  (s.live.filter fun o => decide (s.slab.findCache o.2 = some i)).map Prod.fst

/-- The bytes of an object in use: as many as its cache gives it. -/
def objectRange (s : Run) (i : Fin kSlabCacheCount) (object : UInt64) : Lib.ByteRange :=
  ⟨object, (s.slab.mCaches i).objectSize.toNat⟩

/-- The byte is in an object in use, or in no page of a cache. -/
def MayWrite (s : Run) (address : UInt64) : Prop :=
  (∃ i, ∃ object ∈ s.liveOf i, address ∈ s.objectRange i object) ∨
  ∀ i, (s.slab.mCaches i).page ≠ 0 → address ∉ Lib.ByteRange.mk (s.slab.mCaches i).page 4096

/-- The page of the address is the page of a cache, or it is page 0. -/
def Reserved (s : Run) (address : UInt64) : Prop :=
  pageOf address = 0 ∨ ∃ i, (s.slab.mCaches i).page ≠ 0 ∧ pageOf (s.slab.mCaches i).page = pageOf address

instance (s : Run) (address : UInt64) : Decidable (MayWrite s address) := by
  unfold MayWrite
  infer_instance

instance (s : Run) (address : UInt64) : Decidable (Reserved s address) := by
  unfold Reserved
  infer_instance

/-- One call. `Free` is called on objects in use, with their sizes; nobody else writes into the caches' pages or
    frees them. -/
def step (s : Run) : Action → Run
  | .prime => { s with slab := (s.slab.prime s.phys).2.1, phys := (s.slab.prime s.phys).2.2 }
  | .allocate size =>
    let answer := s.slab.allocate size s.phys
    { slab := answer.2.1
      phys := answer.2.2
      live := if answer.1 = 0 then s.live else (answer.1, size) :: s.live }
  | .free object size =>
    if (object, size) ∈ s.live then
      { slab := (s.slab.free object size s.phys).2.1
        phys := (s.slab.free object size s.phys).2.2
        live := s.live.erase (object, size) }
    else s
  | .write address value =>
    if MayWrite s address then
      { s with phys := { s.phys with bytes := Function.update s.phys.bytes address value } }
    else s
  | .otherAllocate pageCount alignmentPages =>
    { s with phys := { s.phys with pmm := (s.phys.pmm.allocateAligned pageCount alignmentPages).2 } }
  | .otherFree address => if Reserved s address then s else { s with phys := s.phys.freePage address }

/-! ## What the claims say -/

/-- **The free list of cache `i`.** It ends, its nodes are different slots of the page, apart from every object in use,
    and the counters count. -/
structure IntactCache (s : Run) (i : Fin kSlabCacheCount) (nodes : List UInt64) : Prop where
  linked  : s.phys.bytes.Linked (s.slab.mCaches i).freeList nodes
  nodup   : nodes.Nodup
  slot    : ∀ node ∈ nodes, (s.slab.mCaches i).page ≠ 0 ∧
    node ∈ SlabCache.objects (s.slab.mCaches i).page (s.slab.mCaches i).objectSize ∧
    (s.slab.mCaches i).objectSize.toNat ∣ node.toNat
  apart   : ∀ node ∈ nodes, ∀ q, ∀ object ∈ s.liveOf q, (s.objectRange i node).Apart (s.objectRange q object)
  free    : nodes.length = (s.slab.mCaches i).freeObjects.toNat
  total   : (s.liveOf i).length + (s.slab.mCaches i).freeObjects.toNat = (s.slab.mCaches i).totalObjects.toNat

def Intact (s : Run) : Prop := ∀ i, ∃ nodes, IntactCache s i nodes

/-- **What `Allocate` can answer**: no object that overlaps one in use, and null only when the cache has no free object,
    or no page and gets none. -/
structure Answers (s : Run) (size : UInt64) : Prop where
  fresh : (s.slab.allocate size s.phys).1 ≠ 0 → ∃ i, s.slab.findCache size = some i ∧
    ∀ q, ∀ object ∈ s.liveOf q,
      object ≠ (s.slab.allocate size s.phys).1 ∧
      (s.objectRange i (s.slab.allocate size s.phys).1).Apart (s.objectRange q object)
  null  : size ≤ 256 → (s.slab.allocate size s.phys).1 = 0 → ∃ i, s.slab.findCache size = some i ∧
    (s.slab.mCaches i).freeObjects = 0 ∧
    ((s.slab.mCaches i).page ≠ 0 ∨ s.phys.pmm.allocatePage.1 = 0)

/-! ## The invariant -/

variable {s : Run} {i q : Fin kSlabCacheCount}

/-- The cache that `FindCache` picks after `Init`. -/
def cacheFor (size : UInt64) : Option (Fin kSlabCacheCount) := Lib.firstSlot fun i => decide (size ≤ sizes i)

/-- The objects of cache `i` among `live`. -/
def objectsOf (live : List (UInt64 × UInt64)) (i : Fin kSlabCacheCount) : List UInt64 :=
  (live.filter fun o => decide (cacheFor o.2 = some i)).map Prod.fst

theorem findCache_eq {m : SlabAllocator} (h : ∀ i, (m.mCaches i).objectSize = sizes i) (size : UInt64) :
    m.findCache size = cacheFor size := by
  unfold findCache cacheFor
  simp only [h]

theorem cacheFor_isSome {size : UInt64} (h : size ≤ 256) : ∃ i, cacheFor size = some i := by
  have hlast : sizes 3 = 256 := rfl
  apply Lib.exists_firstSlot (i := 3)
  rw [hlast]
  simpa using h

theorem objectsOf_cons (o : UInt64 × UInt64) (live : List (UInt64 × UInt64)) (q : Fin kSlabCacheCount) :
    objectsOf (o :: live) q = if cacheFor o.2 = some q then o.1 :: objectsOf live q else objectsOf live q := by
  unfold objectsOf
  rw [List.filter_cons]
  by_cases h : cacheFor o.2 = some q
  · rw [if_pos h, if_pos (by simpa using h), List.map_cons]
  · rw [if_neg h, if_neg (by simpa using h)]

/-- One more object in use. -/
theorem objectsOf_taken {object size : UInt64} (h : cacheFor size = some i) (live : List (UInt64 × UInt64)) :
    objectsOf ((object, size) :: live) = (Change.taken i object).inUse (objectsOf live) := by
  funext q
  rw [objectsOf_cons, h, Change.inUse_taken]
  by_cases hq : q = i
  · rw [hq, if_pos rfl, Function.update_self]
  · rw [if_neg fun heq => hq (Option.some.inj heq).symm, Function.update_of_ne hq]

/-- One less. -/
theorem objectsOf_drop {entry : UInt64 × UInt64} (h : cacheFor entry.2 = some i) {live rest : List (UInt64 × UInt64)}
    (hsplit : live.Perm (entry :: rest)) (q : Fin kSlabCacheCount) :
    ((Change.given i entry.1).inUse (objectsOf live) q).Perm (objectsOf rest q) := by
  have hperm : (objectsOf live q).Perm (objectsOf (entry :: rest) q) := (hsplit.filter _).map _
  rw [objectsOf_cons, h] at hperm
  rw [Change.inUse_given]
  by_cases hq : q = i
  · rw [hq, Function.update_self]
    rw [hq, if_pos rfl] at hperm
    exact (hperm.erase entry.1).trans (by rw [List.erase_cons_head])
  · rw [Function.update_of_ne hq]
    rwa [if_neg fun heq => hq (Option.some.inj heq).symm] at hperm

theorem objectsOf_given {object size : UInt64} (h : cacheFor size = some i) {live : List (UInt64 × UInt64)}
    (hmem : (object, size) ∈ live) (q : Fin kSlabCacheCount) :
    ((Change.given i object).inUse (objectsOf live) q).Perm (objectsOf (live.erase (object, size)) q) :=
  objectsOf_drop h (List.perm_cons_erase hmem) q

theorem mem_objectsOf {object size : UInt64} (h : cacheFor size = some i) {live : List (UInt64 × UInt64)}
    (hmem : (object, size) ∈ live) : object ∈ objectsOf live i := by
  unfold objectsOf
  rw [List.mem_map]
  refine ⟨(object, size), ?_, rfl⟩
  rw [List.mem_filter]
  exact ⟨hmem, by simpa using h⟩

/-- What holds in every state of a run. -/
structure Good (s : Run) : Prop where
  inv             : Inv s.slab s.phys (objectsOf s.live)
  mPhysicalMemory : s.slab.mPhysicalMemory = true
  found           : ∀ o ∈ s.live, ∃ i, cacheFor o.2 = some i

theorem Good.liveOf (h : Good s) (i : Fin kSlabCacheCount) : s.liveOf i = objectsOf s.live i := by
  unfold Run.liveOf objectsOf
  simp only [findCache_eq h.inv.sizes]

/-- A byte written where clients may write. -/
theorem inv_write (h : Good s) {address : UInt64} (hmay : MayWrite s address) (value : UInt8) :
    Inv s.slab { s.phys with bytes := Function.update s.phys.bytes address value } (objectsOf s.live) := by
  refine ⟨h.inv.ready, h.inv.sound, h.inv.sizes, fun q => ?_⟩
  obtain ⟨nodes, hnodes⟩ := h.inv.filled q
  refine ⟨nodes, hnodes.outside (h.inv.objectSize q) ?_⟩
  intro node hnode b hb
  -- the byte is in no slot of a free object
  have hne : b ≠ address := by
    rintro rfl
    rcases hmay with ⟨i, object, hobject, hin⟩ | hout
    · rw [h.liveOf] at hobject
      exact h.inv.node_apart hnodes hnode hobject b hb hin
    · obtain ⟨hpage, hframe, hslot⟩ := h.inv.mem_objects (hnodes.node_mem hnode)
      exact hout q hpage (mem_page_of_mem_slot hframe (h.inv.objectSize q) hslot hb)
  exact Function.update_of_ne hne ..

/-- A free of a frame that is no cache's page. -/
theorem inv_otherFree (h : Good s) {address : UInt64} (hres : ¬ Reserved s address) :
    Inv s.slab (s.phys.freePage address) (objectsOf s.live) := by
  unfold Reserved at hres
  push Not at hres
  obtain ⟨hzero, hpages⟩ := hres
  obtain ⟨hready, hsound⟩ := PhysicalMemoryManager.sound_freePage h.inv.ready h.inv.sound hzero fun i a hi => by
    obtain ⟨hne, rfl⟩ := SlabCache.frame_some hi
    exact hpages i hne
  exact ⟨hready, hsound, h.inv.sizes, h.inv.filled⟩

/-- **Step lemma.** -/
theorem Good.step (h : Good s) (a : Action) : Good (s.step a) := by
  cases a with
  | prime =>
      obtain ⟨hinv, hpmm, -⟩ := inv_primeLoop h.inv (List.finRange kSlabCacheCount)
      exact ⟨hinv, hpmm.trans h.mPhysicalMemory, h.found⟩
  | allocate size =>
      rcases allocate_cases h.inv h.mPhysicalMemory size with ⟨hfail, -⟩ | ⟨i, hfind, hne, heff⟩
      · have hstep : s.step (.allocate size) = s := by
          unfold Run.step
          dsimp only
          rw [hfail, if_pos rfl]
        rw [hstep]
        exact h
      · rw [findCache_eq h.inv.sizes] at hfind
        have hstep : s.step (.allocate size) = ⟨(s.slab.allocate size s.phys).2.1, (s.slab.allocate size s.phys).2.2,
            ((s.slab.allocate size s.phys).1, size) :: s.live⟩ := by
          unfold Run.step
          dsimp only
          rw [if_neg hne]
        have hfound : ∀ o ∈ ((s.slab.allocate size s.phys).1, size) :: s.live, ∃ i, cacheFor o.2 = some i := by
          intro o ho
          rcases List.mem_cons.mp ho with rfl | ho
          · exact ⟨i, hfind⟩
          · exact h.found o ho
        rw [hstep]
        generalize s.slab.allocate size s.phys = r at hne heff hfound ⊢
        rcases heff with heff | ⟨page, m₁, p₁, hgrow, heff⟩
        · refine ⟨?_, heff.mPhysicalMemory.trans h.mPhysicalMemory, hfound⟩
          rw [objectsOf_taken hfind]
          exact heff.inv h.inv (by simp)
        · refine ⟨?_, heff.mPhysicalMemory.trans (hgrow.mPhysicalMemory.trans h.mPhysicalMemory), hfound⟩
          rw [objectsOf_taken hfind]
          exact heff.inv (hgrow.inv h.inv (by simp)) (by simp)
  | free object size =>
      by_cases hmem : (object, size) ∈ s.live
      · obtain ⟨i, hfind⟩ := h.found _ hmem
        have hlive := mem_objectsOf hfind hmem
        obtain ⟨-, heff⟩ := free_live h.inv ((findCache_eq h.inv.sizes size).trans hfind) hlive
        have hstep : s.step (.free object size) = ⟨(s.slab.free object size s.phys).2.1,
            (s.slab.free object size s.phys).2.2, s.live.erase (object, size)⟩ := if_pos hmem
        rw [hstep]
        refine ⟨?_, heff.mPhysicalMemory.trans h.mPhysicalMemory, fun o ho => h.found o (List.mem_of_mem_erase ho)⟩
        apply (heff.inv h.inv ?_).perm (objectsOf_given hfind hmem)
        intro j o hchange
        obtain ⟨rfl, rfl⟩ := Change.given.inj hchange
        exact hlive
      · have hstep : s.step (.free object size) = s := if_neg hmem
        rw [hstep]
        exact h
  | write address value =>
      by_cases hmay : MayWrite s address
      · have hstep : s.step (.write address value) =
            { s with phys := { s.phys with bytes := Function.update s.phys.bytes address value } } := if_pos hmay
        rw [hstep]
        exact ⟨inv_write h hmay value, h.mPhysicalMemory, h.found⟩
      · have hstep : s.step (.write address value) = s := if_neg hmay
        rw [hstep]
        exact h
  | otherAllocate pageCount alignmentPages =>
      obtain ⟨hready, hsound⟩ :=
        PhysicalMemoryManager.sound_allocateAligned h.inv.ready h.inv.sound pageCount alignmentPages
      exact ⟨⟨hready, hsound, h.inv.sizes, h.inv.filled⟩, h.mPhysicalMemory, h.found⟩
  | otherFree address =>
      by_cases hres : Reserved s address
      · have hstep : s.step (.otherFree address) = s := if_pos hres
        rw [hstep]
        exact h
      · have hstep : s.step (.otherFree address) = { s with phys := s.phys.freePage address } := if_neg hres
        rw [hstep]
        exact ⟨inv_otherFree h hres, h.mPhysicalMemory, h.found⟩

theorem good_start (m : SlabAllocator) (pmm : PhysicalMemoryManager) (image : KernelImage) {boot : BootInfo}
    (bytes : Lib.Bytes) (hb : PhysicalMemoryManager.Accepts boot) : Good (start m pmm image boot bytes) :=
  ⟨inv_init m (PhysicalMemoryManager.ready_init pmm image bytes hb), rfl, fun o ho => absurd ho (by simp [start])⟩

/-! ## Every run -/

theorem Good.intact (h : Good s) : Intact s := by
  intro i
  obtain ⟨nodes, hnodes⟩ := h.inv.filled i
  refine ⟨nodes, hnodes.linked, ?_, fun node hnode => ?_, fun node hnode q object hobject => ?_, hnodes.free.symm, ?_⟩
  · exact (List.nodup_append.mp (h.inv.nodup hnodes)).1
  · obtain ⟨hne, hpage, hslot⟩ := h.inv.mem_objects (hnodes.node_mem hnode)
    exact ⟨hne, hslot, dvd_of_mem_objects hpage (h.inv.objectSize i) hslot⟩
  · rw [h.liveOf] at hobject
    exact h.inv.node_apart hnodes hnode hobject
  · have hlen := hnodes.slots.length_eq
    rw [List.length_append] at hlen
    rw [h.liveOf, hnodes.free, hnodes.total]
    omega

/-- A list of no free object belongs to a cache without one. -/
theorem freeObjects_of_empty {nodes : List UInt64} (hnodes : IntactCache s i nodes)
    (hlist : (s.slab.mCaches i).freeList = 0) : (s.slab.mCaches i).freeObjects = 0 := by
  have hlinked := hnodes.linked
  rw [hlist, Lib.Bytes.linked_zero_iff] at hlinked
  apply UInt64.toNat_inj.mp
  rw [← hnodes.free, hlinked]
  rfl

theorem Good.answers (h : Good s) (size : UInt64) : Answers s size := by
  rcases allocate_cases h.inv h.mPhysicalMemory size with ⟨hfail, hwhy⟩ | ⟨i, hfind, hne, heff⟩
  · refine ⟨fun hne => ?_, fun hsize _ => ?_⟩
    · rw [hfail] at hne
      exact absurd rfl hne
    · obtain ⟨i, hi⟩ := cacheFor_isSome hsize
      have hfind := (findCache_eq h.inv.sizes size).trans hi
      obtain ⟨hlist, hpage⟩ := hwhy i hfind
      obtain ⟨nodes, hnodes⟩ := h.intact i
      refine ⟨i, hfind, freeObjects_of_empty hnodes hlist, ?_⟩
      by_cases hzero : (s.slab.mCaches i).page = 0
      · exact Or.inr (hpage hzero)
      · exact Or.inl hzero
  · refine ⟨fun _ => ⟨i, hfind, fun q object hobject => ?_⟩, fun _ hnull => absurd hnull hne⟩
    rw [h.liveOf] at hobject
    -- the object is a free one of the cache, as it is or after it has grown
    have hfree : ∀ {m : SlabAllocator} {p : Physical}, Inv m p (objectsOf s.live) →
        (∀ j, (m.mCaches j).objectSize = (s.slab.mCaches j).objectSize) →
        ∀ {m' p' a}, Effect m p (.taken i a) m' p' → object ≠ a ∧
          (s.objectRange i a).Apart (s.objectRange q object) := by
      intro m p hinv hsizes m' p' a he
      cases he with
      | taken i hlist =>
          obtain ⟨nodes, hnodes⟩ := hinv.filled i
          obtain ⟨rest, rfl, -⟩ := hnodes.take hlist
          have hapart := hinv.node_apart hnodes List.mem_cons_self hobject
          rw [hsizes, hsizes] at hapart
          refine ⟨?_, hapart⟩
          have hself : ∀ (a : UInt64) j, a ∈ s.objectRange j a := by
            intro a j
            rw [Lib.ByteRange.mem_iff]
            simpa [Run.objectRange] using (h.inv.objectSize j).pos
          intro heq
          rw [← heq] at hapart
          exact hapart object (hself object i) (hself object q)
    rcases heff with heff | ⟨page, m₁, p₁, hgrow, heff⟩
    · exact hfree h.inv (fun _ => rfl) heff
    · exact hfree (hgrow.inv h.inv (by simp)) hgrow.objectSize heff

/-- **The free lists stay intact.** In every state of every run the free list of every cache is as `IntactCache` says,
    and `Allocate` answers as `Answers` says. -/
theorem integrity (m : SlabAllocator) (pmm : PhysicalMemoryManager) (image : KernelImage) (boot : BootInfo)
    (bytes : Lib.Bytes) (hb : PhysicalMemoryManager.Accepts boot) (as : List Action) :
    Lib.Throughout step (fun s => Intact s ∧ ∀ size, Answers s size) (start m pmm image boot bytes) as := by
  apply Lib.Throughout.mono fun s (h : Good s) => ⟨h.intact, h.answers⟩
  exact Lib.throughout_of_invariant (fun _ a h => h.step a) (good_start m pmm image bytes hb) as

open PhysicalMemoryManager (smallImage smallBoot smallMap)

/-- On a small machine: two objects of the first cache, one of them freed. -/
theorem integrity_small :
    Lib.Throughout step (fun s => Intact s ∧ ∀ size, Answers s size) (start {} {} smallImage smallBoot smallMap)
      [.prime, .allocate 24, .allocate 32, .free 0x100FE0 24] :=
  integrity {} {} smallImage smallBoot smallMap (by decide) _

end Run
end SlabAllocator
end UefiBoot
