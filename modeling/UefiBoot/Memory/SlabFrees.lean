import UefiBoot.Memory.SlabRuns

/-!
# `Memory.SlabFrees` — `Free` with any arguments

`Memory.SlabRuns` calls `Free` on objects in use only. Here it is called with any pointer and any size. Its one test
is that the pointer lies in the page of the cache, so it refuses what lies elsewhere and takes everything that does:
an object that is free already, or an address in the middle of one. `Fits` leaves these out, and `Exactly` is what
a caller would expect of the answer; `exact_iff` says that the one comes to the other.
-/

namespace UefiBoot
namespace SlabAllocator
namespace Run

/-- The object is one in use of the cache that the size selects. -/
def InUse (s : Run) (object size : UInt64) : Prop := ∃ i, s.slab.findCache size = some i ∧ object ∈ s.liveOf i

/-- One call. `Free` is called with any arguments, and an object that it takes back is in use no longer. -/
def call (s : Run) : Action → Run
  | .free object size =>
    { slab := (s.slab.free object size s.phys).2.1
      phys := (s.slab.free object size s.phys).2.2
      live := s.live.eraseP fun o => decide (o.1 = object ∧ s.slab.findCache o.2 = s.slab.findCache size) }
  | a => s.step a

/-- A `Free` of something that is in the page of the cache is of an object in use. -/
def Fits (s : Run) : Action → Prop
  | .free object size =>
    ∀ i, s.slab.findCache size = some i → (s.slab.mCaches i).contains object = true → object ∈ s.liveOf i
  | _ => True

/-- `Free` returns true for objects in use only, and otherwise leaves the lists and the counters as they are. -/
def Exactly (s : Run) : Action → Prop
  | .free object size =>
    ((s.slab.free object size s.phys).1 = true → s.InUse object size) ∧
    (¬ s.InUse object size → (s.slab.free object size s.phys).1 = false ∧
      ∀ i, ((s.call (.free object size)).slab.mCaches i).freeList = (s.slab.mCaches i).freeList ∧
        ((s.call (.free object size)).slab.mCaches i).freeObjects = (s.slab.mCaches i).freeObjects)
  | _ => True

/-- No cache has more free objects than objects. -/
def Bounded (s : Run) : Prop := ∀ i, (s.slab.mCaches i).freeObjects ≤ (s.slab.mCaches i).totalObjects

variable {s : Run} {object size : UInt64} {i : Fin kSlabCacheCount}

/-! ## One call -/

/-- What `Free` refuses. -/
theorem free_refused (h : ∀ i, s.slab.findCache size = some i → (s.slab.mCaches i).contains object = false) :
    s.slab.free object size s.phys = (false, s.slab, s.phys) := by
  unfold free
  split_ifs with hnull
  · rfl
  · cases hfind : s.slab.findCache size with
    | none => rfl
    | some i =>
        have hout := h i hfind
        dsimp only
        rw [hout]
        rfl

/-- What `Free` takes: a pointer into a page is not null. -/
theorem free_taken (hfind : s.slab.findCache size = some i) (hin : (s.slab.mCaches i).contains object = true) :
    (s.slab.free object size s.phys).1 = true := by
  have hnull : object ≠ 0 := by
    rintro rfl
    unfold SlabCache.contains at hin
    simp only [Bool.and_eq_true, bne_iff_ne, decide_eq_true_eq] at hin
    obtain ⟨⟨hpage, hle⟩, -⟩ := hin
    rw [ge_iff_le, UInt64.le_iff_toNat_le] at hle
    have hzero : (0 : UInt64).toNat = 0 := rfl
    exact hpage (UInt64.toNat_inj.mp (by omega))
  unfold free
  rw [if_neg hnull, hfind]
  dsimp only
  rw [hin]
  rfl

theorem fits_iff_exactly (a : Action) : s.Fits a ↔ s.Exactly a := by
  cases a with
  | free object size =>
      constructor
      · intro hfits
        refine ⟨fun htrue => ?_, fun hno => ?_⟩
        · by_contra hno
          rw [free_refused fun i hi => ?_] at htrue
          · exact absurd htrue (by simp)
          · exact Bool.eq_false_iff.mpr fun hin => hno ⟨i, hi, hfits i hi hin⟩
        · have hrefused := free_refused (s := s) fun i hi =>
            Bool.eq_false_iff.mpr fun hin => hno ⟨i, hi, hfits i hi hin⟩
          unfold call
          dsimp only
          rw [hrefused]
          exact ⟨rfl, fun _ => ⟨rfl, rfl⟩⟩
      · rintro ⟨htrue, -⟩ i hi hin
        obtain ⟨q, hq, hlive⟩ := htrue (free_taken hi hin)
        rw [hi] at hq
        obtain rfl := Option.some.inj hq
        exact hlive
  | _ => exact iff_of_true trivial trivial

/-! ## Runs -/

/-- The object that is taken back is taken off the list of those in use. -/
theorem perm_eraseP (h : Good s) (hfind : cacheFor size = some i) (hlive : object ∈ objectsOf s.live i)
    (q : Fin kSlabCacheCount) :
    ((Change.given i object).inUse (objectsOf s.live) q).Perm (objectsOf (s.call (.free object size)).live q) := by
  have hfound : ∀ size, s.slab.findCache size = cacheFor size := findCache_eq h.inv.sizes
  unfold objectsOf at hlive
  obtain ⟨entry, hentry, rfl⟩ := List.mem_map.mp hlive
  obtain ⟨hmem, hcache⟩ := List.mem_filter.mp hentry
  obtain ⟨first, before, after, -, hfirst, hsplit, herase⟩ := List.exists_of_eraseP
    (p := fun o => decide (o.1 = entry.1 ∧ s.slab.findCache o.2 = s.slab.findCache size)) hmem
    (by simpa [hfound, hfind] using hcache)
  simp only [decide_eq_true_eq, hfound, hfind] at hfirst
  obtain ⟨hobject, hcacheFirst⟩ := hfirst
  have hperm : s.live.Perm (first :: (s.call (.free entry.1 size)).live) := by
    show s.live.Perm (first :: s.live.eraseP _)
    rw [herase, hsplit]
    exact List.perm_middle
  have hdrop := objectsOf_drop hcacheFirst hperm q
  rwa [hobject] at hdrop

/-- **Step lemma.** -/
theorem Good.call (h : Good s) (a : Action) (hfits : s.Fits a) : Good (s.call a) := by
  cases a with
  | free object size =>
      by_cases huse : s.InUse object size
      · obtain ⟨i, hfind, hlive⟩ := huse
        rw [h.liveOf] at hlive
        have hcache := (findCache_eq h.inv.sizes size).symm.trans hfind
        obtain ⟨-, heff⟩ := free_live h.inv hfind hlive
        refine ⟨?_, heff.mPhysicalMemory.trans h.mPhysicalMemory, fun o ho => h.found o (List.mem_of_mem_eraseP ho)⟩
        apply (heff.inv h.inv ?_).perm (perm_eraseP h hcache hlive)
        intro j o hchange
        obtain ⟨rfl, rfl⟩ := Change.given.inj hchange
        exact hlive
      · -- nothing of that address is in use, so nothing leaves the list
        have hrefused := free_refused (s := s) fun i hi =>
          Bool.eq_false_iff.mpr fun hin => huse ⟨i, hi, hfits i hi hin⟩
        have hlist : s.live.eraseP (fun o => decide (o.1 = object ∧ s.slab.findCache o.2 = s.slab.findCache size)) =
            s.live := by
          apply List.eraseP_of_forall_not
          intro o ho hboth
          obtain ⟨hobject, hcache⟩ := of_decide_eq_true hboth
          obtain ⟨i, hi⟩ := h.found o ho
          have hfind : s.slab.findCache o.2 = some i := (findCache_eq h.inv.sizes o.2).trans hi
          refine huse ⟨i, hcache.symm.trans hfind, ?_⟩
          rw [h.liveOf, ← hobject]
          exact mem_objectsOf hi ho
        have hsame : s.call (.free object size) = s := by
          unfold Run.call
          dsimp only
          rw [hrefused, hlist]
        rw [hsame]
        exact h
  | prime => exact h.step .prime
  | allocate size => exact h.step (.allocate size)
  | write address value => exact h.step (.write address value)
  | otherAllocate pageCount alignmentPages => exact h.step (.otherAllocate pageCount alignmentPages)
  | otherFree address => exact h.step (.otherFree address)

theorem Good.bounded (h : Good s) : Bounded s := by
  intro i
  obtain ⟨nodes, hnodes⟩ := h.intact i
  have htotal := hnodes.total
  rw [UInt64.le_iff_toNat_le]
  omega

/-! ## A double free -/

/-- The caches after a `Free` that is taken. -/
theorem free_eq (hfind : s.slab.findCache size = some i) (hin : (s.slab.mCaches i).contains object = true) :
    (s.call (.free object size)).slab = s.slab.setCache i ((s.slab.mCaches i).give object) := by
  have htrue := free_taken hfind hin
  show (s.slab.free object size s.phys).2.1 = _
  unfold free at htrue ⊢
  split_ifs at htrue ⊢ with hnull
  rw [hfind]
  dsimp only
  rw [hin]
  rfl

/-- What lies in a page is there for the next `Free` as well. -/
theorem contains_call (hfind : s.slab.findCache size = some i) (hin : (s.slab.mCaches i).contains object = true) :
    ((s.call (.free object size)).slab.mCaches i).contains object = true := by
  rw [free_eq hfind hin, setCache_apply, if_pos rfl]
  exact hin

/-- An object in use lies in the page of its cache. -/
theorem Good.contains (h : Good s) (hfind : s.slab.findCache size = some i) (hlive : object ∈ s.liveOf i) :
    (s.slab.mCaches i).contains object = true := by
  rw [h.liveOf] at hlive
  obtain ⟨htrue, -⟩ := free_live h.inv hfind hlive
  by_contra hout
  rw [free_refused fun q hq => ?_] at htrue
  · exact absurd htrue (by simp)
  · obtain rfl := Option.some.inj (hfind.symm.trans hq)
    exact Bool.eq_false_iff.mpr hout

/-- **A double free.** An object that has been taken back is taken back again. -/
theorem Good.double_free (h : Good s) (huse : s.InUse object size) :
    ¬ (s.call (.free object size)).Exactly (.free object size) := by
  obtain ⟨i, hfind, hlive⟩ := huse
  have hin := h.contains hfind hlive
  have hafter : Good (s.call (.free object size)) := h.call _ fun q hq _ => by
    obtain rfl := Option.some.inj (hfind.symm.trans hq)
    exact hlive
  have hcache := (findCache_eq h.inv.sizes size).symm.trans hfind
  have hfind' := (findCache_eq hafter.inv.sizes size).trans hcache
  rw [← fits_iff_exactly]
  intro hfits
  have hagain := hfits i hfind' (contains_call hfind hin)
  -- every object in use is there once, and this one has left the list
  rw [hafter.liveOf] at hagain
  rw [h.liveOf] at hlive
  have hmem := (perm_eraseP h hcache hlive i).mem_iff.mpr hagain
  rw [Change.inUse_given, Function.update_self] at hmem
  obtain ⟨nodes, hnodes⟩ := h.inv.filled i
  have hnodup := (List.nodup_append.mp (h.inv.nodup hnodes)).2.1
  exact (List.Nodup.not_mem_erase hnodup) hmem

/-- Once the only object in use of a cache is taken back twice, the cache has more free objects than objects. -/
theorem Good.overfull (h : Good s) (hfind : s.slab.findCache size = some i) (hlive : object ∈ s.liveOf i)
    (hone : (s.liveOf i).length ≤ 1) :
    ¬ Bounded ((s.call (.free object size)).call (.free object size)) := by
  have hin := h.contains hfind hlive
  have hafter : Good (s.call (.free object size)) := h.call (.free object size) fun q hq _ => by
    obtain rfl := Option.some.inj (hfind.symm.trans hq)
    exact hlive
  have hcache := (findCache_eq h.inv.sizes size).symm.trans hfind
  have hfind' := (findCache_eq hafter.inv.sizes size).trans hcache
  rw [h.liveOf] at hlive hone
  -- all objects of the cache are free after the first call
  have hempty : ((s.call (.free object size)).liveOf i).length = 0 := by
    have hlen := (perm_eraseP h hcache hlive i).length_eq
    rw [Change.inUse_given, Function.update_self, List.length_erase_of_mem hlive] at hlen
    rw [hafter.liveOf]
    omega
  obtain ⟨nodes, hnodes⟩ := hafter.intact i
  have htotal := hnodes.total
  rw [hempty, Nat.zero_add] at htotal
  obtain ⟨nodes, hfilled⟩ := hafter.inv.filled i
  have hslots := hfilled.total
  intro hbounded
  have hle := hbounded i
  rw [free_eq hfind' (contains_call hfind hin), setCache_apply, if_pos rfl, UInt64.le_iff_toNat_le] at hle
  -- the count of a page is far from wrapping
  have hbound : ((s.call (.free object size)).slab.mCaches i).slots.length ≤ 4096 := by
    by_cases hpage : ((s.call (.free object size)).slab.mCaches i).page = 0
    · rw [SlabCache.slots_none hpage]
      exact Nat.zero_le _
    · rw [SlabCache.slots_page hpage, length_objects]
      exact Nat.div_le_self _ _
  rw [SlabCache.give_freeObjects, SlabCache.give_totalObjects, UInt64.toNat_add] at hle
  have hnum : (1 : UInt64).toNat = 1 := rfl
  omega

/-! ## Every run -/

/-- **When `Free` answers exactly.** The answers of a run are those that a caller expects if and only if every `Free`
    of something in the page of its cache is of an object in use, and then no cache ever has more free objects than
    objects. -/
theorem exact_iff (m : SlabAllocator) (pmm : PhysicalMemoryManager) (image : KernelImage) (boot : BootInfo)
    (bytes : Lib.Bytes) (hb : PhysicalMemoryManager.Accepts boot) (as : List Action) :
    (Lib.Along call Exactly (start m pmm image boot bytes) as ↔ Lib.Along call Fits (start m pmm image boot bytes) as) ∧
    (Lib.Along call Fits (start m pmm image boot bytes) as →
      Lib.Throughout call Bounded (start m pmm image boot bytes) as) := by
  refine ⟨Lib.along_congr fun s a => (fits_iff_exactly a).symm, fun hfits => ?_⟩
  apply Lib.Throughout.mono fun s (h : Good s) => h.bounded
  exact Lib.throughout_of_along (fun _ a h hfit => h.call a hfit) (good_start m pmm image bytes hb) hfits

/-- The object that `Allocate` returns. -/
def answer (s : Run) (size : UInt64) : UInt64 := (s.slab.allocate size s.phys).1

theorem live_allocate (h : s.answer size ≠ 0) :
    (s.call (.allocate size)).live = (s.answer size, size) :: s.live := if_neg h

/-- The caches start without a page, so the first object of one needs a page only. -/
theorem start_allocate (m : SlabAllocator) (pmm : PhysicalMemoryManager) (image : KernelImage) {boot : BootInfo}
    (bytes : Lib.Bytes) (hb : PhysicalMemoryManager.Accepts boot) (hcache : cacheFor size = some i)
    (hpage : (pmm.init image boot bytes).2.allocatePage.1 ≠ 0) :
    (start m pmm image boot bytes).answer size ≠ 0 := by
  have hstart := good_start m pmm image bytes hb
  rcases allocate_cases hstart.inv hstart.mPhysicalMemory size with ⟨-, hwhy⟩ | ⟨i, -, hne, -⟩
  · have hfind := (findCache_eq hstart.inv.sizes size).trans hcache
    exact absurd ((hwhy i hfind).2 rfl) hpage
  · exact hne

open PhysicalMemoryManager (smallImage smallBoot smallMap allocatePage_small)

/-- The first object that the small machine gives out. -/
def firstObject : UInt64 := (start {} {} smallImage smallBoot smallMap).answer 32

/-- The machine once it has given out its first object. -/
def primed : Run := (start {} {} smallImage smallBoot smallMap).call (.allocate 32)

theorem primed_good : Good primed ∧ primed.live = [(firstObject, 32)] := by
  have hb : PhysicalMemoryManager.Accepts smallBoot := by decide
  have hcache : cacheFor 32 = some 0 := by decide +kernel
  have hne : firstObject ≠ 0 := start_allocate {} {} smallImage smallMap hb hcache (allocatePage_small {}).1
  have hstart := good_start {} {} smallImage smallMap hb
  exact ⟨hstart.call (.allocate 32) trivial, live_allocate hne⟩

theorem primed_inUse : primed.InUse firstObject 32 := by
  obtain ⟨hgood, hlive⟩ := primed_good
  have hcache : cacheFor 32 = some 0 := by decide +kernel
  refine ⟨0, (findCache_eq hgood.inv.sizes 32).trans hcache, ?_⟩
  rw [hgood.liveOf, hlive]
  exact mem_objectsOf hcache List.mem_cons_self

/-- The object is allocated and freed. -/
theorem exact_iff_small :
    Lib.Along call Exactly (start {} {} smallImage smallBoot smallMap) [.allocate 32, .free firstObject 32] := by
  refine (exact_iff {} {} smallImage smallBoot smallMap (by decide) _).1.mpr ⟨trivial, fun i hi _ => ?_, trivial⟩
  obtain ⟨q, hq, hlive⟩ := primed_inUse
  obtain rfl := Option.some.inj (hq.symm.trans hi)
  exact hlive

/-- **A double free is taken.** The object is in use no longer, but it lies in the page: `Free` returns true, and the
    cache has more free objects than objects. -/
theorem double_free_taken :
    let s := Lib.run call (start {} {} smallImage smallBoot smallMap) [.allocate 32, .free firstObject 32]
    ¬ s.Exactly (.free firstObject 32) ∧ ¬ Bounded (s.call (.free firstObject 32)) := by
  intro s
  obtain ⟨hgood, hone⟩ := primed_good
  have huse := primed_inUse
  refine ⟨hgood.double_free huse, ?_⟩
  obtain ⟨i, hfind, hlive⟩ := huse
  refine hgood.overfull hfind hlive ?_
  rw [hgood.liveOf, hone]
  unfold objectsOf
  rw [List.length_map]
  exact List.length_filter_le _ _

end Run
end SlabAllocator
end UefiBoot
