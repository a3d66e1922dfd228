import UefiBoot.Lib.Run
import UefiBoot.Memory.Rollback

/-!
# `Memory.MappingRuns` — mappings over whole runs

A run mixes `Map`, `HandlePageFault` and `Unmap` with evictions from the page cache, allocations by others, and
frees by others of frames that neither a mapping nor the cache has.

`m_NextAddress` only grows. `Good` is the invariant of the runs in which it does not come round to 0. In such runs
the mappings are apart, a page keeps its frame until `Unmap`, and what `Unmap` gives back it gives back once
(`mappings_apart`); and a `Map` that fails takes everything back exactly when it does not end past the last address
(`mapFails_iff`). `map_wraps` is what happens when it does.
-/

namespace UefiBoot
namespace Mapped

variable {s t : Mapped} {i : Fin kMemoryMappingCount} {a : UInt64}

inductive Action where
  | map (fileId length : UInt64) (writable demandPaged : Bool)
  | handlePageFault (address : UInt64) (write : Bool)
  | unmap (address : UInt64)
  /-- Somebody calls `PageCache::Evict`. -/
  | evict (fileId pageOffset : UInt64)
  /-- Somebody else calls `AllocateAligned`. -/
  | otherAllocate (pageCount alignmentPages : UInt64)
  /-- Somebody else calls `FreePage`. -/
  | otherFree (address : UInt64)
  deriving DecidableEq, Repr

/-- The allocator after its `Init`, and the cache and the mappings after theirs. -/
def start (m : MemoryMappingManager) (c : PageCache) (pmm : PhysicalMemoryManager) (image : KernelImage)
    (boot : BootInfo) (bytes : Lib.Bytes) : Mapped :=
  { maps := m.init, cache := c.init, phys := { pmm := (pmm.init image boot bytes).2, bytes := bytes } }

/-- The page of the address is in a frame of a mapping or of the cache, or it is page 0. -/
def Reserved (s : Mapped) (address : UInt64) : Prop :=
  pageOf address = 0 ∨
    (∃ (i : Fin kMemoryMappingCount) (k : Fin kMappingMaxPages),
      ((s.maps.mMappings i).frame k).any (fun b => pageOf b == pageOf address) = true) ∨
    ∃ e, ((s.cache.mEntries e).frame).any (fun b => pageOf b == pageOf address) = true

instance (s : Mapped) (address : UInt64) : Decidable (Reserved s address) := by
  unfold Reserved
  infer_instance

/-- One call. Others do not free what is not theirs. -/
def step (s : Mapped) : Action → Mapped
  | .map fileId length writable demandPaged => (s.map fileId length writable demandPaged).2
  | .handlePageFault address write => (s.handlePageFault address write).2
  | .unmap address => (s.unmap address).2
  | .evict fileId pageOffset =>
    { s with
      cache := (s.cache.evict fileId pageOffset s.phys).2.1
      phys := (s.cache.evict fileId pageOffset s.phys).2.2 }
  | .otherAllocate pageCount alignmentPages =>
    { s with phys := { s.phys with pmm := (s.phys.pmm.allocateAligned pageCount alignmentPages).2 } }
  | .otherFree address => if Reserved s address then s else { s with phys := s.phys.freePage address }

/-- A `Map` that takes a slot ends below the last address. -/
def NotWrapped (s : Mapped) : Action → Prop
  | .map _ length _ _ =>
    (pageCountOf length).toNat ≤ kMappingMaxPages → s.maps.findInactive.isSome = true →
      s.maps.mNextAddress.toNat + (pageCountOf length).toNat * 4096 < 2 ^ 64
  | _ => True

/-! ## The calls of others -/

/-- An entry without references belongs to no mapping, so it may go. -/
theorem Inv.evict (h : Inv s) (fileId pageOffset : UInt64) : Inv (s.step (.evict fileId pageOffset)) := by
  show Inv { s with
    cache := (s.cache.evict fileId pageOffset s.phys).2.1
    phys := (s.cache.evict fileId pageOffset s.phys).2.2 }
  rcases PageCache.evict_effect h.cacheInv fileId pageOffset with ⟨-, hfail⟩ | ⟨e, -, -, heff⟩
  · rw [hfail]
    exact h
  · generalize (s.cache.evict fileId pageOffset s.phys).2.1 = cache at heff ⊢
    generalize (s.cache.evict fileId pageOffset s.phys).2.2 = phys at heff ⊢
    have hstep : Lib.Ledger.Steps (Lib.Ledger.mk (fun q => (s.cache.mEntries q).frame) s.phys.pmm.Taken)
        (Lib.Ledger.mk (fun q => (cache.mEntries q).frame) phys.pmm.Taken) := heff.steps h.cacheInv.sound
    refine ⟨heff.ready h.ready, (hstep.right h.sound).sound h.sound, heff.distinct h.keys, h.layout, ?_, ?_⟩
    · cases heff with
      | evicted e hactive hzero hreturns hbytes =>
          intro q f o huses
          obtain ⟨r, hr, hphysical⟩ := h.cached q f o huses
          have hne : r ≠ e := by
            rintro rfl
            have hcounted := h.counted r hactive
            rw [hzero, hr.2.1, hr.2.2] at hcounted
            exact absurd hcounted (MemoryMappingManager.references_pos huses).ne
          refine ⟨r, ?_⟩
          dsimp only
          rw [PageCache.setEntry_apply, if_neg hne]
          exact ⟨hr, hphysical⟩
    · cases heff with
      | evicted e hactive hzero hreturns hbytes =>
          intro q hq
          dsimp only at hq ⊢
          rw [PageCache.setEntry_apply] at hq ⊢
          by_cases hqe : q = e
          · rw [if_pos hqe] at hq
            exact absurd hq (by simp)
          · rw [if_neg hqe] at hq ⊢
            exact h.counted q hq

/-- A frame that is not reserved is recorded nowhere. -/
theorem Inv.not_reserved (h : Inv s) {address : UInt64} (hres : ¬ Reserved s address) :
    pageOf address ≠ 0 ∧
    ∀ p b, Sum.elim s.maps.holds (fun e => (s.cache.mEntries e).frame) p = some b → pageOf b ≠ pageOf address := by
  unfold Reserved at hres
  rw [not_or, not_or] at hres
  obtain ⟨hzero, hmaps, hcache⟩ := hres
  refine ⟨hzero, ?_⟩
  rintro (⟨q, k⟩ | e) b hb hpage
  · have hframe : (s.maps.mMappings q).frame k = some b := hb
    have hk : k < kMappingMaxPages := by
      -- an active mapping has nothing past its last page
      by_contra hk
      unfold Mapping.frame at hframe
      split at hframe
      · rename_i hcond
        obtain ⟨hactive, -, hpages⟩ := hcond
        have hplaced := h.layout.placed q hactive
        exact hpages (hplaced.past k (hplaced.count.2.trans (Nat.le_of_not_lt hk)))
      · exact absurd hframe (by simp)
    refine hmaps ⟨q, ⟨k, hk⟩, ?_⟩
    rw [hframe]
    exact beq_iff_eq.mpr hpage
  · have hframe : (s.cache.mEntries e).frame = some b := hb
    refine hcache ⟨e, ?_⟩
    rw [hframe]
    exact beq_iff_eq.mpr hpage

theorem Inv.otherAllocate (h : Inv s) (pageCount alignmentPages : UInt64) :
    Inv (s.step (.otherAllocate pageCount alignmentPages)) := by
  obtain ⟨hready, hsound⟩ := PhysicalMemoryManager.sound_allocateAligned h.ready h.sound pageCount alignmentPages
  exact ⟨hready, hsound, h.keys, h.layout, h.cached, h.counted⟩

theorem Inv.otherFree (h : Inv s) (address : UInt64) : Inv (s.step (.otherFree address)) := by
  unfold step
  dsimp only
  split
  · exact h
  · rename_i hres
    obtain ⟨hzero, hother⟩ := h.not_reserved hres
    obtain ⟨hready, hsound⟩ := PhysicalMemoryManager.sound_freePage h.ready h.sound hzero hother
    exact ⟨hready, hsound, h.keys, h.layout, h.cached, h.counted⟩

/-! ## The invariant of a run -/

/-- The state fits together, and the next address has not come round to 0. -/
structure Good (s : Mapped) : Prop where
  inv  : Inv s
  next : s.maps.mNextAddress ≠ 0

/-- The next address after a `Map`. -/
theorem map_next (s : Mapped) (fileId length : UInt64) (writable demandPaged : Bool)
    (hroom : NotWrapped s (.map fileId length writable demandPaged)) :
    s.maps.mNextAddress ≤ (s.map fileId length writable demandPaged).2.maps.mNextAddress := by
  rcases map_cases s fileId length writable demandPaged with ⟨hnothing, -⟩ | ⟨i, t, hslot, hcount, rfl, hcases⟩
  · rw [hnothing]
    exact UInt64.le_refl _
  · have hlt := hroom hcount.2 (by rw [hslot]; rfl)
    have hle : s.maps.mNextAddress ≤ s.maps.mNextAddress + pageCountOf length * kPageSize := by
      rw [UInt64.le_iff_toNat_le, UInt64.toNat_add, UInt64.toNat_mul, toNat_kPageSize]
      omega
    rcases hcases with ⟨-, hmap⟩ | ⟨-, -, hmap⟩ | ⟨-, -, hmap⟩ <;> rw [hmap]
    · exact hle
    · rw [fillLoop_next]
      exact hle
    · rw [unmap_next, fillLoop_next]
      exact hle

/-- The action ends mapping `i`. -/
def Ends (s : Mapped) (i : Fin kMemoryMappingCount) (a : Action) : Prop := a = .unmap (s.maps.mMappings i).address

/-- **Step lemma.** The invariant holds on, and so does every mapping that the action does not end. -/
theorem Good.step (h : Good s) (a : Action) (hroom : NotWrapped s a) :
    Good (s.step a) ∧ ∀ q, (s.maps.mMappings q).active = true → ¬ Ends s q a →
      Kept (s.maps.mMappings q) ((s.step a).maps.mMappings q) := by
  obtain ⟨hinv, hnext⟩ := h
  have hsame : ∀ {t : Mapped}, t.maps = s.maps → ∀ q, (s.maps.mMappings q).active = true →
      Kept (s.maps.mMappings q) (t.maps.mMappings q) := by
    intro t hmaps q hq
    rw [hmaps]
    exact .refl hq
  cases a with
  | map fileId length writable demandPaged =>
      have hle := map_next s fileId length writable demandPaged hroom
      obtain ⟨hinv', hkept⟩ := hinv.map fileId length writable demandPaged hle
      refine ⟨⟨hinv', fun hzero => ?_⟩, fun q hq _ => hkept q hq⟩
      have hzero' : (s.map fileId length writable demandPaged).2.maps.mNextAddress = 0 := hzero
      rw [hzero', UInt64.le_iff_toNat_le] at hle
      exact hnext (UInt64.toNat_inj.mp (Nat.le_zero.mp hle))
  | handlePageFault address write =>
      obtain ⟨hinv', hsame', hkept⟩ := hinv.handlePageFault address write
      refine ⟨⟨hinv', ?_⟩, fun q hq _ => hkept q hq⟩
      show (s.handlePageFault address write).2.maps.mNextAddress ≠ 0
      rw [hsame']
      exact hnext
  | unmap address =>
      obtain ⟨hinv', hkept⟩ := hinv.unmap address
      refine ⟨⟨hinv', ?_⟩, fun q hq hnot => hkept q hq fun heq => hnot (heq ▸ rfl)⟩
      show (s.unmap address).2.maps.mNextAddress ≠ 0
      rw [unmap_next]
      exact hnext
  | evict fileId pageOffset => exact ⟨⟨hinv.evict fileId pageOffset, hnext⟩, fun q hq _ => hsame rfl q hq⟩
  | otherAllocate pageCount alignmentPages =>
      exact ⟨⟨hinv.otherAllocate pageCount alignmentPages, hnext⟩, fun q hq _ => hsame rfl q hq⟩
  | otherFree address =>
      have hmaps : (s.step (.otherFree address)).maps = s.maps := by
        unfold Mapped.step
        dsimp only
        split <;> rfl
      refine ⟨⟨hinv.otherFree address, ?_⟩, fun q hq _ => hsame hmaps q hq⟩
      rw [hmaps]
      exact hnext

theorem good_start (m : MemoryMappingManager) (c : PageCache) (pmm : PhysicalMemoryManager) (image : KernelImage)
    {boot : BootInfo} (bytes : Lib.Bytes) (hb : PhysicalMemoryManager.Accepts boot) :
    Good (start m c pmm image boot bytes) := by
  have hready : (start m c pmm image boot bytes).phys.pmm.Ready := PhysicalMemoryManager.ready_init pmm image bytes hb
  have hmaps : ∀ q, ((start m c pmm image boot bytes).maps.mMappings q).active = false := fun _ => rfl
  have hidle : ∀ q, ¬ ((start m c pmm image boot bytes).maps.mMappings q).active = true := by
    intro q
    rw [hmaps]
    exact Bool.false_ne_true
  have hempty : ∀ p b, Sum.elim (start m c pmm image boot bytes).maps.holds
      (fun e => ((start m c pmm image boot bytes).cache.mEntries e).frame) p ≠ some b := by
    rintro (⟨q, k⟩ | e) b
    · show ((start m c pmm image boot bytes).maps.mMappings q).frame k ≠ some b
      unfold Mapping.frame
      rw [if_neg fun h => hidle q h.1]
      exact (Option.some_ne_none b).symm
    · exact (Option.some_ne_none b).symm
  refine ⟨⟨hready, ?_, ?_, ⟨?_, ?_, ?_⟩, ?_, ?_⟩, ?_⟩
  · refine ⟨fun hp => absurd hp (hempty _ _), fun hp => absurd hp (hempty _ _), hready.taken_zero, ?_⟩
    exact fun hp => absurd hp (hempty _ _)
  · exact fun _ _ _ _ he => absurd he.1 Bool.false_ne_true
  · show (0x40000000 : UInt64).toNat % 4096 = 0
    decide
  · exact fun q hq => absurd hq (hidle q)
  · exact fun q _ hq => absurd hq (hidle q)
  · exact fun q _ _ hq => absurd hq.1 (hidle q)
  · exact fun e he => absurd he Bool.false_ne_true
  · show (0x40000000 : UInt64) ≠ 0
    decide

/-! ## Apart, and kept until `Unmap` -/

/-- **Where mappings and frames are.** -/
structure Placement (s : Mapped) : Prop where
  /-- The ranges of active mappings are disjoint. -/
  clear  : ∀ i j, (s.maps.mMappings i).active = true → (s.maps.mMappings j).active = true → i ≠ j →
    (s.maps.mMappings i).Clear (s.maps.mMappings j)
  /-- `Find` answers the mapping that contains the address; there is one at most. -/
  found  : ∀ address i, s.maps.find address = some i ↔ (s.maps.mMappings i).active = true ∧
    (s.maps.mMappings i).address.toNat ≤ address.toNat ∧
    address.toNat < (s.maps.mMappings i).address.toNat + (s.maps.mMappings i).size
  /-- An index stays inside the mapping. -/
  index  : ∀ address i, s.maps.find address = some i →
    (s.maps.mMappings i).pageIndex address < (s.maps.mMappings i).pageCount.toNat ∧
    (s.maps.mMappings i).pageCount.toNat ≤ kMappingMaxPages
  /-- Two pages of anonymous mappings have two frames. -/
  frames : ∀ p q b, s.maps.holds p = some b → s.maps.holds q = some b → p = q

theorem Inv.placement (h : Inv s) : Placement s := by
  refine ⟨h.layout.clear, fun _ _ => h.layout.find_iff, fun _ _ => h.layout.page_lt, fun p q b hp hq => ?_⟩
  exact h.sound.left.unique hp hq

/-- **What the end of mapping `i` gives back**: each frame once, or one reference for each page of a file. -/
structure Released (s : Mapped) (i : Fin kMemoryMappingCount) (t : Mapped) : Prop where
  maps      : t.maps = s.maps.setMapping i { s.maps.mMappings i with active := false }
  anonymous : (s.maps.mMappings i).fileId = 0 → t.cache = s.cache ∧
    (s.maps.mMappings i).materialised.Nodup ∧ (∀ b ∈ (s.maps.mMappings i).materialised, s.phys.pmm.Taken b) ∧
    t.phys.pmm = s.phys.pmm.freePages (s.maps.mMappings i).materialised
  file      : (s.maps.mMappings i).fileId ≠ 0 → t.phys = s.phys ∧
    (∀ page < (s.maps.mMappings i).pageCount.toNat, (s.maps.mMappings i).pages page ≠ 0 →
      ∃ e, (s.cache.mEntries e).Caches (s.maps.mMappings i).fileId (UInt64.ofNat page) ∧
        (s.cache.mEntries e).physical = (s.maps.mMappings i).pages page) ∧
    ∀ e, ∃ references, t.cache.mEntries e = (s.cache.mEntries e).withReferences references ∧
      references.toNat + (if (s.cache.mEntries e).active = true ∧ (s.maps.mMappings i).Uses
          (s.cache.mEntries e).fileId (s.cache.mEntries e).pageOffset then 1 else 0) =
        (s.cache.mEntries e).references.toNat

/-- The frames of a mapping are distinct and in use. -/
theorem Inv.materialised (h : Inv s) (hactive : (s.maps.mMappings i).active = true)
    (hfile : (s.maps.mMappings i).fileId = 0) :
    (s.maps.mMappings i).materialised.Nodup ∧ ∀ b ∈ (s.maps.mMappings i).materialised, s.phys.pmm.Taken b := by
  have hholds : ∀ page, (s.maps.mMappings i).pages page ≠ 0 →
      s.maps.holds (i, page) = some ((s.maps.mMappings i).pages page) :=
    fun page hpage => if_pos ⟨hactive, hfile, hpage⟩
  unfold Mapping.materialised
  constructor
  · rw [List.filter_map]
    refine List.Nodup.map_on (fun page hpage q hq heq => ?_) (List.nodup_range.filter _)
    have hpage' := of_decide_eq_true (List.mem_filter.mp hpage).2
    have hq' := of_decide_eq_true (List.mem_filter.mp hq).2
    have hsame := h.placement.frames (i, page) (i, q) _ (hholds page hpage') (heq ▸ hholds q hq')
    exact congrArg Prod.snd hsame
  · intro b hb
    obtain ⟨hmem, hnz⟩ := List.mem_filter.mp hb
    obtain ⟨page, -, rfl⟩ := List.mem_map.mp hmem
    exact h.sound.left.taken (hholds page (of_decide_eq_true hnz))

/-- **`Unmap`** gives back what the mapping has. -/
theorem Inv.released (h : Inv s) (hactive : (s.maps.mMappings i).active = true) :
    Released s i (s.unmap (s.maps.mMappings i).address).2 := by
  have hmaps := unmap_maps h hactive
  refine ⟨hmaps, fun hfile => ?_, fun hfile => ?_⟩
  · obtain ⟨hcache, hpmm⟩ := unmap_anonymous h hactive hfile
    obtain ⟨hnodup, htaken⟩ := h.materialised hactive hfile
    exact ⟨hcache, hnodup, htaken, hpmm⟩
  · obtain ⟨hrecounts, hphys⟩ := unmap_file h hactive hfile
    refine ⟨hphys, fun page hpage hne => ?_, fun e => ?_⟩
    · obtain ⟨e, he, hphysical, -⟩ := h.release_page hactive (h.max hactive hpage) hfile hne
      exact ⟨e, he, hphysical⟩
    · obtain ⟨references, hentry, hsame⟩ := hrecounts e
      refine ⟨references, hentry, ?_⟩
      cases he : (s.cache.mEntries e).active with
      | false =>
          rw [if_neg fun hbad => absurd hbad.1 Bool.false_ne_true, hsame he]
          rfl
      | true =>
          -- both counts are those of the mappings, and one mapping is less
          have hcounted := h.counted e he
          have hcounted' := (h.unmap_found hactive).counted e (by rw [hentry]; exact he)
          have hsum := s.maps.references_setMapping i { s.maps.mMappings i with active := false }
            (s.cache.mEntries e).fileId (s.cache.mEntries e).pageOffset
          have hended : ¬ ({ s.maps.mMappings i with active := false } : Mapping).Uses
              (s.cache.mEntries e).fileId (s.cache.mEntries e).pageOffset :=
            fun hbad => absurd hbad.1 Bool.false_ne_true
          rw [hentry, hmaps] at hcounted'
          rw [if_neg hended] at hsum
          simp only [true_and]
          rw [CacheEntry.withReferences_references, CacheEntry.withReferences_fileId,
            CacheEntry.withReferences_pageOffset] at hcounted'
          omega

/-- **What one step does.** -/
structure Guarantee (s : Mapped) (a : Action) : Prop where
  /-- A write fault on a read-only mapping answers 0 and changes nothing. -/
  readOnly : ∀ address i, a = .handlePageFault address true → s.maps.find address = some i →
    (s.maps.mMappings i).writable = false → s.handlePageFault address true = (0, s)
  /-- An `Unmap` that succeeds ends the mapping at that address. -/
  unmaps   : ∀ address, a = .unmap address → (s.unmap address).1 = true →
    ∃ i, (s.maps.mMappings i).active = true ∧ (s.maps.mMappings i).address = address ∧ Released s i (s.step a)

theorem Inv.guarantee (h : Inv s) (a : Action) : Guarantee s a := by
  constructor
  · rintro address i rfl hfind hwritable
    unfold Mapped.handlePageFault
    rw [hfind]
    dsimp only
    rw [hwritable]
    rfl
  · rintro address rfl hsuccess
    rcases unmap_cases h address with hfail | ⟨i, hactive, rfl⟩
    · rw [hfail] at hsuccess
      exact absurd hsuccess Bool.false_ne_true
    · exact ⟨i, hactive, rfl, h.released hactive⟩

/-- **Run lemma.** A mapping that no `Unmap` of the run ends is kept. -/
theorem Good.run_kept (h : Good s) {as : List Action} (hroom : Lib.Along Mapped.step NotWrapped s as)
    (hactive : (s.maps.mMappings i).active = true) (hnot : Action.unmap (s.maps.mMappings i).address ∉ as) :
    Good (Lib.run Mapped.step s as) ∧ Kept (s.maps.mMappings i) ((Lib.run Mapped.step s as).maps.mMappings i) := by
  induction as generalizing s with
  | nil => exact ⟨h, .refl hactive⟩
  | cons a as ih =>
      rw [List.mem_cons, not_or] at hnot
      obtain ⟨hgood, hkeeps⟩ := h.step a hroom.1
      have hkept := hkeeps i hactive fun heq => hnot.1 heq.symm
      obtain ⟨hgood', hkept'⟩ := ih hgood hroom.2 hkept.active (by rw [hkept.address]; exact hnot.2)
      exact ⟨hgood', hkept.trans hkept'⟩

/-- **A page keeps its frame.** A fault in the run has got a frame; until the `Unmap` of its mapping, every fault in the
    page that gets one gets this one. -/
def FramesStay (s : Mapped) (as : List Action) : Prop :=
  ∀ bs cs address write, as = bs ++ .handlePageFault address write :: cs →
    ((Lib.run step s bs).handlePageFault address write).1 ≠ 0 →
    (∀ i, (Lib.run step s bs).maps.find address = some i →
      Action.unmap ((Lib.run step s bs).maps.mMappings i).address ∉ cs) →
    ∀ address' write', address'.toNat / 4096 = address.toNat / 4096 →
      ((Lib.run step s as).handlePageFault address' write').1 ≠ 0 →
      ((Lib.run step s as).handlePageFault address' write').1 =
        ((Lib.run step s bs).handlePageFault address write).1

/-- What a fault answers is in the page. -/
theorem Inv.fault_page (h : Inv s) {address : UInt64} {write : Bool} (hne : (s.handlePageFault address write).1 ≠ 0) :
    ∃ i, s.maps.find address = some i ∧ (s.maps.mMappings i).active = true ∧
      Kept (s.maps.mMappings i) ((s.step (.handlePageFault address write)).maps.mMappings i) ∧
      ((s.step (.handlePageFault address write)).maps.mMappings i).pages ((s.maps.mMappings i).pageIndex address) =
        (s.handlePageFault address write).1 := by
  rcases handlePageFault_cases s address write with ⟨hfail, -⟩ | ⟨i, t, hfind, -, hanswer, hresult⟩
  · rw [hfail] at hne
    exact absurd rfl hne
  · have hactive := (h.layout.find_iff.mp hfind).1
    refine ⟨i, hfind, hactive, (h.handlePageFault address write).2.2 i hactive, ?_⟩
    have hmaps : (s.step (.handlePageFault address write)).maps = t.maps := by
      show (s.handlePageFault address write).2.maps = t.maps
      rcases hresult with hresult | hresult <;> rw [hresult]
    rw [hmaps, hanswer]

/-- A fault in a page that has a frame answers this frame. -/
theorem fault_filled {address : UInt64} {write : Bool} (hfind : s.maps.find address = some i)
    (hpage : (s.maps.mMappings i).pages ((s.maps.mMappings i).pageIndex address) ≠ 0)
    (hne : (s.handlePageFault address write).1 ≠ 0) :
    (s.handlePageFault address write).1 = (s.maps.mMappings i).pages ((s.maps.mMappings i).pageIndex address) := by
  rcases handlePageFault_cases s address write with ⟨hfail, -⟩ | ⟨j, t, hfind', ht, hanswer, -⟩
  · rw [hfail] at hne
    exact absurd rfl hne
  · obtain rfl := Option.some.inj (hfind.symm.trans hfind')
    rw [if_neg hpage] at ht
    rw [hanswer, ht]

theorem Good.framesStay (h : Good s) {as : List Action} (hroom : Lib.Along Mapped.step NotWrapped s as) : FramesStay s as := by
  rintro bs cs address write rfl hne hnot address' write' hsame hne'
  obtain ⟨hbefore, hfault, hafter⟩ := Lib.along_append_iff.mp hroom
  have hgood : Good (Lib.run Mapped.step s bs) := Lib.run_invariant_along (fun s a h hs => (h.step a hs).1) h hbefore
  rw [Lib.run_append, Lib.run_cons] at hne' ⊢
  generalize Lib.run Mapped.step s bs = s at hne hnot hgood hfault hafter hne' ⊢
  obtain ⟨i, hfind, hactive, hkept, hpage⟩ := hgood.inv.fault_page hne
  have hgood₁ := (hgood.step _ hfault).1
  obtain ⟨hgood₂, hkept'⟩ := hgood₁.run_kept hafter hkept.active (by rw [hkept.address]; exact hnot i hfind)
  have hall := hkept.trans hkept'
  -- the other address lies in the same page of the same mapping
  obtain ⟨-, hlo, hhi⟩ := hgood.inv.layout.find_iff.mp hfind
  have hplaced := hgood.inv.layout.placed i hactive
  have haligned := hplaced.aligned
  have hsize : ((Lib.run Mapped.step (s.step (.handlePageFault address write)) cs).maps.mMappings i).size =
      (s.maps.mMappings i).size := by
    unfold Mapping.size
    rw [hall.pageCount]
  have hfind' : (Lib.run Mapped.step (s.step (.handlePageFault address write)) cs).maps.find address' = some i := by
    apply hgood₂.inv.layout.find_iff.mpr
    rw [hall.address, hsize]
    unfold Mapping.size at hhi ⊢
    exact ⟨hall.active, by omega, by omega⟩
  have hindex : ((Lib.run Mapped.step (s.step (.handlePageFault address write)) cs).maps.mMappings i).pageIndex address' =
      (s.maps.mMappings i).pageIndex address := by
    rw [hgood₂.inv.layout.pageIndex_eq hfind', hgood.inv.layout.pageIndex_eq hfind, hall.address]
    omega
  have hstays : ((Lib.run Mapped.step (s.step (.handlePageFault address write)) cs).maps.mMappings i).pages
      ((s.maps.mMappings i).pageIndex address) = (s.handlePageFault address write).1 := by
    rw [hkept'.pages _ (by rw [hpage]; exact hne), hpage]
  have hanswer := fault_filled hfind' (by rw [hindex, hstays]; exact hne) hne'
  rw [hanswer, hindex, hstays]

/-- **Mappings over a whole run** whose `Map`s end below the last address. -/
theorem mappings_apart (m : MemoryMappingManager) (c : PageCache) (pmm : PhysicalMemoryManager) (image : KernelImage)
    (boot : BootInfo) (bytes : Lib.Bytes) (hb : PhysicalMemoryManager.Accepts boot) (as : List Action)
    (hroom : Lib.Along step NotWrapped (start m c pmm image boot bytes) as) :
    Lib.Throughout step Placement (start m c pmm image boot bytes) as ∧
    Lib.Along step Guarantee (start m c pmm image boot bytes) as ∧
    FramesStay (start m c pmm image boot bytes) as := by
  have hstart := good_start m c pmm image bytes hb
  refine ⟨?_, ?_, hstart.framesStay hroom⟩
  · apply Lib.Throughout.mono fun s (h : Good s) => h.inv.placement
    exact Lib.throughout_of_along (fun s a h hs => (h.step a hs).1) hstart hroom
  · exact Lib.Along.of_invariant (fun s a h hs => (h.step a hs).1) (fun s a (h : Good s) _ => h.inv.guarantee a)
      hstart hroom

open PhysicalMemoryManager (smallImage smallBoot smallMap)

/-- A demand-paged mapping of two pages, two faults in its second page, and its end. -/
theorem mappings_apart_small :
    let as : List Action := [.map 0 8192 true true, .handlePageFault 0x40001000 true,
      .handlePageFault 0x40001FFF false, .unmap 0x40000000]
    Lib.Throughout step Placement (start {} {} {} smallImage smallBoot smallMap) as ∧
    Lib.Along step Guarantee (start {} {} {} smallImage smallBoot smallMap) as ∧
    FramesStay (start {} {} {} smallImage smallBoot smallMap) as := by
  apply mappings_apart {} {} {} smallImage smallBoot smallMap (by decide)
  refine ⟨fun _ _ => ?_, trivial, trivial, trivial, trivial⟩
  show (0x40000000 : UInt64).toNat + (pageCountOf 8192).toNat * 4096 < 2 ^ 64
  decide

/-! ## A `Map` that fails -/

/-- **What a `Map` that fails leaves, in every run.** As long as no `Map` of the run has ended past the last address,
    a `Map` of a mapping that is not demand-paged and that answers 0 has taken everything back exactly when it does
    not end there either. -/
theorem mapFails_iff (m : MemoryMappingManager) (c : PageCache) (pmm : PhysicalMemoryManager) (image : KernelImage)
    (boot : BootInfo) (bytes : Lib.Bytes) (hb : PhysicalMemoryManager.Accepts boot) (as : List Action)
    (hroom : Lib.Along step NotWrapped (start m c pmm image boot bytes) as) :
    let s := Lib.run step (start m c pmm image boot bytes) as
    ∀ fileId length writable, (s.map fileId length writable false).1 = 0 →
      (Restored s fileId (s.map fileId length writable false).2 ↔
        NotWrapped s (.map fileId length writable false)) := by
  intro s fileId length writable hfail
  have hgood : Good s :=
    Lib.run_invariant_along (fun s a h hs => (h.step a hs).1) (good_start m c pmm image bytes hb) hroom
  exact hgood.inv.map_failed_iff hgood.next hfail

/-! ## A run that reaches the last address -/

/-- No mapping is active, the next address is `n` pages above the first one, and the allocator is `pmm`. -/
structure Resting (pmm : PhysicalMemoryManager) (n : Nat) (s : Mapped) : Prop where
  inv  : Inv s
  next : s.maps.mNextAddress.toNat = 4096 * n + 0x40000000
  idle : ∀ i, (s.maps.mMappings i).active = false
  pmm  : s.phys.pmm = pmm

theorem Resting.findInactive {pmm : PhysicalMemoryManager} {n : Nat} (h : Resting pmm n s) :
    s.maps.findInactive = some 0 := by
  apply Lib.firstSlot_eq_some_iff.mpr
  rw [h.idle]
  exact ⟨rfl, fun j hj => absurd hj (Fin.not_lt_zero j)⟩

theorem pageCountOf_page : pageCountOf 4096 = 1 := by decide

/-- A mapping of one page that nobody touches, and its end: only the next address has changed. -/
theorem Resting.round {pmm : PhysicalMemoryManager} {n : Nat} (h : Resting pmm n s)
    (hroom : 4096 * (n + 1) + 0x40000000 < 2 ^ 64) :
    Resting pmm (n + 1)
      (Lib.run step s [.map 0 4096 true true, .unmap (UInt64.ofNat (4096 * n + 0x40000000))]) := by
  have hend : 4096 * n + 0x40000000 + 1 * 4096 < 2 ^ 64 := by
    rw [Nat.mul_succ] at hroom
    rwa [Nat.one_mul, Nat.add_right_comm]
  have haddress : UInt64.ofNat (4096 * n + 0x40000000) = s.maps.mNextAddress := by
    rw [← h.next]
    exact UInt64.ofNat_toNat
  have hmap : s.step (.map 0 4096 true true) = s.opened 0 1 0 true true := by
    show (s.map 0 4096 true true).2 = _
    rcases map_cases s 0 4096 true true with
      ⟨-, hzero | hmany | hnone⟩ | ⟨i, t, hslot, -, rfl, ⟨-, hmap⟩ | ⟨hbad, -⟩ | ⟨hbad, -⟩⟩
    · exact absurd hzero (by decide)
    · exact absurd hmany (by decide)
    · rw [h.findInactive] at hnone
      exact absurd hnone (by simp)
    · rw [h.findInactive] at hslot
      rw [hmap, ← Option.some.inj hslot, pageCountOf_page]
    · exact absurd hbad (by simp)
    · exact absurd hbad (by simp)
  have hone : (1 : UInt64).toNat = 1 := rfl
  have hopened : Inv (s.opened 0 1 0 true true) := by
    apply h.inv.opened h.findInactive (by decide)
    rw [h.next, hone]
    exact hend
  have hself : (s.opened 0 1 0 true true).maps.mMappings 0 = _ := opened_self
  have hactive : ((s.opened 0 1 0 true true).maps.mMappings 0).active = true := by rw [hself]
  have hstart : ((s.opened 0 1 0 true true).maps.mMappings 0).address = s.maps.mNextAddress := by rw [hself]
  rw [Lib.run_cons, Lib.run_cons, Lib.run_nil, hmap, haddress, ← hstart]
  have hmaps := unmap_maps hopened hactive
  obtain ⟨-, hpmm⟩ := unmap_anonymous hopened hactive (by rw [hself])
  refine ⟨hopened.unmap_found hactive, ?_, fun q => ?_, ?_⟩
  · show ((s.opened 0 1 0 true true).unmap _).2.maps.mNextAddress.toNat = _
    rw [unmap_next]
    show (s.maps.mNextAddress + 1 * kPageSize).toNat = _
    rw [UInt64.toNat_add, UInt64.toNat_mul, toNat_kPageSize, h.next, hone]
    omega
  · show (((s.opened 0 1 0 true true).unmap _).2.maps.mMappings q).active = false
    rw [hmaps, MemoryMappingManager.setMapping_apply]
    by_cases hq : q = 0
    · rw [if_pos hq]
    · rw [if_neg hq, opened_other hq]
      exact h.idle q
  · show ((s.opened 0 1 0 true true).unmap _).2.phys.pmm = pmm
    rw [hpmm, hself, ← h.pmm]
    rfl

/-- `n` times a mapping of one page and its end. -/
def rounds : Nat → List Action
  | 0     => []
  | n + 1 => rounds n ++ [.map 0 4096 true true, .unmap (UInt64.ofNat (4096 * n + 0x40000000))]

theorem Resting.rounds {pmm : PhysicalMemoryManager} (h : Resting pmm 0 s) {n : Nat}
    (hroom : 4096 * n + 0x40000000 < 2 ^ 64) : Resting pmm n (Lib.run step s (Mapped.rounds n)) := by
  induction n with
  | zero => exact h
  | succ n ih =>
      rw [Mapped.rounds, Lib.run_append]
      exact (ih (by omega)).round hroom

/-- One allocation for each free page, and there is none left. -/
theorem allocatePage_exhausted {pmm : PhysicalMemoryManager} (h : pmm.Ready) {n : Nat}
    (hn : ((Finset.range kManagedPageCount).filter fun page => pmm.isPageFree page = true).card ≤ n) :
    ((fun pmm : PhysicalMemoryManager => pmm.allocatePage.2)^[n] pmm).allocatePage.1 = 0 := by
  induction n generalizing pmm with
  | zero =>
      by_contra hne
      have hgrants := PhysicalMemoryManager.allocatePage_grants h hne
      have hmem : pageOf pmm.allocatePage.1 ∈
          (Finset.range kManagedPageCount).filter fun page => pmm.isPageFree page = true :=
        Finset.mem_filter.mpr ⟨Finset.mem_range.mpr hgrants.isFrame.2, hgrants.free⟩
      rw [Finset.card_eq_zero.mp (Nat.le_zero.mp hn)] at hmem
      exact absurd hmem (Finset.notMem_empty _)
  | succ n ih =>
      rw [Function.iterate_succ_apply]
      by_cases hz : pmm.allocatePage.1 = 0
      · -- an allocation that fails changes nothing, and neither do those after it
        have hfixed : pmm.allocatePage.2 = pmm := congrArg Prod.snd (PhysicalMemoryManager.allocatePage_zero h hz)
        rw [hfixed, Function.iterate_fixed hfixed]
        exact hz
      · have hgrants := PhysicalMemoryManager.allocatePage_grants h hz
        refine ih hgrants.ready (Nat.le_of_lt_succ (Nat.lt_of_lt_of_le (Finset.card_lt_card ?_) hn))
        rw [Finset.ssubset_iff_of_subset]
        · refine ⟨pageOf pmm.allocatePage.1, ?_, ?_⟩
          · exact Finset.mem_filter.mpr ⟨Finset.mem_range.mpr hgrants.isFrame.2, hgrants.free⟩
          · rw [Finset.mem_filter, hgrants.pages, if_pos rfl]
            exact fun hbad => absurd hbad.2 Bool.false_ne_true
        · intro page hpage
          obtain ⟨hin, hfree⟩ := Finset.mem_filter.mp hpage
          rw [hgrants.pages] at hfree
          split at hfree
          · exact absurd hfree Bool.false_ne_true
          · exact Finset.mem_filter.mpr ⟨hin, hfree⟩

/-- Others take every page there is. -/
def exhaust : List Action := List.replicate kManagedPageCount (.otherAllocate 1 1)

theorem run_replicate (s : Mapped) (n : Nat) :
    Lib.run step s (List.replicate n (.otherAllocate 1 1)) =
      { s with phys := { s.phys with pmm := (fun pmm : PhysicalMemoryManager => pmm.allocatePage.2)^[n] s.phys.pmm } } := by
  induction n generalizing s with
  | zero => rfl
  | succ n ih =>
      rw [List.replicate_succ, Lib.run_cons, ih]
      rfl

theorem Inv.run_replicate (h : Inv s) (n : Nat) :
    Inv (Lib.run step s (List.replicate n (.otherAllocate 1 1))) := by
  induction n generalizing s with
  | zero => exact h
  | succ n ih =>
      rw [List.replicate_succ, Lib.run_cons]
      exact ih (h.otherAllocate 1 1)

theorem resting_exhaust (m : MemoryMappingManager) (c : PageCache) (pmm : PhysicalMemoryManager) (image : KernelImage)
    {boot : BootInfo} (bytes : Lib.Bytes) (hb : PhysicalMemoryManager.Accepts boot) :
    ∃ pmm', Resting pmm' 0 (Lib.run step (start m c pmm image boot bytes) exhaust) ∧ pmm'.allocatePage.1 = 0 := by
  have hinv := (good_start m c pmm image bytes hb).inv
  have hinv' := hinv.run_replicate kManagedPageCount
  unfold exhaust
  rw [run_replicate] at hinv' ⊢
  refine ⟨_, ⟨hinv', rfl, fun _ => rfl, rfl⟩, allocatePage_exhausted hinv.ready ?_⟩
  refine (Finset.card_filter_le _ _).trans ?_
  rw [Finset.card_range]

theorem along_exhaust (s : Mapped) : Lib.Along step NotWrapped s exhaust := by
  unfold exhaust
  generalize kManagedPageCount = n
  induction n generalizing s with
  | zero => trivial
  | succ n ih => exact ⟨trivial, ih _⟩

/-- When there is no page left, the `Map` of a page fails at its first page. -/
theorem Resting.map_exhausted {pmm : PhysicalMemoryManager} {n : Nat} (h : Resting pmm n s)
    (hpage : pmm.allocatePage.1 = 0) :
    (s.opened 0 1 0 true false).fillLoop 0 (List.range (1 : UInt64).toNat) = (false, s.opened 0 1 0 true false) ∧
    s.map 0 4096 true false = (0, ((s.opened 0 1 0 true false).unmap s.maps.mNextAddress).2) := by
  have hself := @opened_self s 0 1 0 true false
  have hready : (s.opened 0 1 0 true false).phys.pmm.Ready := h.inv.ready
  have hempty : ((s.opened 0 1 0 true false).maps.mMappings 0).pages 0 = 0 := by rw [hself]
  have hfill : (s.opened 0 1 0 true false).fillPage 0 0 = s.opened 0 1 0 true false := by
    rcases fillPage_anonymous hready (by rw [hself]) hempty with hsame | ⟨a, phys, hgrants, -⟩
    · exact hsame
    · have hfree := PhysicalMemoryManager.allocatePage_complete hready hgrants.isFrame.2 hgrants.free
      exact absurd (h.pmm ▸ hpage) hfree
  have hloop : (s.opened 0 1 0 true false).fillLoop 0 (List.range (1 : UInt64).toNat) =
      (false, s.opened 0 1 0 true false) := by
    show Mapped.fillLoop _ 0 [0] = _
    unfold Mapped.fillLoop
    dsimp only
    rw [hfill, if_pos hempty]
  refine ⟨hloop, ?_⟩
  rcases map_cases s 0 4096 true false with
    ⟨-, hzero | hmany | hnone⟩ | ⟨i, t, hslot, -, rfl, ⟨hbad, -⟩ | ⟨-, hfilled, -⟩ | ⟨-, -, hmap⟩⟩
  · exact absurd hzero (by decide)
  · exact absurd hmany (by decide)
  · rw [h.findInactive] at hnone
    exact absurd hnone (by simp)
  · exact absurd hbad (by simp)
  · rw [h.findInactive] at hslot
    rw [← Option.some.inj hslot, pageCountOf_page, hloop] at hfilled
    exact absurd hfilled (by simp)
  · rw [h.findInactive] at hslot
    rwa [← Option.some.inj hslot, pageCountOf_page, hloop] at hmap

open PhysicalMemoryManager (smallImage smallBoot smallMap)

/-- On the small machine, when others have taken all pages. -/
theorem mapFails_iff_small :
    let s := Lib.run step (start {} {} {} smallImage smallBoot smallMap) exhaust
    Restored s 0 (s.map 0 4096 true false).2 := by
  have hb : PhysicalMemoryManager.Accepts smallBoot := by decide
  obtain ⟨pmm, hresting, hpage⟩ := resting_exhaust {} {} {} smallImage smallMap hb
  apply (mapFails_iff {} {} {} smallImage smallBoot smallMap hb exhaust (along_exhaust _) 0 4096 true ?_).mpr
  · intro _ _
    rw [hresting.next]
    decide
  · rw [(hresting.map_exhausted hpage).2]

/-- The mapping that would end at the last address is left active. -/
theorem Resting.wraps {pmm : PhysicalMemoryManager} {n : Nat} (h : Resting pmm n s) (hpage : pmm.allocatePage.1 = 0)
    (hlast : 4096 * n + 0x40000000 = 2 ^ 64 - 4096) :
    (s.map 0 4096 true false).1 = 0 ∧ (s.maps.mMappings 0).active = false ∧
      ((s.map 0 4096 true false).2.maps.mMappings 0).active = true := by
  obtain ⟨hloop, hmap⟩ := h.map_exhausted hpage
  have hone : (1 : UInt64).toNat = 1 := rfl
  have hend : 2 ^ 64 ≤ s.maps.mNextAddress.toNat + (1 : UInt64).toNat * 4096 := by
    rw [h.next, hlast, hone]
    decide
  obtain ⟨hunmap, hactive⟩ := h.inv.wrapped (by decide) hend (congrArg Prod.snd hloop)
  rw [hmap, hunmap]
  exact ⟨rfl, h.idle 0, hactive⟩

/-- On the small machine: others take all pages, `2 ^ 52 - 2 ^ 18 - 1` mappings of a page come and go, and the next
    one fails at the last page of the address space. -/
theorem map_wraps :
    let s := Lib.run step (start {} {} {} smallImage smallBoot smallMap) (exhaust ++ rounds (2 ^ 52 - 2 ^ 18 - 1))
    (s.map 0 4096 true false).1 = 0 ∧ (s.maps.mMappings 0).active = false ∧
      ((s.map 0 4096 true false).2.maps.mMappings 0).active = true := by
  have hb : PhysicalMemoryManager.Accepts smallBoot := by decide
  have hroom : 4096 * (2 ^ 52 - 2 ^ 18 - 1) + 0x40000000 < 2 ^ 64 := by decide
  have hlast : 4096 * (2 ^ 52 - 2 ^ 18 - 1) + 0x40000000 = 2 ^ 64 - 4096 := by decide
  obtain ⟨pmm, hresting, hpage⟩ := resting_exhaust {} {} {} smallImage smallMap hb
  rw [Lib.run_append]
  exact (hresting.rounds hroom).wraps hpage hlast

end Mapped
end UefiBoot
