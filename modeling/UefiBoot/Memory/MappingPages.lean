import UefiBoot.Memory.FrameSets
import UefiBoot.Memory.Mappings

/-!
# `Memory.MappingPages` — filling and releasing the pages of a mapping

The two things that happen to a page: `fillPage` gets it a frame, and `Unmap` gives the frame back, page by page.
Both keep `Inv`. For the loop of `Unmap` the mapping is followed with the pages cleared that have been released
(`dropPage`); the code leaves the addresses in the array and ends the mapping instead, which holds the same.

A page of a file is the business of the page cache: a hit or a release changes one count (`setReferences`), a miss
fills an entry. `references_setPage` is the same change seen from the mappings.
-/

namespace UefiBoot

namespace PageCache

variable {c : PageCache} {e q : Fin kPageCacheEntryCount} {fileId pageOffset : UInt64} {references : UInt16}

/-- Another count for entry `e`. -/
def setReferences (c : PageCache) (e : Fin kPageCacheEntryCount) (references : UInt16) : PageCache :=
  c.setEntry e ((c.mEntries e).withReferences references)

theorem setReferences_apply (c : PageCache) (e q : Fin kPageCacheEntryCount) (references : UInt16) :
    (c.setReferences e references).mEntries q =
      (c.mEntries q).withReferences (if q = e then references else (c.mEntries q).references) := by
  show (c.setEntry e _).mEntries q = _
  rw [setEntry_apply]
  by_cases hq : q = e
  · rw [if_pos hq, if_pos hq, hq]
  · rw [if_neg hq, if_neg hq]
    rfl

@[simp] theorem setReferences_frame : ((c.setReferences e references).mEntries q).frame = (c.mEntries q).frame := by
  rw [setReferences_apply]
  rfl

@[simp] theorem setReferences_physical :
    ((c.setReferences e references).mEntries q).physical = (c.mEntries q).physical := by
  rw [setReferences_apply]
  rfl

@[simp] theorem setReferences_caches :
    ((c.setReferences e references).mEntries q).Caches fileId pageOffset ↔ (c.mEntries q).Caches fileId pageOffset := by
  rw [setReferences_apply]
  rfl

end PageCache

/-! ## One page of a mapping -/

namespace Mapping

variable {mapping : Mapping} {page : Nat} {a fileId pageOffset : UInt64}

theorem setPage_apply (mapping : Mapping) (page q : Nat) (a : UInt64) :
    (mapping.setPage page a).pages q = if q = page then a else mapping.pages q := Function.update_apply ..

theorem setPage_self (h : mapping.pages page = a) : mapping.setPage page a = mapping := by
  unfold setPage
  rw [← h, Function.update_eq_self]

/-- A page of a file is the page at its index. -/
theorem toNat_offset (hpage : page < kMappingMaxPages) : (UInt64.ofNat page).toNat = page := by
  have hmax : kMappingMaxPages = 16 := rfl
  exact UInt64.toNat_ofNat_of_lt' (show page < 2 ^ 64 by omega)

/-- The key under which the page cache has page `page` of the mapping. -/
def IsKey (mapping : Mapping) (page : Nat) (fileId pageOffset : UInt64) : Prop :=
  mapping.fileId = fileId ∧ fileId ≠ 0 ∧ pageOffset = UInt64.ofNat page

instance : Decidable (mapping.IsKey page fileId pageOffset) := by
  unfold IsKey
  infer_instance

/-- What a mapping of a file uses, after one page has changed. -/
theorem uses_setPage (hactive : mapping.active = true) (hpage : page < kMappingMaxPages) :
    (mapping.setPage page a).Uses fileId pageOffset ↔
      if mapping.IsKey page fileId pageOffset then a ≠ 0 else mapping.Uses fileId pageOffset := by
  unfold Uses
  simp only [setPage_active, setPage_fileId, setPage_apply, hactive, true_and]
  have hindex : pageOffset.toNat = page ↔ pageOffset = UInt64.ofNat page := by
    rw [← UInt64.toNat_inj, toNat_offset hpage]
  by_cases hkey : mapping.IsKey page fileId pageOffset
  · rw [if_pos hkey, if_pos (hindex.mpr hkey.2.2)]
    exact ⟨fun h => h.2.2, fun h => ⟨hkey.1, hkey.2.1, h⟩⟩
  · rw [if_neg hkey]
    constructor
    · rintro ⟨hfile, hne, hpages⟩
      rw [if_neg fun h => hkey ⟨hfile, hne, hindex.mp h⟩] at hpages
      exact ⟨hfile, hne, hpages⟩
    · rintro ⟨hfile, hne, hpages⟩
      rw [if_neg fun h => hkey ⟨hfile, hne, hindex.mp h⟩]
      exact ⟨hfile, hne, hpages⟩

end Mapping

namespace MemoryMappingManager

variable {m : MemoryMappingManager} {i : Fin kMemoryMappingCount} {page : Nat} {a fileId pageOffset : UInt64}

theorem setMapping_self (m : MemoryMappingManager) (i : Fin kMemoryMappingCount) :
    m.setMapping i (m.mMappings i) = m := by
  unfold setMapping
  rw [Function.update_eq_self]

/-- **The counts after one page has changed.** -/
theorem references_setPage (hactive : (m.mMappings i).active = true) (hpage : page < kMappingMaxPages) :
    (m.setMapping i ((m.mMappings i).setPage page a)).references fileId pageOffset +
        (if (m.mMappings i).IsKey page fileId pageOffset ∧ (m.mMappings i).pages page ≠ 0 then 1 else 0) =
      m.references fileId pageOffset + (if (m.mMappings i).IsKey page fileId pageOffset ∧ a ≠ 0 then 1 else 0) := by
  have hsum := m.references_setMapping i ((m.mMappings i).setPage page a) fileId pageOffset
  have huses' := @Mapping.uses_setPage (m.mMappings i) page a fileId pageOffset hactive hpage
  by_cases hkey : (m.mMappings i).IsKey page fileId pageOffset
  · rw [if_pos hkey] at huses'
    have huses : (m.mMappings i).Uses fileId pageOffset ↔ (m.mMappings i).pages page ≠ 0 := by
      obtain ⟨hfile, hne, rfl⟩ := hkey
      unfold Mapping.Uses
      rw [Mapping.toNat_offset hpage]
      exact ⟨fun h => h.2.2.2, fun h => ⟨hactive, hfile, hne, h⟩⟩
    simp only [huses, huses'] at hsum
    simpa only [hkey, true_and] using hsum
  · rw [if_neg hkey] at huses'
    simp only [huses'] at hsum
    simp only [hkey, false_and, if_false]
    omega

/-- An anonymous mapping has no part in the counts. -/
theorem references_anonymous (hfile : (m.mMappings i).fileId = 0) :
    (m.setMapping i ((m.mMappings i).setPage page a)).references fileId pageOffset =
      m.references fileId pageOffset := by
  have hno : ∀ mapping : Mapping, mapping.fileId = 0 → ¬ mapping.Uses fileId pageOffset := by
    rintro mapping hzero ⟨-, hkey, hne, -⟩
    exact hne (hkey.symm.trans hzero)
  have hsum := m.references_setMapping i ((m.mMappings i).setPage page a) fileId pageOffset
  rw [if_neg (hno _ hfile), if_neg (hno _ ((Mapping.setPage_fileId ..).trans hfile))] at hsum
  exact Nat.add_right_cancel hsum

end MemoryMappingManager

namespace MemoryMappingManager

variable {m : MemoryMappingManager} {i : Fin kMemoryMappingCount} {page : Nat} {a : UInt64}

/-- What is held after an anonymous page has changed. -/
theorem holds_setPage (hactive : (m.mMappings i).active = true) (hfile : (m.mMappings i).fileId = 0)
    (q : Fin kMemoryMappingCount × Nat) :
    (m.setMapping i ((m.mMappings i).setPage page a)).holds q =
      if q = (i, page) then (if a = 0 then none else some a) else m.holds q := by
  obtain ⟨j, k⟩ := q
  unfold holds
  rw [setMapping_apply]
  by_cases hj : j = i
  · subst hj
    rw [if_pos rfl]
    unfold Mapping.frame
    simp only [Mapping.setPage_active, Mapping.setPage_fileId, Mapping.setPage_apply, hactive, hfile, true_and,
      Prod.mk.injEq]
    by_cases hk : k = page
    · simp only [hk, if_true, ne_eq, ite_not]
    · simp only [hk, if_false]
  · rw [if_neg hj, if_neg fun heq => hj (congrArg Prod.fst heq)]

/-- The pages of files are not held here. -/
theorem holds_setPage_file (hfile : (m.mMappings i).fileId ≠ 0) :
    (m.setMapping i ((m.mMappings i).setPage page a)).holds = m.holds := by
  have hnone : ∀ mapping : Mapping, mapping.fileId ≠ 0 → ∀ k, mapping.frame k = none :=
    fun mapping hne k => if_neg fun h => hne h.2.1
  funext q
  unfold holds
  rw [setMapping_apply]
  by_cases hq : q.1 = i
  · rw [if_pos hq, hq, hnone _ hfile, hnone _ (by rw [Mapping.setPage_fileId]; exact hfile)]
  · rw [if_neg hq]

/-- The layout does not depend on the pages. -/
theorem Layout.setPage (h : m.Layout) (hactive : (m.mMappings i).active = true)
    (hpage : page < (m.mMappings i).pageCount.toNat) (a : UInt64) :
    (m.setMapping i ((m.mMappings i).setPage page a)).Layout := by
  apply h.setMapping (Mapping.setPage_address ..) (Mapping.setPage_pageCount ..) fun _ => hactive
  intro _ q hq
  rw [Mapping.setPage_pageCount] at hq
  rw [Mapping.setPage_apply, if_neg (by omega)]
  exact (h.placed i hactive).past q hq

end MemoryMappingManager

namespace Mapped

variable {s : Mapped} {i : Fin kMemoryMappingCount} {page : Nat} {a : UInt64}

theorem Inv.cacheInv (h : Inv s) : PageCache.Inv s.cache s.phys := ⟨h.ready, h.sound.right, h.keys⟩

/-- What the mappings use is still cached, when the cache keeps its entries and has the new page. -/
theorem Inv.cached_setPage (h : Inv s) (hactive : (s.maps.mMappings i).active = true) (hmax : page < kMappingMaxPages)
    {c : PageCache}
    (hkeep : ∀ e f o, (s.cache.mEntries e).Caches f o → (s.maps.references f o ≠ 0) →
      (c.mEntries e).Caches f o ∧ (c.mEntries e).physical = (s.cache.mEntries e).physical)
    (hnew : ∀ f o, (s.maps.mMappings i).IsKey page f o → a ≠ 0 → ∃ e, (c.mEntries e).Caches f o ∧
      (c.mEntries e).physical = a) :
    ∀ q f o, ((s.maps.setMapping i ((s.maps.mMappings i).setPage page a)).mMappings q).Uses f o →
      ∃ e, (c.mEntries e).Caches f o ∧ (c.mEntries e).physical =
        ((s.maps.setMapping i ((s.maps.mMappings i).setPage page a)).mMappings q).pages o.toNat := by
  have hold : ∀ q f o, (s.maps.mMappings q).Uses f o → ∃ e, (c.mEntries e).Caches f o ∧
      (c.mEntries e).physical = (s.maps.mMappings q).pages o.toNat := by
    intro q f o huses
    obtain ⟨e, hcaches, hphysical⟩ := h.cached q f o huses
    obtain ⟨hcaches', hphysical'⟩ := hkeep e f o hcaches (MemoryMappingManager.references_pos huses).ne'
    exact ⟨e, hcaches', hphysical'.trans hphysical⟩
  intro q f o huses
  rw [MemoryMappingManager.setMapping_apply] at huses ⊢
  by_cases hq : q = i
  · rw [if_pos hq] at huses ⊢
    rw [Mapping.uses_setPage hactive hmax] at huses
    rw [Mapping.setPage_apply]
    by_cases hkey : (s.maps.mMappings i).IsKey page f o
    · rw [if_pos hkey] at huses
      obtain ⟨e, hcaches, hphysical⟩ := hnew f o hkey huses
      refine ⟨e, hcaches, ?_⟩
      rw [hkey.2.2, Mapping.toNat_offset hmax, if_pos rfl, hphysical]
    · rw [if_neg hkey] at huses
      have hne : o.toNat ≠ page := by
        rintro rfl
        exact hkey ⟨huses.2.1, huses.2.2.1, UInt64.ofNat_toNat.symm⟩
      rw [if_neg hne]
      exact hold i f o huses
  · rw [if_neg hq] at huses ⊢
    exact hold q f o huses

/-! ## Filling a page -/

/-- A page that gets nothing stays empty. -/
theorem fillPage_nothing (hempty : (s.maps.mMappings i).pages page = 0)
    (hnone : s.materialize (s.maps.mMappings i) page = (0, s)) : s.fillPage i page = s := by
  unfold fillPage
  dsimp only
  rw [hnone, Mapping.setPage_self hempty, MemoryMappingManager.setMapping_self]

/-- **An anonymous page** gets a frame of the allocator, cleared, or nothing. -/
theorem fillPage_anonymous (hready : s.phys.pmm.Ready) (hfile : (s.maps.mMappings i).fileId = 0)
    (hempty : (s.maps.mMappings i).pages page = 0) :
    s.fillPage i page = s ∨ ∃ a phys, s.phys.pmm.Grants phys.pmm a ∧
      s.fillPage i page = { s with maps := s.maps.setMapping i ((s.maps.mMappings i).setPage page a), phys } := by
  by_cases hz : s.phys.allocatePage.1 = 0
  · left
    apply fillPage_nothing hempty
    unfold materialize
    rw [if_neg (not_not.mpr hfile)]
    dsimp only
    rw [if_neg (not_not.mpr hz), Physical.allocatePage_failed hready hz, hz]
  · right
    refine ⟨s.phys.allocatePage.1, s.phys.allocatePage.2.clearPage s.phys.allocatePage.1,
      Physical.allocatePage_grants hready hz, ?_⟩
    unfold fillPage materialize
    dsimp only
    rw [if_neg (not_not.mpr hfile)]
    dsimp only
    rw [if_pos hz]

/-- **A page of a file** is a hit, or a miss that fills an entry, or nothing. -/
theorem fillPage_file (hready : s.phys.pmm.Ready) (hfile : (s.maps.mMappings i).fileId ≠ 0)
    (hempty : (s.maps.mMappings i).pages page = 0) :
    s.fillPage i page = s ∨
    (∃ e, s.cache.findEntry (s.maps.mMappings i).fileId (UInt64.ofNat page) = some e ∧
      s.fillPage i page =
        { s with
          maps := s.maps.setMapping i ((s.maps.mMappings i).setPage page (s.cache.mEntries e).physical)
          cache := s.cache.setReferences e ((s.cache.mEntries e).references + 1) }) ∨
    ∃ e a cache phys, a ≠ 0 ∧
      PageCache.Effect s.cache s.phys (.filled e (s.maps.mMappings i).fileId (UInt64.ofNat page) a) cache phys ∧
      s.fillPage i page = { maps := s.maps.setMapping i ((s.maps.mMappings i).setPage page a), cache, phys } := by
  have hmat : s.materialize (s.maps.mMappings i) page =
      ((s.cache.acquire (s.maps.mMappings i).fileId (UInt64.ofNat page) s.phys).1,
        { s with
          cache := (s.cache.acquire (s.maps.mMappings i).fileId (UInt64.ofNat page) s.phys).2.1
          phys := (s.cache.acquire (s.maps.mMappings i).fileId (UInt64.ofNat page) s.phys).2.2 }) := by
    unfold materialize
    rw [if_pos hfile]
  rcases PageCache.acquire_effect hready s.cache (s.maps.mMappings i).fileId (UInt64.ofNat page) with
    ⟨-, hfail⟩ | ⟨e, hfind, hhit⟩ | ⟨e, -, hne, heff⟩
  · left
    apply fillPage_nothing hempty
    rw [hmat, hfail]
  · refine Or.inr (Or.inl ⟨e, hfind, ?_⟩)
    unfold fillPage
    dsimp only
    rw [hmat, hhit]
    rfl
  · refine Or.inr (Or.inr ⟨e, _, _, _, hne, heff, ?_⟩)
    unfold fillPage
    dsimp only
    rw [hmat]

theorem Inv.max (h : Inv s) (hactive : (s.maps.mMappings i).active = true)
    (hpage : page < (s.maps.mMappings i).pageCount.toNat) : page < kMappingMaxPages :=
  Nat.lt_of_lt_of_le hpage (h.layout.placed i hactive).count.2

/-- An anonymous page that gets a frame. -/
theorem Inv.fill_anonymous (h : Inv s) (hactive : (s.maps.mMappings i).active = true)
    (hpage : page < (s.maps.mMappings i).pageCount.toNat) (hfile : (s.maps.mMappings i).fileId = 0) {phys : Physical}
    (hgrants : s.phys.pmm.Grants phys.pmm a) :
    Inv { s with maps := s.maps.setMapping i ((s.maps.mMappings i).setPage page a), phys } := by
  have hstep : Lib.Ledger.Steps (Lib.Ledger.mk s.maps.holds s.phys.pmm.Taken)
      (Lib.Ledger.mk (s.maps.setMapping i ((s.maps.mMappings i).setPage page a)).holds phys.pmm.Taken) := by
    apply Relation.ReflTransGen.single
    refine .grantOne (p := (i, page)) hgrants.not_taken (fun q => ?_) hgrants.taken
    show (s.maps.setMapping i _).holds q = _
    rw [MemoryMappingManager.holds_setPage hactive hfile, if_neg hgrants.nonzero]
  constructor
  · exact hgrants.ready
  · exact (hstep.left h.sound).sound h.sound
  · exact h.keys
  · exact h.layout.setPage hactive hpage a
  · apply h.cached_setPage hactive (h.max hactive hpage)
    · exact fun e f o hcaches _ => ⟨hcaches, rfl⟩
    · intro f o hkey
      exact absurd (hkey.1.symm.trans hfile) hkey.2.1
  · intro e he
    dsimp only
    rw [MemoryMappingManager.references_anonymous hfile]
    exact h.counted e he

/-- A page of a file that is found in the cache. -/
theorem Inv.fill_hit (h : Inv s) (hactive : (s.maps.mMappings i).active = true)
    (hpage : page < (s.maps.mMappings i).pageCount.toNat) (hfile : (s.maps.mMappings i).fileId ≠ 0)
    (hempty : (s.maps.mMappings i).pages page = 0) {e : Fin kPageCacheEntryCount}
    (he : (s.cache.mEntries e).Caches (s.maps.mMappings i).fileId (UInt64.ofNat page)) :
    (s.cache.mEntries e).physical ≠ 0 ∧
    Inv { s with
          maps := s.maps.setMapping i ((s.maps.mMappings i).setPage page (s.cache.mEntries e).physical)
          cache := s.cache.setReferences e ((s.cache.mEntries e).references + 1) } := by
  have hmax := h.max hactive hpage
  have hne : (s.cache.mEntries e).physical ≠ 0 := by
    have hheld : (s.cache.mEntries e).frame = some (s.cache.mEntries e).physical := CacheEntry.frame_active he.1
    exact @Lib.Ledger.Sound.unheld _ _ _ _ h.sound (Sum.inr e) _ hheld
  refine ⟨hne, h.ready, ?_, ?_, h.layout.setPage hactive hpage _, ?_, ?_⟩
  · have hframes : (fun q => ((s.cache.setReferences e ((s.cache.mEntries e).references + 1)).mEntries q).frame) =
        fun q => (s.cache.mEntries q).frame := by
      funext q
      exact PageCache.setReferences_frame
    dsimp only
    rw [MemoryMappingManager.holds_setPage_file hfile, hframes]
    exact h.sound
  · intro q r f o hq hr
    rw [PageCache.setReferences_caches] at hq hr
    exact h.keys q r f o hq hr
  · apply h.cached_setPage hactive hmax
    · exact fun q f o hq _ => ⟨PageCache.setReferences_caches.mpr hq, PageCache.setReferences_physical⟩
    · rintro f o ⟨rfl, -, rfl⟩ _
      exact ⟨e, PageCache.setReferences_caches.mpr he, PageCache.setReferences_physical⟩
  · intro q hq
    dsimp only at hq ⊢
    rw [PageCache.setReferences_apply] at hq ⊢
    have hold := h.counted q hq
    have hsum := @MemoryMappingManager.references_setPage s.maps i page (s.cache.mEntries e).physical
      (s.cache.mEntries q).fileId (s.cache.mEntries q).pageOffset hactive hmax
    rw [if_neg fun hbad => hbad.2 hempty] at hsum
    simp only [CacheEntry.withReferences_references, CacheEntry.withReferences_fileId,
      CacheEntry.withReferences_pageOffset]
    by_cases hqe : q = e
    · -- one reference more, and no wrap: sixteen mappings cannot have 65535
      subst hqe
      have hle := s.maps.references_le (s.cache.mEntries q).fileId (s.cache.mEntries q).pageOffset
      have hcount : kMemoryMappingCount = 16 := rfl
      have hone : (1 : UInt16).toNat = 1 := rfl
      rw [if_pos ⟨⟨he.2.1.symm, by rw [he.2.1]; exact hfile, he.2.2⟩, hne⟩] at hsum
      rw [if_pos rfl, UInt16.toNat_add, hone]
      omega
    · have hother : ¬ ((s.maps.mMappings i).IsKey page (s.cache.mEntries q).fileId (s.cache.mEntries q).pageOffset ∧
          (s.cache.mEntries e).physical ≠ 0) := by
        rintro ⟨⟨hf, -, ho⟩, -⟩
        exact hqe (h.keys q e _ _ ⟨hq, hf.symm, ho⟩ he)
      rw [if_neg hother] at hsum
      rw [if_neg hqe]
      omega

/-- A page of a file that fills an entry of the cache. -/
theorem Inv.fill_miss (h : Inv s) (hactive : (s.maps.mMappings i).active = true)
    (hpage : page < (s.maps.mMappings i).pageCount.toNat) (hfile : (s.maps.mMappings i).fileId ≠ 0)
    (hempty : (s.maps.mMappings i).pages page = 0) (hne : a ≠ 0) {e : Fin kPageCacheEntryCount} {cache : PageCache}
    {phys : Physical}
    (heff : PageCache.Effect s.cache s.phys (.filled e (s.maps.mMappings i).fileId (UInt64.ofNat page) a) cache phys) :
    Inv { maps := s.maps.setMapping i ((s.maps.mMappings i).setPage page a), cache, phys } := by
  have hmax := h.max hactive hpage
  have hstep : Lib.Ledger.Steps (Lib.Ledger.mk (fun q => (s.cache.mEntries q).frame) s.phys.pmm.Taken)
      (Lib.Ledger.mk (fun q => (cache.mEntries q).frame) phys.pmm.Taken) := heff.steps h.cacheInv.sound
  refine ⟨heff.ready h.ready, ?_, heff.distinct h.keys, h.layout.setPage hactive hpage _, ?_, ?_⟩
  · dsimp only
    rw [MemoryMappingManager.holds_setPage_file hfile]
    exact (hstep.right h.sound).sound h.sound
  · cases heff with
    | filled e fileId pageOffset a hslot hnew hgrants hbytes =>
        apply h.cached_setPage hactive hmax
        · intro q f o hq _
          have hqe : q ≠ e := by
            rintro rfl
            rw [hq.1] at hslot
            exact absurd hslot (by simp)
          rw [PageCache.setEntry_apply, if_neg hqe]
          exact ⟨hq, rfl⟩
        · rintro f o ⟨rfl, -, rfl⟩ _
          refine ⟨e, ?_⟩
          rw [PageCache.setEntry_apply, if_pos rfl]
          exact ⟨⟨rfl, rfl, rfl⟩, rfl⟩
  · cases heff with
    | filled e fileId pageOffset a hslot hnew hgrants hbytes =>
        intro q hq
        dsimp only at hq ⊢
        rw [PageCache.setEntry_apply] at hq ⊢
        by_cases hqe : q = e
        · -- nobody used the page, for it was in no entry
          have hsum := @MemoryMappingManager.references_setPage s.maps i page a (s.maps.mMappings i).fileId
            (UInt64.ofNat page) hactive hmax
          have hzero : s.maps.references (s.maps.mMappings i).fileId (UInt64.ofNat page) = 0 := by
            apply MemoryMappingManager.references_zero
            intro j huses
            obtain ⟨r, hr, -⟩ := h.cached j _ _ huses
            exact hnew r hr
          rw [if_neg fun hbad => hbad.2 hempty, if_pos ⟨⟨rfl, hfile, rfl⟩, hne⟩, hzero] at hsum
          have hone : (1 : UInt16).toNat = 1 := rfl
          rw [if_pos hqe]
          dsimp only
          rw [hone]
          omega
        · rw [if_neg hqe] at hq ⊢
          have hold := h.counted q hq
          have hsum := @MemoryMappingManager.references_setPage s.maps i page a
            (s.cache.mEntries q).fileId (s.cache.mEntries q).pageOffset hactive hmax
          have hother : ¬ ((s.maps.mMappings i).IsKey page (s.cache.mEntries q).fileId
              (s.cache.mEntries q).pageOffset ∧ a ≠ 0) := by
            rintro ⟨⟨hf, -, ho⟩, -⟩
            exact hnew q ⟨hq, hf.symm, ho⟩
          rw [if_neg fun hbad => hbad.2 hempty, if_neg hother] at hsum
          omega

/-- **`fillPage`** does nothing, or sets the empty page to a frame. -/
theorem Inv.fillPage (h : Inv s) (hactive : (s.maps.mMappings i).active = true)
    (hpage : page < (s.maps.mMappings i).pageCount.toNat) (hempty : (s.maps.mMappings i).pages page = 0) :
    s.fillPage i page = s ∨
    ∃ a, a ≠ 0 ∧ (s.fillPage i page).maps = s.maps.setMapping i ((s.maps.mMappings i).setPage page a) ∧
      Inv (s.fillPage i page) := by
  by_cases hfile : (s.maps.mMappings i).fileId = 0
  · rcases fillPage_anonymous h.ready hfile hempty with hsame | ⟨a, phys, hgrants, hfill⟩
    · exact Or.inl hsame
    · right
      rw [hfill]
      exact ⟨a, hgrants.nonzero, rfl, h.fill_anonymous hactive hpage hfile hgrants⟩
  · rcases fillPage_file h.ready hfile hempty with hsame | ⟨e, hfind, hfill⟩ | ⟨e, a, cache, phys, hne, heff, hfill⟩
    · exact Or.inl hsame
    · obtain ⟨hne, hinv⟩ := h.fill_hit hactive hpage hfile hempty (PageCache.findEntry_some hfind)
      right
      rw [hfill]
      exact ⟨_, hne, rfl, hinv⟩
    · right
      rw [hfill]
      exact ⟨a, hne, rfl, h.fill_miss hactive hpage hfile hempty hne heff⟩

/-! ## Releasing a page -/

/-- One page released, and cleared in the array. -/
def dropPage (s : Mapped) (i : Fin kMemoryMappingCount) (page : Nat) : Mapped :=
  { maps := s.maps.setMapping i ((s.maps.mMappings i).setPage page 0)
    cache := (releasePage (s.maps.mMappings i) (s.cache, s.phys) page).1
    phys := (releasePage (s.maps.mMappings i) (s.cache, s.phys) page).2 }

/-- The release of a page of a file takes a reference from the entry that caches it. -/
theorem Inv.release_page (h : Inv s) (hactive : (s.maps.mMappings i).active = true) (hmax : page < kMappingMaxPages)
    (hfile : (s.maps.mMappings i).fileId ≠ 0) (hpages : (s.maps.mMappings i).pages page ≠ 0) :
    ∃ e, (s.cache.mEntries e).Caches (s.maps.mMappings i).fileId (UInt64.ofNat page) ∧
      (s.cache.mEntries e).physical = (s.maps.mMappings i).pages page ∧ (s.cache.mEntries e).references ≠ 0 ∧
      (s.cache.release ((s.maps.mMappings i).pages page)).2 =
        s.cache.setReferences e ((s.cache.mEntries e).references - 1) := by
  have huses : (s.maps.mMappings i).Uses (s.maps.mMappings i).fileId (UInt64.ofNat page) :=
    ⟨hactive, rfl, hfile, by rw [Mapping.toNat_offset hmax]; exact hpages⟩
  obtain ⟨e, hcaches, hphysical⟩ := h.cached i _ _ huses
  rw [Mapping.toNat_offset hmax] at hphysical
  have hcount := h.counted e hcaches.1
  rw [hcaches.2.1, hcaches.2.2] at hcount
  have hpos := MemoryMappingManager.references_pos huses
  have hreferenced : (s.cache.mEntries e).references ≠ 0 := by
    intro hzero
    rw [hzero] at hcount
    have hz : (0 : UInt16).toNat = 0 := rfl
    omega
  refine ⟨e, hcaches, hphysical, hreferenced, ?_⟩
  unfold PageCache.release
  cases hfind : s.cache.findReferenced ((s.maps.mMappings i).pages page) with
  | none => exact absurd (PageCache.findReferenced_none hfind e hcaches.1 hphysical) hreferenced
  | some q =>
      obtain ⟨hq, hqphysical, -⟩ := PageCache.findReferenced_some hfind
      have hqe : q = e := h.cacheInv.physical_inj hq hcaches.1 (hqphysical.trans hphysical.symm)
      rw [hqe]
      rfl

/-- **A page is released.** -/
theorem Inv.dropPage (h : Inv s) (hactive : (s.maps.mMappings i).active = true)
    (hpage : page < (s.maps.mMappings i).pageCount.toNat) : Inv (s.dropPage i page) := by
  have hmax := h.max hactive hpage
  have hlayout := h.layout.setPage hactive hpage 0
  unfold Mapped.dropPage
  by_cases hpages : (s.maps.mMappings i).pages page = 0
  · -- there is nothing to release
    have hsame : releasePage (s.maps.mMappings i) (s.cache, s.phys) page = (s.cache, s.phys) := if_pos hpages
    rw [hsame, Mapping.setPage_self hpages, MemoryMappingManager.setMapping_self]
    exact h
  · by_cases hfile : (s.maps.mMappings i).fileId = 0
    · have hfree : releasePage (s.maps.mMappings i) (s.cache, s.phys) page =
          (s.cache, s.phys.freePage ((s.maps.mMappings i).pages page)) := by
        unfold releasePage
        rw [if_neg hpages, if_neg (not_not.mpr hfile)]
      have hheld : s.maps.holds (i, page) = some ((s.maps.mMappings i).pages page) :=
        if_pos ⟨hactive, hfile, hpages⟩
      have hreturns := PhysicalMemoryManager.freePage_returns h.ready (h.sound.left.taken hheld).1 hpages
      have hstep : Lib.Ledger.Steps (Lib.Ledger.mk s.maps.holds s.phys.pmm.Taken)
          (Lib.Ledger.mk (s.maps.setMapping i ((s.maps.mMappings i).setPage page 0)).holds
            (s.phys.pmm.freePage ((s.maps.mMappings i).pages page)).Taken) := by
        apply Relation.ReflTransGen.single
        refine .revokeOne h.sound.left hheld (fun q => ?_) hreturns.taken
        show (s.maps.setMapping i _).holds q = _
        rw [MemoryMappingManager.holds_setPage hactive hfile, if_pos rfl]
      rw [hfree]
      refine ⟨hreturns.ready, (hstep.left h.sound).sound h.sound, h.keys, hlayout, ?_, ?_⟩
      · apply h.cached_setPage hactive hmax
        · exact fun e f o hcaches _ => ⟨hcaches, rfl⟩
        · exact fun f o _ hne => absurd rfl hne
      · intro e he
        dsimp only
        rw [MemoryMappingManager.references_anonymous hfile]
        exact h.counted e he
    · obtain ⟨e, he, -, hreferenced, hrelease⟩ := h.release_page hactive hmax hfile hpages
      have hdrop : releasePage (s.maps.mMappings i) (s.cache, s.phys) page =
          (s.cache.setReferences e ((s.cache.mEntries e).references - 1), s.phys) := by
        unfold releasePage
        rw [if_neg hpages, if_pos hfile, hrelease]
      have hframes : (fun q => ((s.cache.setReferences e ((s.cache.mEntries e).references - 1)).mEntries q).frame) =
          fun q => (s.cache.mEntries q).frame := by
        funext q
        exact PageCache.setReferences_frame
      rw [hdrop]
      refine ⟨h.ready, ?_, ?_, hlayout, ?_, ?_⟩
      · dsimp only
        rw [MemoryMappingManager.holds_setPage_file hfile, hframes]
        exact h.sound
      · intro q r f o hq hr
        rw [PageCache.setReferences_caches] at hq hr
        exact h.keys q r f o hq hr
      · apply h.cached_setPage hactive hmax
        · exact fun q f o hq _ => ⟨PageCache.setReferences_caches.mpr hq, PageCache.setReferences_physical⟩
        · exact fun f o _ hne => absurd rfl hne
      · intro q hq
        dsimp only at hq ⊢
        rw [PageCache.setReferences_apply] at hq ⊢
        have hold := h.counted q hq
        have hsum := @MemoryMappingManager.references_setPage s.maps i page 0
          (s.cache.mEntries q).fileId (s.cache.mEntries q).pageOffset hactive hmax
        rw [if_neg (show ¬ ((s.maps.mMappings i).IsKey page _ _ ∧ (0 : UInt64) ≠ 0) from fun hbad => hbad.2 rfl)] at hsum
        simp only [CacheEntry.withReferences_references, CacheEntry.withReferences_fileId,
          CacheEntry.withReferences_pageOffset]
        by_cases hqe : q = e
        · subst hqe
          have hpos : 0 < (s.cache.mEntries q).references.toNat := UInt16.pos_iff_ne_zero.mpr hreferenced
          have hone : (1 : UInt16).toNat = 1 := rfl
          have hle : (1 : UInt16) ≤ (s.cache.mEntries q).references := by
            rw [UInt16.le_iff_toNat_le, hone]
            exact hpos
          rw [if_pos ⟨⟨he.2.1.symm, by rw [he.2.1]; exact hfile, he.2.2⟩, hpages⟩] at hsum
          rw [if_pos rfl, UInt16.toNat_sub_of_le _ _ hle, hone]
          omega
        · have hother : ¬ ((s.maps.mMappings i).IsKey page (s.cache.mEntries q).fileId
              (s.cache.mEntries q).pageOffset ∧ (s.maps.mMappings i).pages page ≠ 0) := by
            rintro ⟨⟨hf, -, ho⟩, -⟩
            exact hqe (h.keys q e _ _ ⟨hq, hf.symm, ho⟩ he)
          rw [if_neg hother] at hsum
          rw [if_neg hqe]
          omega

/-! ## `Unmap` -/

/-- The mapping with its first `n` pages cleared. -/
def clearedPages (mapping : Mapping) (n : Nat) : Mapping :=
  { mapping with pages := fun page => if page < n then 0 else mapping.pages page }

/-- The first `n` turns of the loop of `Unmap`, with the pages cleared that were released. -/
def dropPages (s : Mapped) (i : Fin kMemoryMappingCount) (n : Nat) : Mapped :=
  { maps := s.maps.setMapping i (clearedPages (s.maps.mMappings i) n)
    cache := ((List.range n).foldl (releasePage (s.maps.mMappings i)) (s.cache, s.phys)).1
    phys := ((List.range n).foldl (releasePage (s.maps.mMappings i)) (s.cache, s.phys)).2 }

theorem dropPages_zero (s : Mapped) (i : Fin kMemoryMappingCount) : s.dropPages i 0 = s := by
  have hclear : clearedPages (s.maps.mMappings i) 0 = s.maps.mMappings i := by
    unfold clearedPages
    simp only [Nat.not_lt_zero, if_false]
  unfold dropPages
  rw [hclear, MemoryMappingManager.setMapping_self]
  rfl

theorem dropPages_succ (s : Mapped) (i : Fin kMemoryMappingCount) (n : Nat) :
    s.dropPages i (n + 1) = (s.dropPages i n).dropPage i n := by
  have hmapping : (s.dropPages i n).maps.mMappings i = clearedPages (s.maps.mMappings i) n :=
    Function.update_self ..
  have hrelease : ∀ r, releasePage (clearedPages (s.maps.mMappings i) n) r n =
      releasePage (s.maps.mMappings i) r n := by
    intro r
    have hpages : (clearedPages (s.maps.mMappings i) n).pages n = (s.maps.mMappings i).pages n :=
      if_neg (Nat.lt_irrefl n)
    have hfile : (clearedPages (s.maps.mMappings i) n).fileId = (s.maps.mMappings i).fileId := rfl
    unfold releasePage
    simp only [hpages, hfile]
  have hclear : (clearedPages (s.maps.mMappings i) n).setPage n 0 = clearedPages (s.maps.mMappings i) (n + 1) := by
    unfold clearedPages Mapping.setPage
    congr 1
    funext page
    rw [Function.update_apply]
    by_cases hpage : page = n
    · rw [if_pos hpage, if_pos (by omega)]
    · have hiff : page < n ↔ page < n + 1 := by omega
      simp only [if_neg hpage, hiff]
  have hmaps : (s.dropPages i n).maps.setMapping i (clearedPages (s.maps.mMappings i) (n + 1)) =
      s.maps.setMapping i (clearedPages (s.maps.mMappings i) (n + 1)) := by
    unfold dropPages MemoryMappingManager.setMapping
    dsimp only
    rw [Function.update_idem]
  unfold dropPage
  rw [hmapping, hclear, hmaps, hrelease]
  unfold dropPages
  rw [List.range_succ, List.foldl_append]
  rfl

theorem Inv.dropPages (h : Inv s) (hactive : (s.maps.mMappings i).active = true) {n : Nat}
    (hn : n ≤ (s.maps.mMappings i).pageCount.toNat) : Inv (s.dropPages i n) := by
  induction n with
  | zero =>
      rw [dropPages_zero]
      exact h
  | succ n ih =>
      have hmapping : (s.dropPages i n).maps.mMappings i = clearedPages (s.maps.mMappings i) n :=
        Function.update_self ..
      rw [dropPages_succ]
      apply (ih (by omega)).dropPage
      · rw [hmapping]
        exact hactive
      · rw [hmapping]
        exact hn

/-- **An empty mapping may end, or start**, without anybody noticing. -/
theorem Inv.replaceEmpty (h : Inv s) {maps : MemoryMappingManager} (mapping : Mapping)
    (hmaps : ∀ q, maps.mMappings q = if q = i then mapping else s.maps.mMappings q) (hlayout : maps.Layout)
    (hold : ∀ page, (s.maps.mMappings i).active = true → (s.maps.mMappings i).pages page = 0)
    (hnew : ∀ page, mapping.active = true → mapping.pages page = 0) : Inv { s with maps } := by
  have hframe : ∀ mapping : Mapping, (∀ page, mapping.active = true → mapping.pages page = 0) →
      ∀ page, mapping.frame page = none := fun mapping hempty page => if_neg fun h => h.2.2 (hempty page h.1)
  have huses : ∀ mapping : Mapping, (∀ page, mapping.active = true → mapping.pages page = 0) →
      ∀ f o, ¬ mapping.Uses f o := fun mapping hempty f o h => h.2.2.2 (hempty _ h.1)
  have hholds : maps.holds = s.maps.holds := by
    funext q
    unfold MemoryMappingManager.holds
    rw [hmaps]
    by_cases hq : q.1 = i
    · rw [if_pos hq, hq, hframe _ hnew, hframe _ hold]
    · rw [if_neg hq]
  have hsame : ∀ q f o, (maps.mMappings q).Uses f o ↔ (s.maps.mMappings q).Uses f o := by
    intro q f o
    rw [hmaps]
    by_cases hq : q = i
    · rw [if_pos hq, hq]
      exact iff_of_false (huses _ hnew f o) (huses _ hold f o)
    · rw [if_neg hq]
  refine ⟨h.ready, ?_, h.keys, hlayout, fun q f o hq => ?_, fun e he => ?_⟩
  · dsimp only
    rw [hholds]
    exact h.sound
  · dsimp only at hq ⊢
    obtain ⟨e, hcaches, hphysical⟩ := h.cached q f o ((hsame q f o).mp hq)
    have hqi : q ≠ i := by
      rintro rfl
      exact huses _ hold f o ((hsame q f o).mp hq)
    rw [hmaps, if_neg hqi]
    exact ⟨e, hcaches, hphysical⟩
  · have hreferences : ∀ f o, maps.references f o = s.maps.references f o := by
      intro f o
      unfold MemoryMappingManager.references
      simp only [hsame]
    dsimp only
    rw [hreferences]
    exact h.counted e he

/-- **`Unmap`** of the address of a mapping. -/
theorem unmap_found (h : Inv s) (hactive : (s.maps.mMappings i).active = true) :
    s.unmap (s.maps.mMappings i).address =
      (true,
        { s.dropPages i (s.maps.mMappings i).pageCount.toNat with
          maps := s.maps.setMapping i { s.maps.mMappings i with active := false } }) := by
  unfold unmap
  rw [h.layout.find_address hactive]
  dsimp only
  rw [if_neg (not_not.mpr rfl)]
  rfl

theorem Inv.unmap_found (h : Inv s) (hactive : (s.maps.mMappings i).active = true) :
    Inv (s.unmap (s.maps.mMappings i).address).2 := by
  have hdropped := h.dropPages hactive (Nat.le_refl _)
  have hmapping : (s.dropPages i (s.maps.mMappings i).pageCount.toNat).maps.mMappings i =
      clearedPages (s.maps.mMappings i) (s.maps.mMappings i).pageCount.toNat := Function.update_self ..
  rw [Mapped.unmap_found h hactive]
  refine hdropped.replaceEmpty (i := i) { s.maps.mMappings i with active := false } (fun q => ?_) ?_ ?_ ?_
  · rw [MemoryMappingManager.setMapping_apply]
    by_cases hq : q = i
    · rw [if_pos hq, if_pos hq]
    · rw [if_neg hq, if_neg hq]
      exact (Function.update_of_ne hq ..).symm
  · exact h.layout.setMapping rfl rfl (fun hbad => absurd hbad Bool.false_ne_true)
      fun hbad => absurd hbad Bool.false_ne_true
  · intro page _
    rw [hmapping]
    unfold clearedPages
    dsimp only
    split
    · rfl
    · rename_i hpast
      exact (h.layout.placed i hactive).past page (Nat.le_of_not_lt hpast)
  · exact fun page hbad => absurd hbad Bool.false_ne_true

/-- `Unmap` fails and changes nothing, or the address is that of a mapping. -/
theorem unmap_cases (h : Inv s) (address : UInt64) :
    s.unmap address = (false, s) ∨
    ∃ i, (s.maps.mMappings i).active = true ∧ (s.maps.mMappings i).address = address := by
  cases hfind : s.maps.find address with
  | none =>
      left
      unfold unmap
      rw [hfind]
  | some i =>
      by_cases haddress : (s.maps.mMappings i).address = address
      · exact Or.inr ⟨i, (h.layout.find_iff.mp hfind).1, haddress⟩
      · left
        unfold unmap
        rw [hfind]
        exact if_pos haddress

/-! ## The operations -/

/-- **What happens to a mapping that goes on**: it stays where it is, and keeps the pages it has. -/
structure Kept (mapping mapping' : Mapping) : Prop where
  active    : mapping'.active = true
  address   : mapping'.address = mapping.address
  pageCount : mapping'.pageCount = mapping.pageCount
  fileId    : mapping'.fileId = mapping.fileId
  pages     : ∀ page, mapping.pages page ≠ 0 → mapping'.pages page = mapping.pages page

theorem Kept.refl {mapping : Mapping} (h : mapping.active = true) : Kept mapping mapping :=
  ⟨h, rfl, rfl, rfl, fun _ _ => rfl⟩

theorem Kept.trans {mapping mapping' mapping'' : Mapping} (h : Kept mapping mapping') (h' : Kept mapping' mapping'') :
    Kept mapping mapping'' := by
  refine ⟨h'.active, h'.address.trans h.address, h'.pageCount.trans h.pageCount, h'.fileId.trans h.fileId, ?_⟩
  intro page hpage
  have hfirst := h.pages page hpage
  rw [h'.pages page (hfirst ▸ hpage), hfirst]

/-- Filling an empty page keeps every mapping. -/
theorem Inv.fillPage_kept (h : Inv s) (hactive : (s.maps.mMappings i).active = true)
    (hpage : page < (s.maps.mMappings i).pageCount.toNat) (hempty : (s.maps.mMappings i).pages page = 0) :
    Inv (s.fillPage i page) ∧ (s.fillPage i page).maps.mNextAddress = s.maps.mNextAddress ∧
    (∀ q ≠ i, (s.fillPage i page).maps.mMappings q = s.maps.mMappings q) ∧
    Kept (s.maps.mMappings i) ((s.fillPage i page).maps.mMappings i) ∧
    ∀ q ≠ page, ((s.fillPage i page).maps.mMappings i).pages q = (s.maps.mMappings i).pages q := by
  rcases h.fillPage hactive hpage hempty with hsame | ⟨a, -, hmaps, hinv⟩
  · rw [hsame]
    exact ⟨h, rfl, fun _ _ => rfl, .refl hactive, fun _ _ => rfl⟩
  · have hmapping : (s.fillPage i page).maps.mMappings i = (s.maps.mMappings i).setPage page a := by
      rw [hmaps]
      exact Function.update_self ..
    refine ⟨hinv, by rw [hmaps]; rfl, fun q hq => ?_, ?_, fun q hq => ?_⟩
    · rw [hmaps]
      exact Function.update_of_ne hq ..
    · rw [hmapping]
      refine ⟨hactive, rfl, rfl, rfl, fun q hq => ?_⟩
      rw [Mapping.setPage_apply, if_neg]
      rintro rfl
      exact hq hempty
    · rw [hmapping, Mapping.setPage_apply, if_neg hq]

theorem Inv.markDirty (h : Inv s) (physical : UInt64) : Inv { s with cache := s.cache.markDirty physical } := by
  have hentry := PageCache.markDirty_entry s.cache physical
  have hcaches : ∀ e f o, ((s.cache.markDirty physical).mEntries e).Caches f o ↔ (s.cache.mEntries e).Caches f o := by
    intro e f o
    obtain ⟨hfile, hoffset, -, -, hactive⟩ := hentry e
    unfold CacheEntry.Caches
    rw [hfile, hoffset, hactive]
  have hframes : (fun e => ((s.cache.markDirty physical).mEntries e).frame) = fun e => (s.cache.mEntries e).frame :=
    congrArg Lib.Ledger.holds (PageCache.ledger_markDirty s.cache s.phys physical)
  refine ⟨h.ready, ?_, fun q r f o hq hr => ?_, h.layout, fun q f o hq => ?_, fun e he => ?_⟩
  · dsimp only
    rw [hframes]
    exact h.sound
  · exact h.keys q r f o ((hcaches q f o).mp hq) ((hcaches r f o).mp hr)
  · obtain ⟨e, he, hphysical⟩ := h.cached q f o hq
    exact ⟨e, (hcaches e f o).mpr he, (hentry e).2.2.1.trans hphysical⟩
  · obtain ⟨hfile, hoffset, -, hreferences, hactive⟩ := hentry e
    dsimp only at he ⊢
    rw [hactive] at he
    rw [hfile, hoffset, hreferences]
    exact h.counted e he

/-- **`HandlePageFault`** answers 0 and changes nothing, for an address in no mapping or a write to a read-only one; or
    it fills the page if it is empty, answers what is in it, and may mark it dirty. -/
theorem handlePageFault_cases (s : Mapped) (address : UInt64) (write : Bool) :
    s.handlePageFault address write = (0, s) ∧
      (s.maps.find address = none ∨
        ∃ i, s.maps.find address = some i ∧ write = true ∧ (s.maps.mMappings i).writable = false) ∨
    ∃ i t, s.maps.find address = some i ∧
      t = (if (s.maps.mMappings i).pages ((s.maps.mMappings i).pageIndex address) = 0
        then s.fillPage i ((s.maps.mMappings i).pageIndex address) else s) ∧
      (s.handlePageFault address write).1 = (t.maps.mMappings i).pages ((s.maps.mMappings i).pageIndex address) ∧
      ((s.handlePageFault address write).2 = t ∨
        (s.handlePageFault address write).2 =
          { t with cache := t.cache.markDirty (s.handlePageFault address write).1 }) := by
  unfold handlePageFault
  cases hfind : s.maps.find address with
  | none => exact Or.inl ⟨rfl, Or.inl rfl⟩
  | some i =>
      dsimp only
      by_cases hbad : (write && !(s.maps.mMappings i).writable) = true
      · rw [if_pos hbad]
        rw [Bool.and_eq_true, Bool.not_eq_true'] at hbad
        exact Or.inl ⟨rfl, Or.inr ⟨i, rfl, hbad⟩⟩
      · rw [if_neg hbad]
        right
        refine ⟨i, _, rfl, rfl, rfl, ?_⟩
        dsimp only
        generalize (if (s.maps.mMappings i).pages ((s.maps.mMappings i).pageIndex address) = 0
          then s.fillPage i ((s.maps.mMappings i).pageIndex address) else s) = t
        split
        · exact Or.inr rfl
        · exact Or.inl rfl

theorem Inv.handlePageFault (h : Inv s) (address : UInt64) (write : Bool) :
    Inv (s.handlePageFault address write).2 ∧
    (s.handlePageFault address write).2.maps.mNextAddress = s.maps.mNextAddress ∧
    ∀ q, (s.maps.mMappings q).active = true →
      Kept (s.maps.mMappings q) ((s.handlePageFault address write).2.maps.mMappings q) := by
  rcases handlePageFault_cases s address write with ⟨hfail, -⟩ | ⟨i, t, hfind, ht, -, hresult⟩
  · rw [hfail]
    exact ⟨h, rfl, fun q hq => .refl hq⟩
  · have hactive := (h.layout.find_iff.mp hfind).1
    have hpage := (h.layout.page_lt hfind).1
    have hfilled : Inv t ∧ t.maps.mNextAddress = s.maps.mNextAddress ∧
        ∀ q, (s.maps.mMappings q).active = true → Kept (s.maps.mMappings q) (t.maps.mMappings q) := by
      rw [ht]
      split
      · rename_i hempty
        obtain ⟨hinv, hnext, hothers, hkept, -⟩ := h.fillPage_kept hactive hpage hempty
        refine ⟨hinv, hnext, fun q hq => ?_⟩
        by_cases hqi : q = i
        · rw [hqi]
          exact hkept
        · rw [hothers q hqi]
          exact .refl hq
      · exact ⟨h, rfl, fun q hq => .refl hq⟩
    rcases hresult with hresult | hresult <;> rw [hresult]
    · exact hfilled
    · exact ⟨hfilled.1.markDirty _, hfilled.2⟩

/-- The loop of `Map` fills empty pages of one mapping. -/
theorem Inv.fillLoop (h : Inv s) (hactive : (s.maps.mMappings i).active = true) (pages : List Nat)
    (hpages : ∀ page ∈ pages, page < (s.maps.mMappings i).pageCount.toNat ∧ (s.maps.mMappings i).pages page = 0)
    (hnodup : pages.Nodup) :
    Inv (s.fillLoop i pages).2 ∧ (s.fillLoop i pages).2.maps.mNextAddress = s.maps.mNextAddress ∧
    (∀ q ≠ i, (s.fillLoop i pages).2.maps.mMappings q = s.maps.mMappings q) ∧
    Kept (s.maps.mMappings i) ((s.fillLoop i pages).2.maps.mMappings i) := by
  induction pages generalizing s with
  | nil => exact ⟨h, rfl, fun _ _ => rfl, .refl hactive⟩
  | cons page pages ih =>
      obtain ⟨hpage, hempty⟩ := hpages page List.mem_cons_self
      obtain ⟨hinv, hnext, hothers, hkept, hsame⟩ := h.fillPage_kept hactive hpage hempty
      obtain ⟨hnot, hrest⟩ := List.nodup_cons.mp hnodup
      unfold Mapped.fillLoop
      dsimp only
      split
      · exact ⟨hinv, hnext, hothers, hkept⟩
      · obtain ⟨hinv', hnext', hothers', hkept'⟩ := ih hinv hkept.active (fun q hq => by
          obtain ⟨hlt, hzero⟩ := hpages q (List.mem_cons_of_mem _ hq)
          rw [hkept.pageCount, hsame q fun heq => hnot (heq ▸ hq)]
          exact ⟨hlt, hzero⟩) hrest
        exact ⟨hinv', hnext'.trans hnext, fun q hq => (hothers' q hq).trans (hothers q hq), hkept.trans hkept'⟩

/-- What the end of mapping `i` does to the others. -/
theorem unmap_others (h : Inv s) (hactive : (s.maps.mMappings i).active = true) :
    (s.unmap (s.maps.mMappings i).address).2.maps.mNextAddress = s.maps.mNextAddress ∧
    ∀ q ≠ i, (s.unmap (s.maps.mMappings i).address).2.maps.mMappings q = s.maps.mMappings q := by
  rw [unmap_found h hactive]
  exact ⟨rfl, fun q hq => Function.update_of_ne hq ..⟩

/-- Only `openMapping` moves the next address. -/
theorem fillPage_next (s : Mapped) (i : Fin kMemoryMappingCount) (page : Nat) :
    (s.fillPage i page).maps.mNextAddress = s.maps.mNextAddress := by
  unfold fillPage materialize
  dsimp only
  split <;> rfl

theorem fillLoop_next (s : Mapped) (i : Fin kMemoryMappingCount) (pages : List Nat) :
    (s.fillLoop i pages).2.maps.mNextAddress = s.maps.mNextAddress := by
  induction pages generalizing s with
  | nil => rfl
  | cons page pages ih =>
      unfold Mapped.fillLoop
      dsimp only
      split
      · exact fillPage_next s i page
      · rw [ih]
        exact fillPage_next s i page

theorem unmap_next (s : Mapped) (address : UInt64) : (s.unmap address).2.maps.mNextAddress = s.maps.mNextAddress := by
  unfold unmap
  cases s.maps.find address with
  | none => rfl
  | some i =>
      dsimp only
      split <;> rfl

/-- The number of pages that `Map` makes of a length. -/
def pageCountOf (length : UInt64) : UInt64 := (length + kPageSize - 1) / kPageSize

/-- The state once `Map` has written its slot. -/
def opened (s : Mapped) (i : Fin kMemoryMappingCount) (pages fileId : UInt64) (writable demandPaged : Bool) : Mapped :=
  { s with maps := s.maps.openMapping i pages fileId writable demandPaged }

section Opened

variable {pages fileId : UInt64} {writable demandPaged : Bool}

@[simp] theorem opened_cache : (s.opened i pages fileId writable demandPaged).cache = s.cache := rfl

@[simp] theorem opened_phys : (s.opened i pages fileId writable demandPaged).phys = s.phys := rfl

theorem opened_self : (s.opened i pages fileId writable demandPaged).maps.mMappings i =
    { address := s.maps.mNextAddress, pageCount := pages, fileId, writable, demandPaged, active := true } :=
  Function.update_self ..

theorem opened_other {q : Fin kMemoryMappingCount} (hq : q ≠ i) :
    (s.opened i pages fileId writable demandPaged).maps.mMappings q = s.maps.mMappings q :=
  Function.update_of_ne hq ..

theorem findInactive_some (hslot : s.maps.findInactive = some i) : (s.maps.mMappings i).active = false := by
  simpa using Lib.firstSlot_true hslot

/-- A new mapping is empty. -/
theorem Inv.opened (h : Inv s) (hslot : s.maps.findInactive = some i)
    (hcount : 0 < pages.toNat ∧ pages.toNat ≤ kMappingMaxPages)
    (hroom : s.maps.mNextAddress.toNat + pages.toNat * 4096 < 2 ^ 64) :
    Inv (s.opened i pages fileId writable demandPaged) := by
  apply h.replaceEmpty _ fun q => Function.update_apply ..
  · exact h.layout.openMapping i hcount hroom fileId writable demandPaged
  · intro page hactive
    rw [findInactive_some hslot] at hactive
    exact absurd hactive Bool.false_ne_true
  · exact fun page _ => rfl

end Opened

/-- **`Map`** answers 0 and changes nothing, for a bad length or without a free slot, or it opens a mapping. A mapping
    that is not demand-paged is filled; when a page gets nothing, `Map` answers 0 and ends the mapping again. -/
theorem map_cases (s : Mapped) (fileId length : UInt64) (writable demandPaged : Bool) :
    s.map fileId length writable demandPaged = (0, s) ∧ (pageCountOf length = 0 ∨
      kMappingMaxPages < (pageCountOf length).toNat ∨ s.maps.findInactive = none) ∨
    ∃ i t, s.maps.findInactive = some i ∧
      (0 < (pageCountOf length).toNat ∧ (pageCountOf length).toNat ≤ kMappingMaxPages) ∧
      t = s.opened i (pageCountOf length) fileId writable demandPaged ∧
      (demandPaged = true ∧ s.map fileId length writable demandPaged = (s.maps.mNextAddress, t) ∨
        demandPaged = false ∧ (t.fillLoop i (List.range (pageCountOf length).toNat)).1 = true ∧
          s.map fileId length writable demandPaged =
            (s.maps.mNextAddress, (t.fillLoop i (List.range (pageCountOf length).toNat)).2) ∨
        demandPaged = false ∧ (t.fillLoop i (List.range (pageCountOf length).toNat)).1 = false ∧
          s.map fileId length writable demandPaged =
            (0, ((t.fillLoop i (List.range (pageCountOf length).toNat)).2.unmap s.maps.mNextAddress).2)) := by
  unfold Mapped.map
  dsimp only
  rw [show (length + kPageSize - 1) / kPageSize = pageCountOf length from rfl]
  generalize pageCountOf length = pages
  by_cases hbad : pages = 0 ∨ pages.toNat > kMappingMaxPages
  · rw [if_pos hbad]
    exact Or.inl ⟨rfl, hbad.imp_right Or.inl⟩
  · rw [if_neg hbad]
    obtain ⟨hnz, hmax⟩ := not_or.mp hbad
    cases hslot : s.maps.findInactive with
    | none => exact Or.inl ⟨rfl, Or.inr (Or.inr rfl)⟩
    | some i =>
        refine Or.inr ⟨i, _, rfl, ⟨UInt64.pos_iff_ne_zero.mpr hnz, Nat.le_of_not_lt hmax⟩, rfl, ?_⟩
        dsimp only
        rw [show ({ s with maps := s.maps.openMapping i pages fileId writable demandPaged } : Mapped) =
          s.opened i pages fileId writable demandPaged from rfl]
        cases demandPaged with
        | true => exact Or.inl ⟨rfl, rfl⟩
        | false =>
            right
            cases hfilled : ((s.opened i pages fileId writable false).fillLoop i (List.range pages.toNat)).1 with
            | true => exact Or.inl ⟨rfl, rfl, rfl⟩
            | false => exact Or.inr ⟨rfl, rfl, rfl⟩

/-- The loop of `Map` over the pages of a mapping that has just been opened. -/
theorem Inv.fill_opened (h : Inv s) {pages fileId : UInt64} {writable demandPaged : Bool}
    (hslot : s.maps.findInactive = some i) (hcount : 0 < pages.toNat ∧ pages.toNat ≤ kMappingMaxPages)
    (hroom : s.maps.mNextAddress.toNat + pages.toNat * 4096 < 2 ^ 64) {t : Mapped}
    (ht : ((s.opened i pages fileId writable demandPaged).fillLoop i (List.range pages.toNat)).2 = t) :
    Inv t ∧ (∀ q ≠ i, t.maps.mMappings q = s.maps.mMappings q) ∧
    Kept { address := s.maps.mNextAddress, pageCount := pages, fileId, writable, demandPaged, active := true }
      (t.maps.mMappings i) := by
  have hopened : Inv (s.opened i pages fileId writable demandPaged) := h.opened hslot hcount hroom
  have hactive : ((s.opened i pages fileId writable demandPaged).maps.mMappings i).active = true := by
    rw [opened_self]
  obtain ⟨hinv, -, hothers, hkept⟩ := hopened.fillLoop hactive (List.range pages.toNat) (fun page hpage => by
    rw [opened_self]
    exact ⟨List.mem_range.mp hpage, rfl⟩) List.nodup_range
  rw [ht] at hinv hothers hkept
  rw [opened_self] at hkept
  exact ⟨hinv, fun q hq => (hothers q hq).trans (opened_other hq), hkept⟩

/-- **`Map`** keeps the invariant and every mapping there was, as long as the next address does not wrap. -/
theorem Inv.map (h : Inv s) (fileId length : UInt64) (writable demandPaged : Bool)
    (hwrap : s.maps.mNextAddress ≤ (s.map fileId length writable demandPaged).2.maps.mNextAddress) :
    Inv (s.map fileId length writable demandPaged).2 ∧
    ∀ q, (s.maps.mMappings q).active = true →
      Kept (s.maps.mMappings q) ((s.map fileId length writable demandPaged).2.maps.mMappings q) := by
  rcases map_cases s fileId length writable demandPaged with ⟨hnothing, -⟩ | ⟨i, t, hslot, hcount, rfl, hcases⟩
  · rw [hnothing]
    exact ⟨h, fun q hq => .refl hq⟩
  · -- whichever way the call ends, the next address is the one after the new mapping
    have hroom : s.maps.mNextAddress.toNat + (pageCountOf length).toNat * 4096 < 2 ^ 64 := by
      have hle : s.maps.mNextAddress ≤ s.maps.mNextAddress + pageCountOf length * kPageSize := by
        rcases hcases with ⟨-, hmap⟩ | ⟨-, -, hmap⟩ | ⟨-, -, hmap⟩ <;> rw [hmap] at hwrap
        · exact hwrap
        · rwa [fillLoop_next] at hwrap
        · rwa [unmap_next, fillLoop_next] at hwrap
      have hlt := s.maps.mNextAddress.toNat_lt
      have hmax : (pageCountOf length).toNat ≤ 16 := hcount.2
      rw [UInt64.le_iff_toNat_le, UInt64.toNat_add, UInt64.toNat_mul, toNat_kPageSize] at hle
      omega
    have hne : ∀ q, (s.maps.mMappings q).active = true → q ≠ i := by
      rintro q hq rfl
      rw [findInactive_some hslot] at hq
      exact absurd hq Bool.false_ne_true
    rcases hcases with ⟨-, hmap⟩ | ⟨-, -, hmap⟩ | ⟨-, -, hmap⟩ <;> rw [hmap]
    · refine ⟨h.opened hslot hcount hroom, fun q hq => ?_⟩
      rw [opened_other (hne q hq)]
      exact .refl hq
    · obtain ⟨hfilled, hothers, -⟩ := h.fill_opened hslot hcount hroom rfl
      refine ⟨hfilled, fun q hq => ?_⟩
      rw [hothers q (hne q hq)]
      exact .refl hq
    · -- a page got nothing, and the mapping ends again
      obtain ⟨hfilled, hothers, hkept⟩ := h.fill_opened hslot hcount hroom rfl
      rw [show s.maps.mNextAddress = _ from hkept.address.symm]
      refine ⟨hfilled.unmap_found hkept.active, fun q hq => ?_⟩
      rw [(unmap_others hfilled hkept.active).2 q (hne q hq), hothers q (hne q hq)]
      exact .refl hq

/-- **`Unmap`** keeps the invariant and every other mapping. -/
theorem Inv.unmap (h : Inv s) (address : UInt64) :
    Inv (s.unmap address).2 ∧
    ∀ q, (s.maps.mMappings q).active = true → (s.maps.mMappings q).address ≠ address →
      Kept (s.maps.mMappings q) ((s.unmap address).2.maps.mMappings q) := by
  rcases unmap_cases h address with hfail | ⟨i, hactive, rfl⟩
  · rw [hfail]
    exact ⟨h, fun q hq _ => .refl hq⟩
  · refine ⟨h.unmap_found hactive, fun q hq hne => ?_⟩
    rw [(unmap_others h hactive).2 q fun hqi => hne (hqi ▸ rfl)]
    exact .refl hq

end Mapped
end UefiBoot
