import UefiBoot.Memory.MappingPages

/-!
# `Memory.Rollback` — what a `Map` that fails leaves behind

When a page gets nothing, `Map` unmaps what it has filled so far. For anonymous pages the loop of `Map` is a
`GrantsAll`, and the loop of `Unmap` gives the same frames back. For the pages of a file both loops change only the
counts of the entries there were (`Extends`), and then the counts are right because `Inv` says what a count is.
-/

namespace UefiBoot

namespace Mapping

/-- The frames and cached pages of a mapping, in the order of its pages. -/
def materialised (mapping : Mapping) : List UInt64 :=
  ((List.range mapping.pageCount.toNat).map mapping.pages).filter (· ≠ 0)

end Mapping

namespace Mapped

variable {s t u : Mapped} {i : Fin kMemoryMappingCount} {page : Nat} {a fileId length : UInt64} {writable : Bool}

/-! ## Anonymous pages -/

/-- The loop of `Map` keeps what a page has. -/
theorem fillLoop_keeps (hready : s.phys.pmm.Ready) {pages : List Nat} (hfile : (s.maps.mMappings i).fileId = 0)
    (hempty : ∀ page ∈ pages, (s.maps.mMappings i).pages page = 0) (hnodup : pages.Nodup) :
    (s.fillLoop i pages).2.cache = s.cache ∧
    s.phys.pmm.GrantsAll (s.fillLoop i pages).2.phys.pmm
      ((pages.map ((s.fillLoop i pages).2.maps.mMappings i).pages).filter (· ≠ 0)) ∧
    ((s.fillLoop i pages).2.maps.mMappings i).fileId = 0 ∧
    ∀ page ∉ pages, ((s.fillLoop i pages).2.maps.mMappings i).pages page = (s.maps.mMappings i).pages page := by
  induction pages generalizing s with
  | nil => exact ⟨rfl, .nil hready, hfile, fun _ _ => rfl⟩
  | cons page pages ih =>
      obtain ⟨hnot, hrest⟩ := List.nodup_cons.mp hnodup
      have hpage := hempty page List.mem_cons_self
      unfold Mapped.fillLoop
      dsimp only
      rcases fillPage_anonymous hready hfile hpage with hsame | ⟨a, phys, hgrants, hfill⟩
      · -- the loop stops, and no page of the list has anything
        rw [hsame, if_pos hpage]
        refine ⟨rfl, ?_, hfile, fun _ _ => rfl⟩
        have hnothing : ((page :: pages).map (s.maps.mMappings i).pages).filter (· ≠ 0) = [] := by
          rw [List.filter_eq_nil_iff]
          intro b hb
          obtain ⟨q, hq, rfl⟩ := List.mem_map.mp hb
          simp only [hempty q hq, ne_eq, not_true_eq_false, decide_false, Bool.false_eq_true, not_false_eq_true]
        rw [hnothing]
        exact .nil hready
      · have hmapping : (s.fillPage i page).maps.mMappings i = (s.maps.mMappings i).setPage page a := by
          rw [hfill]
          exact Function.update_self ..
        have hat : ((s.fillPage i page).maps.mMappings i).pages page = a := by
          rw [hmapping, Mapping.setPage_apply, if_pos rfl]
        have hcache : (s.fillPage i page).cache = s.cache := by rw [hfill]
        have hpmm : (s.fillPage i page).phys.pmm = phys.pmm := by rw [hfill]
        rw [if_neg (by rw [hat]; exact hgrants.nonzero)]
        obtain ⟨hcache', hgrants', hfile', hkept⟩ := @ih (s.fillPage i page) (by rw [hpmm]; exact hgrants.ready)
          (by rw [hmapping]; exact hfile) (fun q hq => by
            have hne : q ≠ page := by
              rintro rfl
              exact hnot hq
            rw [hmapping, Mapping.setPage_apply, if_neg hne]
            exact hempty q (List.mem_cons_of_mem _ hq)) hrest
        refine ⟨hcache'.trans hcache, ?_, hfile', fun q hq => ?_⟩
        · rw [List.map_cons, hkept page hnot, hat, List.filter_cons_of_pos (by simpa using hgrants.nonzero)]
          rw [hpmm] at hgrants'
          exact .cons hgrants hgrants'
        · rw [List.mem_cons, not_or] at hq
          rw [hkept q hq.2, hmapping, Mapping.setPage_apply, if_neg hq.1]

/-- The loop of `Unmap` over anonymous pages is a loop of `FreePage`. -/
theorem foldl_releasePage_anonymous {mapping : Mapping} (hfile : mapping.fileId = 0) (c : PageCache) (p : Physical)
    (pages : List Nat) :
    (pages.foldl (releasePage mapping) (c, p)).1 = c ∧
    (pages.foldl (releasePage mapping) (c, p)).2.pmm = p.pmm.freePages ((pages.map mapping.pages).filter (· ≠ 0)) := by
  induction pages generalizing p with
  | nil => exact ⟨rfl, rfl⟩
  | cons page pages ih =>
      rw [List.foldl_cons, List.map_cons]
      unfold releasePage
      by_cases hpage : mapping.pages page = 0
      · rw [if_pos hpage, List.filter_cons_of_neg (by simpa using hpage)]
        exact ih p
      · rw [if_neg hpage, if_neg (not_not.mpr hfile), List.filter_cons_of_pos (by simpa using hpage)]
        exact ih (p.freePage (mapping.pages page))

/-! ## Pages of files -/

/-- Nothing but the counts of active entries has changed. -/
def Recounts (c c' : PageCache) : Prop :=
  ∀ e, ∃ references, c'.mEntries e = (c.mEntries e).withReferences references ∧
    ((c.mEntries e).active = false → references = (c.mEntries e).references)

theorem Recounts.refl (c : PageCache) : Recounts c c := fun _ => ⟨_, rfl, fun _ => rfl⟩

theorem Recounts.trans {c c' c'' : PageCache} (h : Recounts c c') (h' : Recounts c' c'') : Recounts c c'' := by
  intro e
  obtain ⟨references, hentry, hsame⟩ := h e
  obtain ⟨references', hentry', hsame'⟩ := h' e
  rw [hentry] at hentry' hsame'
  exact ⟨references', hentry', fun he => (hsame' he).trans (hsame he)⟩

/-- Another count for an active entry. -/
theorem Recounts.setReferences {c : PageCache} {e : Fin kPageCacheEntryCount} (he : (c.mEntries e).active = true)
    (references : UInt16) : Recounts c (c.setReferences e references) := by
  refine fun q => ⟨_, PageCache.setReferences_apply .., fun hq => if_neg ?_⟩
  rintro rfl
  rw [he] at hq
  exact absurd hq (by simp)

/-- **The entries there were keep everything but their counts**, and the frames that were taken since are those of
    new entries. -/
structure Extends (s t : Mapped) : Prop where
  kept  : ∀ e, (s.cache.mEntries e).active = true →
    ∃ references, t.cache.mEntries e = (s.cache.mEntries e).withReferences references
  fresh : ∀ e, (s.cache.mEntries e).active = false →
    t.cache.mEntries e = s.cache.mEntries e ∨ (t.cache.mEntries e).active = true
  taken : ∀ a, t.phys.pmm.Taken a ↔
    s.phys.pmm.Taken a ∨ ∃ e, (s.cache.mEntries e).active = false ∧ (t.cache.mEntries e).frame = some a

theorem frame_inactive {entry : CacheEntry} (h : entry.active = false) : entry.frame = none := by
  unfold CacheEntry.frame
  rw [if_neg (by rw [h]; exact Bool.false_ne_true)]

theorem Extends.of_recounts (hphys : t.phys.pmm = s.phys.pmm) (h : Recounts s.cache t.cache) : Extends s t := by
  have hfresh : ∀ e, (s.cache.mEntries e).active = false → t.cache.mEntries e = s.cache.mEntries e := by
    intro e he
    obtain ⟨references, hentry, hsame⟩ := h e
    rw [hentry, hsame he]
    rfl
  refine ⟨fun e _ => ?_, fun e he => Or.inl (hfresh e he), fun a => ?_⟩
  · obtain ⟨references, hentry, -⟩ := h e
    exact ⟨references, hentry⟩
  · rw [hphys]
    refine ⟨Or.inl, ?_⟩
    rintro (htaken | ⟨e, he, hframe⟩)
    · exact htaken
    · rw [hfresh e he, frame_inactive he] at hframe
      exact absurd hframe (by simp)

theorem Extends.refl (s : Mapped) : Extends s s := .of_recounts rfl (.refl s.cache)

theorem Extends.active (h : Extends s t) {e : Fin kPageCacheEntryCount} (he : (s.cache.mEntries e).active = true) :
    (t.cache.mEntries e).active = true ∧ (t.cache.mEntries e).frame = (s.cache.mEntries e).frame := by
  obtain ⟨references, hentry⟩ := h.kept e he
  rw [hentry]
  exact ⟨he, rfl⟩

theorem Extends.trans (h : Extends s t) (h' : Extends t u) : Extends s u := by
  refine ⟨fun e he => ?_, fun e he => ?_, fun a => ?_⟩
  · obtain ⟨references, hentry⟩ := h.kept e he
    obtain ⟨references', hentry'⟩ := h'.kept e (h.active he).1
    refine ⟨references', ?_⟩
    rw [hentry', hentry]
    rfl
  · rcases h.fresh e he with hsame | hactive
    · rw [← hsame] at he ⊢
      exact h'.fresh e he
    · exact Or.inr (h'.active hactive).1
  · rw [h'.taken, h.taken]
    constructor
    · rintro ((htaken | ⟨e, he, hframe⟩) | ⟨e, he, hframe⟩)
      · exact Or.inl htaken
      · -- an entry of the first stretch is still there after the second
        have hactive : (t.cache.mEntries e).active = true := by
          by_contra hno
          rw [frame_inactive (Bool.not_eq_true _ ▸ hno)] at hframe
          exact absurd hframe (by simp)
        exact Or.inr ⟨e, he, (h'.active hactive).2.trans hframe⟩
      · refine Or.inr ⟨e, ?_, hframe⟩
        by_contra hno
        rw [(h.active (Bool.not_eq_false _ ▸ hno)).1] at he
        exact absurd he (by simp)
    · rintro (htaken | ⟨e, he, hframe⟩)
      · exact Or.inl (Or.inl htaken)
      · cases hactive : (t.cache.mEntries e).active with
        | true => exact Or.inl (Or.inr ⟨e, he, (h'.active hactive).2.symm.trans hframe⟩)
        | false => exact Or.inr ⟨e, hactive, hframe⟩

/-- A page of a file is filled. -/
theorem Extends.fillPage (hready : s.phys.pmm.Ready) (hfile : (s.maps.mMappings i).fileId ≠ 0)
    (hempty : (s.maps.mMappings i).pages page = 0) : Extends s (s.fillPage i page) := by
  rcases fillPage_file hready hfile hempty with hsame | ⟨e, hfind, hfill⟩ | ⟨e, a, cache, phys, -, heff, hfill⟩
  · rw [hsame]
    exact .refl s
  · rw [hfill]
    exact .of_recounts rfl (.setReferences (PageCache.findEntry_some hfind).1 _)
  · rw [hfill]
    cases heff with
    | filled e fileId pageOffset a hslot hnew hgrants hbytes =>
        have hne : ∀ q, (s.cache.mEntries q).active = true → q ≠ e := by
          rintro q hq rfl
          rw [hslot] at hq
          exact absurd hq (by simp)
        refine ⟨fun q hq => ?_, fun q hq => ?_, fun b => ?_⟩
        · refine ⟨(s.cache.mEntries q).references, ?_⟩
          dsimp only
          rw [PageCache.setEntry_apply, if_neg (hne q hq)]
          rfl
        · dsimp only
          rw [PageCache.setEntry_apply]
          by_cases hqe : q = e
          · rw [if_pos hqe]
            exact Or.inr rfl
          · rw [if_neg hqe]
            exact Or.inl rfl
        · dsimp only
          rw [hgrants.taken, or_comm]
          refine or_congr_right ⟨?_, ?_⟩
          · rintro rfl
            refine ⟨e, hslot, ?_⟩
            rw [PageCache.setEntry_apply, if_pos rfl]
            rfl
          · rintro ⟨q, hq, hframe⟩
            rw [PageCache.setEntry_apply] at hframe
            by_cases hqe : q = e
            · rw [if_pos hqe] at hframe
              exact (Option.some.inj hframe).symm
            · rw [if_neg hqe, frame_inactive hq] at hframe
              exact absurd hframe (by simp)

/-- The loop of `Map` over pages of a file. -/
theorem Extends.fillLoop (h : Inv s) (hactive : (s.maps.mMappings i).active = true)
    (hfile : (s.maps.mMappings i).fileId ≠ 0) (pages : List Nat)
    (hpages : ∀ page ∈ pages, page < (s.maps.mMappings i).pageCount.toNat ∧ (s.maps.mMappings i).pages page = 0)
    (hnodup : pages.Nodup) : Extends s (s.fillLoop i pages).2 := by
  induction pages generalizing s with
  | nil => exact .refl s
  | cons page pages ih =>
      obtain ⟨hpage, hempty⟩ := hpages page List.mem_cons_self
      obtain ⟨hinv, -, -, hkept, hsame⟩ := h.fillPage_kept hactive hpage hempty
      obtain ⟨hnot, hrest⟩ := List.nodup_cons.mp hnodup
      have hfirst : Extends s (s.fillPage i page) := .fillPage h.ready hfile hempty
      unfold Mapped.fillLoop
      dsimp only
      split
      · exact hfirst
      · refine hfirst.trans (ih hinv hkept.active (by rw [hkept.fileId]; exact hfile) (fun q hq => ?_) hrest)
        obtain ⟨hlt, hzero⟩ := hpages q (List.mem_cons_of_mem _ hq)
        rw [hkept.pageCount, hsame q fun heq => hnot (heq ▸ hq)]
        exact ⟨hlt, hzero⟩

/-- The loop of `Unmap` over pages of a file. -/
theorem foldl_releasePage_file {mapping : Mapping} (hfile : mapping.fileId ≠ 0) (c : PageCache) (p : Physical)
    (pages : List Nat) :
    Recounts c (pages.foldl (releasePage mapping) (c, p)).1 ∧ (pages.foldl (releasePage mapping) (c, p)).2 = p := by
  induction pages generalizing c with
  | nil => exact ⟨.refl c, rfl⟩
  | cons page pages ih =>
      rw [List.foldl_cons]
      unfold releasePage
      dsimp only
      by_cases hpage : mapping.pages page = 0
      · rw [if_pos hpage]
        exact ih c
      · rw [if_neg hpage, if_pos hfile]
        unfold PageCache.release
        cases hfind : c.findReferenced (mapping.pages page) with
        | none => exact ih c
        | some e =>
            have hactive := (PageCache.findReferenced_some hfind).1
            obtain ⟨hrest, hphys⟩ := ih (c.setReferences e ((c.mEntries e).references - 1))
            exact ⟨(Recounts.setReferences hactive _).trans hrest, hphys⟩

/-! ## `Unmap` -/

section Unmap

variable (h : Inv s) (hactive : (s.maps.mMappings i).active = true)
include h hactive

theorem unmap_maps : (s.unmap (s.maps.mMappings i).address).2.maps =
    s.maps.setMapping i { s.maps.mMappings i with active := false } := by
  rw [unmap_found h hactive]

/-- The end of an anonymous mapping frees what it has, page by page. -/
theorem unmap_anonymous (hfile : (s.maps.mMappings i).fileId = 0) :
    (s.unmap (s.maps.mMappings i).address).2.cache = s.cache ∧
    (s.unmap (s.maps.mMappings i).address).2.phys.pmm = s.phys.pmm.freePages (s.maps.mMappings i).materialised := by
  rw [unmap_found h hactive]
  exact foldl_releasePage_anonymous hfile s.cache s.phys _

/-- The end of a mapping of a file changes counts. -/
theorem unmap_file (hfile : (s.maps.mMappings i).fileId ≠ 0) :
    Recounts s.cache (s.unmap (s.maps.mMappings i).address).2.cache ∧
    (s.unmap (s.maps.mMappings i).address).2.phys = s.phys := by
  rw [unmap_found h hactive]
  exact foldl_releasePage_file hfile s.cache s.phys _

end Unmap

/-! ## The failure -/

/-- **What a `Map` that fails leaves.** -/
structure Restored (s : Mapped) (fileId : UInt64) (t : Mapped) : Prop where
  /-- The same mappings are active, -/
  active    : ∀ q, (t.maps.mMappings q).active = (s.maps.mMappings q).active
  /-- and nothing has happened to them. -/
  mappings  : ∀ q, (s.maps.mMappings q).active = true → t.maps.mMappings q = s.maps.mMappings q
  /-- The allocator is as it was when the mapping was anonymous: its bitmap and its counters. -/
  anonymous : fileId = 0 → t.phys.pmm = s.phys.pmm ∧ t.cache = s.cache
  /-- An entry of the cache is as it was, with its count of references. -/
  entries   : ∀ e, (s.cache.mEntries e).active = true → t.cache.mEntries e = s.cache.mEntries e
  /-- A new entry has no references, -/
  fresh     : ∀ e, (s.cache.mEntries e).active = false → t.cache.mEntries e = s.cache.mEntries e ∨
    (t.cache.mEntries e).active = true ∧ (t.cache.mEntries e).references = 0
  /-- and only new entries have taken frames. -/
  taken     : ∀ a, t.phys.pmm.Taken a ↔
    s.phys.pmm.Taken a ∨ ∃ e, (s.cache.mEntries e).active = false ∧ (t.cache.mEntries e).frame = some a

theorem Restored.refl (s : Mapped) (fileId : UInt64) : Restored s fileId s :=
  ⟨fun _ => rfl, fun _ _ => rfl, fun _ => ⟨rfl, rfl⟩, fun _ _ => rfl, fun _ _ => Or.inl rfl, (Extends.refl s).taken⟩

/-- The counts are right when the mappings use what they used. -/
theorem Restored.of_extends (h : Inv s) (ht : Inv t) (hext : Extends s t)
    (hactive : ∀ q, (t.maps.mMappings q).active = (s.maps.mMappings q).active)
    (hmappings : ∀ q, (s.maps.mMappings q).active = true → t.maps.mMappings q = s.maps.mMappings q)
    (hanonymous : fileId = 0 → t.phys.pmm = s.phys.pmm ∧ t.cache = s.cache) : Restored s fileId t := by
  have huses : ∀ q f o, (t.maps.mMappings q).Uses f o ↔ (s.maps.mMappings q).Uses f o := by
    intro q f o
    cases hq : (s.maps.mMappings q).active with
    | true => rw [hmappings q hq]
    | false =>
        have hq' := (hactive q).trans hq
        refine iff_of_false (fun h => ?_) fun h => ?_
        · exact absurd (hq'.symm.trans h.1) Bool.false_ne_true
        · exact absurd (hq.symm.trans h.1) Bool.false_ne_true
  have hreferences : ∀ f o, t.maps.references f o = s.maps.references f o := by
    intro f o
    unfold MemoryMappingManager.references
    simp only [huses]
  refine ⟨hactive, hmappings, hanonymous, fun e he => ?_, fun e he => ?_, hext.taken⟩
  · obtain ⟨references, hentry⟩ := hext.kept e he
    have hcounted := ht.counted e (hext.active he).1
    rw [hentry, hreferences] at hcounted
    have hsame : references = (s.cache.mEntries e).references :=
      UInt16.toNat_inj.mp (hcounted.trans (h.counted e he).symm)
    rw [hentry, hsame]
    rfl
  · rcases hext.fresh e he with hsame | hnew
    · exact Or.inl hsame
    · refine Or.inr ⟨hnew, ?_⟩
      have hcounted := ht.counted e hnew
      have hzero : t.maps.references (t.cache.mEntries e).fileId (t.cache.mEntries e).pageOffset = 0 := by
        apply MemoryMappingManager.references_zero
        intro q hq
        -- a page in use was cached before, by an entry that still caches it
        obtain ⟨r, hr, -⟩ := h.cached q _ _ ((huses q _ _).mp hq)
        obtain ⟨references, hentry⟩ := hext.kept r hr.1
        have hr' : (t.cache.mEntries r).Caches (t.cache.mEntries e).fileId (t.cache.mEntries e).pageOffset := by
          rw [hentry]
          exact hr
        have hre : r = e := ht.keys r e _ _ hr' ⟨hnew, rfl, rfl⟩
        rw [hre] at hr
        exact absurd (he.symm.trans hr.1) Bool.false_ne_true
      rw [hzero] at hcounted
      exact UInt16.toNat_inj.mp hcounted

/-- The loop of `Unmap` undoes the loop of `Map`, however far that has come. -/
theorem Inv.undo (h : Inv s) {pages : UInt64} (hslot : s.maps.findInactive = some i)
    (hcount : 0 < pages.toNat ∧ pages.toNat ≤ kMappingMaxPages)
    (hroom : s.maps.mNextAddress.toNat + pages.toNat * 4096 < 2 ^ 64)
    (ht : ((s.opened i pages fileId writable false).fillLoop i (List.range pages.toNat)).2 = t) :
    Restored s fileId (t.unmap s.maps.mNextAddress).2 := by
  have hopened : Inv (s.opened i pages fileId writable false) := h.opened hslot hcount hroom
  have hself := @opened_self s i pages fileId writable false
  have hpages : ∀ page ∈ List.range pages.toNat,
      page < ((s.opened i pages fileId writable false).maps.mMappings i).pageCount.toNat ∧
      ((s.opened i pages fileId writable false).maps.mMappings i).pages page = 0 := by
    intro page hpage
    rw [hself]
    exact ⟨List.mem_range.mp hpage, rfl⟩
  have hfile : ((s.opened i pages fileId writable false).maps.mMappings i).fileId = fileId := by rw [hself]
  obtain ⟨hfilled, hothers, hkept⟩ := h.fill_opened hslot hcount hroom ht
  have hidle := findInactive_some hslot
  have haddress : s.maps.mNextAddress = (t.maps.mMappings i).address := hkept.address.symm
  rw [haddress]
  have hmaps : ∀ q, ((t.unmap (t.maps.mMappings i).address).2.maps.mMappings q) =
      if q = i then { t.maps.mMappings i with active := false } else s.maps.mMappings q := by
    intro q
    rw [unmap_maps hfilled hkept.active, MemoryMappingManager.setMapping_apply]
    by_cases hq : q = i
    · rw [if_pos hq, if_pos hq]
    · rw [if_neg hq, if_neg hq, hothers q hq]
  have hanonymous : fileId = 0 → (t.unmap (t.maps.mMappings i).address).2.phys.pmm = s.phys.pmm ∧
      (t.unmap (t.maps.mMappings i).address).2.cache = s.cache := by
    intro hzero
    obtain ⟨hcache, hgrants, -, -⟩ := fillLoop_keeps hopened.ready (hfile.trans hzero)
      (fun page hpage => (hpages page hpage).2) List.nodup_range
    obtain ⟨hcache', hfrees⟩ := unmap_anonymous hfilled hkept.active (hkept.fileId.trans hzero)
    have hpageCount : (t.maps.mMappings i).pageCount = pages := hkept.pageCount
    rw [ht] at hcache hgrants
    unfold Mapping.materialised at hfrees
    rw [hpageCount] at hfrees
    refine ⟨?_, hcache'.trans hcache⟩
    rw [hfrees]
    refine hgrants.undo h.ready (PhysicalMemoryManager.freePages_returns hfilled.ready fun b hb => ?_)
    exact ⟨(hgrants.frames b hb).1, (hgrants.frames b hb).2.1⟩
  have hext : Extends s (t.unmap (t.maps.mMappings i).address).2 := by
    by_cases hzero : fileId = 0
    · obtain ⟨hpmm, hcache⟩ := hanonymous hzero
      refine .of_recounts hpmm ?_
      rw [hcache]
      exact .refl s.cache
    · have hfilling := Extends.fillLoop hopened (by rw [hself]) (by rw [hfile]; exact hzero) _ hpages List.nodup_range
      rw [ht] at hfilling
      have hfirst : Extends s t := ⟨hfilling.kept, hfilling.fresh, hfilling.taken⟩
      obtain ⟨hrecounts, hphys⟩ := unmap_file hfilled hkept.active (by rw [hkept.fileId]; exact hzero)
      exact hfirst.trans (.of_recounts (congrArg Physical.pmm hphys) hrecounts)
  refine .of_extends h (hfilled.unmap_found hkept.active) hext (fun q => ?_) (fun q hq => ?_) hanonymous
  · rw [hmaps]
    by_cases hq : q = i
    · rw [if_pos hq, hq, hidle]
    · rw [if_neg hq]
  · rw [hmaps, if_neg]
    rintro rfl
    exact absurd (hidle.symm.trans hq) Bool.false_ne_true

/-- **A `Map` that fails takes everything back**, when the next address does not wrap. -/
theorem Inv.map_failed (h : Inv s) (hnext : s.maps.mNextAddress ≠ 0)
    (hroom : (pageCountOf length).toNat ≤ kMappingMaxPages → s.maps.findInactive.isSome = true →
      s.maps.mNextAddress.toNat + (pageCountOf length).toNat * 4096 < 2 ^ 64)
    (hfail : (s.map fileId length writable false).1 = 0) :
    Restored s fileId (s.map fileId length writable false).2 := by
  rcases map_cases s fileId length writable false with
    ⟨hnothing, -⟩ | ⟨i, t, hslot, hcount, rfl, ⟨hbad, -⟩ | ⟨-, -, hmap⟩ | ⟨-, -, hmap⟩⟩
  · rw [hnothing]
    exact .refl s fileId
  · exact absurd hbad Bool.false_ne_true
  · rw [hmap] at hfail
    exact absurd hfail hnext
  · rw [hmap]
    exact h.undo hslot hcount (hroom hcount.2 (by rw [hslot]; rfl)) rfl

/-! ## The failure past the last address -/

/-- Filling a page writes that page, whatever the state. -/
theorem fillPage_maps (s : Mapped) (i : Fin kMemoryMappingCount) (page : Nat) :
    ∃ a, (s.fillPage i page).maps = s.maps.setMapping i ((s.maps.mMappings i).setPage page a) := by
  unfold fillPage materialize
  dsimp only
  split <;> exact ⟨_, rfl⟩

theorem fillPage_shape (s : Mapped) (i : Fin kMemoryMappingCount) (page : Nat) :
    (∀ q ≠ i, (s.fillPage i page).maps.mMappings q = s.maps.mMappings q) ∧
    ∃ a, (s.fillPage i page).maps.mMappings i = (s.maps.mMappings i).setPage page a := by
  obtain ⟨a, hmaps⟩ := fillPage_maps s i page
  rw [hmaps]
  exact ⟨fun q hq => Function.update_of_ne hq .., a, Function.update_self ..⟩

/-- The loop of `Map` writes pages of one mapping. -/
theorem fillLoop_shape (s : Mapped) (i : Fin kMemoryMappingCount) (pages : List Nat) :
    (∀ q ≠ i, (s.fillLoop i pages).2.maps.mMappings q = s.maps.mMappings q) ∧
    ((s.fillLoop i pages).2.maps.mMappings i).address = (s.maps.mMappings i).address ∧
    ((s.fillLoop i pages).2.maps.mMappings i).pageCount = (s.maps.mMappings i).pageCount ∧
    ((s.fillLoop i pages).2.maps.mMappings i).active = (s.maps.mMappings i).active := by
  induction pages generalizing s with
  | nil => exact ⟨fun _ _ => rfl, rfl, rfl, rfl⟩
  | cons page pages ih =>
      obtain ⟨hothers, a, hself⟩ := fillPage_shape s i page
      unfold Mapped.fillLoop
      dsimp only
      split
      · rw [hself]
        exact ⟨hothers, rfl, rfl, rfl⟩
      · obtain ⟨hothers', haddress', hpageCount', hactive'⟩ := ih (s.fillPage i page)
        rw [hself] at haddress' hpageCount' hactive'
        exact ⟨fun q hq => (hothers' q hq).trans (hothers q hq), haddress', hpageCount', hactive'⟩

/-- **A mapping that ends past the last address cannot be found**, so the call of `Unmap` ends nothing. -/
theorem Inv.wrapped (h : Inv s) {pages : UInt64} (hcount : 0 < pages.toNat ∧ pages.toNat ≤ kMappingMaxPages)
    (hwrap : 2 ^ 64 ≤ s.maps.mNextAddress.toNat + pages.toNat * 4096)
    (ht : ((s.opened i pages fileId writable false).fillLoop i (List.range pages.toNat)).2 = t) :
    t.unmap s.maps.mNextAddress = (false, t) ∧ (t.maps.mMappings i).active = true := by
  obtain ⟨hothers, haddress, hpageCount, hactive⟩ :=
    fillLoop_shape (s.opened i pages fileId writable false) i (List.range pages.toNat)
  rw [ht] at hothers haddress hpageCount hactive
  rw [opened_self] at haddress hpageCount hactive
  refine ⟨?_, hactive⟩
  have hfind : t.maps.find s.maps.mNextAddress = none := by
    apply Lib.firstSlot_eq_none_iff.mpr
    intro q
    by_cases hq : q = i
    · -- the end of this mapping has wrapped below its start
      rw [hq]
      unfold Mapping.contains
      rw [haddress, hpageCount]
      have hlt := s.maps.mNextAddress.toNat_lt
      have hmax : pages.toNat ≤ 16 := hcount.2
      have hend : ¬ s.maps.mNextAddress < s.maps.mNextAddress + pages * kPageSize := by
        rw [UInt64.lt_iff_toNat_lt, UInt64.toNat_add, UInt64.toNat_mul, toNat_kPageSize]
        omega
      rw [decide_eq_false hend, Bool.and_false]
    · -- the others lie below the next address
      rw [hothers q hq, opened_other hq]
      by_contra hcontains
      have hcontains := Bool.not_eq_false _ ▸ hcontains
      have hq' := MemoryMappingManager.active_of_contains hcontains
      have hbelow := (h.layout.placed q hq').below
      have hin := (h.layout.contains_iff hq').mp hcontains
      omega
  unfold Mapped.unmap
  rw [hfind]

/-- **Which failures take everything back.** -/
theorem Inv.map_failed_iff (h : Inv s) (hnext : s.maps.mNextAddress ≠ 0)
    (hfail : (s.map fileId length writable false).1 = 0) :
    Restored s fileId (s.map fileId length writable false).2 ↔
      ((pageCountOf length).toNat ≤ kMappingMaxPages → s.maps.findInactive.isSome = true →
        s.maps.mNextAddress.toNat + (pageCountOf length).toNat * 4096 < 2 ^ 64) := by
  refine ⟨fun hrestored hmax hsome => ?_, fun hroom => h.map_failed hnext hroom hfail⟩
  by_contra hroom
  have hwrap := Nat.le_of_not_lt hroom
  have hlt := s.maps.mNextAddress.toNat_lt
  rcases map_cases s fileId length writable false with
    ⟨-, hzero | hmany | hnone⟩ | ⟨i, t, hslot, hcount, rfl, ⟨hbad, -⟩ | ⟨-, -, hmap⟩ | ⟨-, -, hmap⟩⟩
  · rw [hzero] at hwrap
    exact absurd hwrap (Nat.not_le_of_lt hlt)
  · exact absurd hmax (Nat.not_le_of_lt hmany)
  · rw [hnone] at hsome
    exact absurd hsome (by simp)
  · exact absurd hbad Bool.false_ne_true
  · rw [hmap] at hfail
    exact absurd hfail hnext
  · obtain ⟨hunmap, hactive⟩ := h.wrapped (i := i) hcount hwrap rfl
    rw [hmap, hunmap] at hrestored
    have hidle := hrestored.active i
    rw [hactive, findInactive_some hslot] at hidle
    exact absurd hidle (by simp)

end Mapped
end UefiBoot
