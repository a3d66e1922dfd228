import UefiBoot.Memory.Frames

/-!
# `Memory.FrameSets` — several frames at a time, and frames of others

Some managers take a frame per turn of a loop and give all of them back in another loop. `GrantsAll` and
`ReturnsAll` are `Grants` and `Returns` for a list of frames; giving back what was just granted restores the
allocator exactly (`GrantsAll.undo`). The last section is about the calls of others: they free no page that
a manager has recorded.
-/

namespace UefiBoot
namespace PhysicalMemoryManager

variable {s t u : PhysicalMemoryManager} {F : List UInt64} {a : UInt64}

/-- `t` is `s` after the distinct frames of `F` were handed out. -/
structure GrantsAll (s t : PhysicalMemoryManager) (F : List UInt64) : Prop where
  frames : ∀ a ∈ F, IsFrame a ∧ a ≠ 0 ∧ s.isPageFree (pageOf a) = true
  nodup  : F.Nodup
  pages  : ∀ page, t.isPageFree page = if page ∈ F.map pageOf then false else s.isPageFree page
  total  : t.mTotalPages = s.mTotalPages
  ready  : t.Ready

theorem GrantsAll.nil (h : s.Ready) : GrantsAll s s [] := by
  constructor
  · intro a ha
    exact absurd ha (by simp)
  · exact List.nodup_nil
  · intro page
    rw [List.map_nil, if_neg (by simp)]
  · rfl
  · exact h

/-- One frame, and then the others. -/
theorem GrantsAll.cons (hgrants : Grants s t a) (h : GrantsAll t u F) : GrantsAll s u (a :: F) := by
  have hused : t.isPageFree (pageOf a) = false := by rw [hgrants.pages, if_pos rfl]
  have hne : ∀ b ∈ F, pageOf b ≠ pageOf a := by
    intro b hb hpage
    have hfree := (h.frames b hb).2.2
    rw [hpage, hused] at hfree
    exact absurd hfree (by simp)
  constructor
  · intro b hb
    rcases List.mem_cons.mp hb with rfl | hb
    · exact ⟨hgrants.isFrame, hgrants.nonzero, hgrants.free⟩
    · obtain ⟨hframe, hnz, hfree⟩ := h.frames b hb
      rw [hgrants.pages, if_neg (hne b hb)] at hfree
      exact ⟨hframe, hnz, hfree⟩
  · rw [List.nodup_cons]
    exact ⟨fun hmem => hne a hmem rfl, h.nodup⟩
  · intro page
    rw [h.pages, hgrants.pages, List.map_cons]
    by_cases hmem : page ∈ F.map pageOf
    · rw [if_pos hmem, if_pos (List.mem_cons_of_mem _ hmem)]
    · have hiff : page ∈ pageOf a :: F.map pageOf ↔ page = pageOf a := by
        rw [List.mem_cons]
        exact or_iff_left hmem
      simp only [if_neg hmem, hiff]
  · rw [h.total, hgrants.total]
  · exact h.ready

/-- Frames are named by their pages. -/
theorem mem_of_pageOf_mem (hF : ∀ b ∈ F, IsFrame b) (ha : IsFrame a) (h : pageOf a ∈ F.map pageOf) : a ∈ F := by
  obtain ⟨b, hb, hpage⟩ := List.mem_map.mp h
  rwa [ha.pageOf_inj (hF b hb) hpage.symm]

theorem GrantsAll.taken (h : GrantsAll s t F) (g : UInt64) : t.Taken g ↔ g ∈ F ∨ s.Taken g := by
  unfold Taken
  rw [h.pages]
  constructor
  · rintro ⟨hframe, hused⟩
    by_cases hpage : pageOf g ∈ F.map pageOf
    · exact Or.inl (mem_of_pageOf_mem (fun b hb => (h.frames b hb).1) hframe hpage)
    · rw [if_neg hpage] at hused
      exact Or.inr ⟨hframe, hused⟩
  · rintro (hmem | ⟨hframe, hused⟩)
    · exact ⟨(h.frames g hmem).1, if_pos (List.mem_map_of_mem hmem)⟩
    · refine ⟨hframe, ?_⟩
      split
      · rfl
      · exact hused

theorem GrantsAll.not_taken (h : GrantsAll s t F) (ha : a ∈ F) : ¬ s.Taken a :=
  not_taken_of_free (h.frames a ha).2.2

/-- `FreePage` of each address of a list, in its order. -/
def freePages (s : PhysicalMemoryManager) (F : List UInt64) : PhysicalMemoryManager := F.foldl freePage s

/-- `t` is `s` after the frames of `F` came back. -/
structure ReturnsAll (s t : PhysicalMemoryManager) (F : List UInt64) : Prop where
  frames : ∀ a ∈ F, IsFrame a ∧ a ≠ 0
  pages  : ∀ page, t.isPageFree page = if page ∈ F.map pageOf then true else s.isPageFree page
  total  : t.mTotalPages = s.mTotalPages
  ready  : t.Ready

theorem freePages_returns (h : s.Ready) (hF : ∀ a ∈ F, IsFrame a ∧ a ≠ 0) : ReturnsAll s (s.freePages F) F := by
  induction F generalizing s with
  | nil =>
      refine ⟨hF, fun page => ?_, rfl, h⟩
      rw [List.map_nil, if_neg (by simp)]
      rfl
  | cons a F ih =>
      obtain ⟨hframe, hnz⟩ := hF a List.mem_cons_self
      have hfirst := freePage_returns h hframe hnz
      have hrest := ih hfirst.ready fun b hb => hF b (List.mem_cons_of_mem _ hb)
      refine ⟨hF, fun page => ?_, ?_, hrest.ready⟩
      · show ((s.freePage a).freePages F).isPageFree page = _
        rw [hrest.pages, hfirst.pages, List.map_cons]
        by_cases hmem : page ∈ F.map pageOf
        · rw [if_pos hmem, if_pos (List.mem_cons_of_mem _ hmem)]
        · have hiff : page ∈ pageOf a :: F.map pageOf ↔ page = pageOf a := by
            rw [List.mem_cons]
            exact or_iff_left hmem
          simp only [if_neg hmem, hiff]
      · show ((s.freePage a).freePages F).mTotalPages = _
        rw [hrest.total, hfirst.total]

theorem ReturnsAll.taken (h : ReturnsAll s t F) (g : UInt64) : t.Taken g ↔ g ∉ F ∧ s.Taken g := by
  unfold Taken
  rw [h.pages]
  constructor
  · rintro ⟨hframe, hused⟩
    split at hused
    · exact absurd hused (by simp)
    · rename_i hpage
      exact ⟨fun hmem => hpage (List.mem_map_of_mem hmem), hframe, hused⟩
  · rintro ⟨hnot, hframe, hused⟩
    refine ⟨hframe, ?_⟩
    rw [if_neg fun hpage => hnot (mem_of_pageOf_mem (fun b hb => (h.frames b hb).1) hframe hpage)]
    exact hused

/-- **What was granted and comes back leaves the allocator as it was.** -/
theorem GrantsAll.undo (hs : s.Ready) (h : GrantsAll s t F) (hreturns : ReturnsAll t u F) : u = s := by
  apply hreturns.ready.exact.ext hs.exact
  · intro page
    rw [hreturns.pages, h.pages]
    by_cases hmem : page ∈ F.map pageOf
    · obtain ⟨a, ha, rfl⟩ := List.mem_map.mp hmem
      rw [if_pos hmem, (h.frames a ha).2.2]
    · rw [if_neg hmem, if_neg hmem]
  · rw [hreturns.total, h.total]

/-! ## How many are left -/

/-- At least `n` pages are free. -/
def Room (s : PhysicalMemoryManager) (n : Nat) : Prop :=
  ∃ F : Finset Nat, n ≤ F.card ∧ ∀ page ∈ F, page < kManagedPageCount ∧ s.isPageFree page = true

/-- A block takes no more than its size. -/
theorem Room.takes {n k first : Nat} (h : Room s (n + k)) (htakes : Takes s t first k) : Room t n := by
  obtain ⟨F, hcard, hfree⟩ := h
  refine ⟨F \ Finset.Ico first (first + k), ?_, ?_⟩
  · have hblock : (Finset.Ico first (first + k)).card = k := by
      rw [Nat.card_Ico]
      omega
    have hdiff := Finset.le_card_sdiff (Finset.Ico first (first + k)) F
    omega
  · intro page hpage
    rw [Finset.mem_sdiff, Finset.mem_Ico] at hpage
    refine ⟨(hfree page hpage.1).1, ?_⟩
    rw [htakes.pages, if_neg hpage.2]
    exact (hfree page hpage.1).2

theorem Room.grants {n : Nat} (h : Room s (n + 1)) (hgrants : Grants s t a) : Room t n := by
  obtain ⟨F, hcard, hfree⟩ := h
  refine ⟨F.erase (pageOf a), ?_, ?_⟩
  · have herase := Finset.pred_card_le_card_erase (s := F) (a := pageOf a)
    omega
  · intro page hpage
    rw [Finset.mem_erase] at hpage
    refine ⟨(hfree page hpage.2).1, ?_⟩
    rw [hgrants.pages, if_neg hpage.1]
    exact (hfree page hpage.2).2

/-- While a page is free, `AllocatePage` finds one. -/
theorem Room.allocatePage {n : Nat} (h : Room s (n + 1)) (hready : s.Ready) : s.allocatePage.1 ≠ 0 := by
  obtain ⟨F, hcard, hfree⟩ := h
  obtain ⟨page, hpage⟩ := Finset.card_pos.mp (Nat.lt_of_lt_of_le (Nat.succ_pos n) hcard)
  exact allocatePage_complete hready (hfree page hpage).1 (hfree page hpage).2

/-! ## Others -/

/-- A page that is not page 0 and that no place has recorded can be freed by others. -/
theorem sound_freePage {P : Type*} {holds : P → Option UInt64} (h : s.Ready)
    (hs : (Lib.Ledger.mk holds s.Taken).Sound 0) (hzero : pageOf a ≠ 0)
    (hother : ∀ p b, holds p = some b → pageOf b ≠ pageOf a) :
    (s.freePage a).Ready ∧ (Lib.Ledger.mk holds (s.freePage a).Taken).Sound 0 := by
  have hkept : ∀ page, page ≠ pageOf a → (s.freePage a).isPageFree page = s.isPageFree page := by
    intro page hne
    rw [isPageFree_freePage, if_neg fun h => hne h.1]
  have hready : (s.freePage a).Ready := by
    refine ⟨h.exact.step (.freePage a), ?_⟩
    rw [hkept 0 (Ne.symm hzero)]
    exact h.zeroUsed
  refine ⟨hready, hs.unique, ?_, hready.taken_zero, hs.unheld⟩
  intro p b hp
  obtain ⟨hframe, hused⟩ := hs.taken hp
  refine ⟨hframe, ?_⟩
  rw [hkept _ (hother p b hp)]
  exact hused

/-- Whatever others allocate, a ledger stays sound. -/
theorem sound_allocateAligned {P : Type*} {holds : P → Option UInt64} (h : s.Ready)
    (hs : (Lib.Ledger.mk holds s.Taken).Sound 0) (pageCount alignmentPages : UInt64) :
    (s.allocateAligned pageCount alignmentPages).2.Ready ∧
    (Lib.Ledger.mk holds (s.allocateAligned pageCount alignmentPages).2.Taken).Sound 0 := by
  have hready := h.allocateAligned pageCount alignmentPages
  refine ⟨hready, hs.unique, fun hp => ?_, hready.taken_zero, hs.unheld⟩
  exact taken_allocateAligned (hs.taken hp) _ _

end PhysicalMemoryManager
end UefiBoot
