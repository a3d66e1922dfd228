import UefiBoot.Lib.ByteRange
import UefiBoot.Memory.FrameSets

/-!
# `Memory.Lends` — frames that are handed out for a while

A stretch of code that takes frames, writes to them and gives them back should leave no trace. `Lends p q F` says
where it stands in between: physical memory was `p`, the frames of `F` are out, and no byte has changed but in pages
that were free. Each step of such a stretch has a lemma that says what is lent after it; when nothing is lent any
more, the allocator is the one that there was (`Lends.pmm`).
-/

namespace UefiBoot
namespace PhysicalMemoryManager

variable {s t u : PhysicalMemoryManager} {F G : List UInt64} {a b : UInt64}

/-- The byte is in a page that is free. -/
def InFree (s : PhysicalMemoryManager) (a : UInt64) : Prop :=
  pageOf a < kManagedPageCount ∧ s.isPageFree (pageOf a) = true

/-- The bytes of a frame are those of its page. -/
theorem pageOf_of_mem (ha : IsFrame a) (hb : b ∈ Lib.ByteRange.mk a 4096) : pageOf b = pageOf a := by
  have hN := kManagedPageCount_eq
  obtain ⟨hal, hin⟩ := ha
  have hlt := b.toNat_lt
  rw [Lib.ByteRange.mem_iff, UInt64.toNat_sub] at hb
  dsimp only at hb
  unfold pageOf at hin ⊢
  omega

/-- One more frame goes out. -/
theorem GrantsAll.grant (h : GrantsAll s t F) (hgrants : Grants t u a) : GrantsAll s u (a :: F) := by
  have hfresh : pageOf a ∉ F.map pageOf ∧ s.isPageFree (pageOf a) = true := by
    have hfree := hgrants.free
    rw [h.pages] at hfree
    split at hfree
    · exact absurd hfree (by simp)
    · rename_i hnot
      exact ⟨hnot, hfree⟩
  constructor
  · intro b hb
    rcases List.mem_cons.mp hb with rfl | hb
    · exact ⟨hgrants.isFrame, hgrants.nonzero, hfresh.2⟩
    · exact h.frames b hb
  · exact List.nodup_cons.mpr ⟨fun hmem => hfresh.1 (List.mem_map_of_mem hmem), h.nodup⟩
  · intro page
    rw [hgrants.pages, h.pages, List.map_cons]
    by_cases hpage : page = pageOf a
    · rw [if_pos hpage, if_pos (hpage ▸ List.mem_cons_self)]
    · rw [if_neg hpage]
      simp only [List.mem_cons, hpage, false_or]
  · rw [hgrants.total, h.total]
  · exact hgrants.ready

/-- One frame comes back. -/
theorem GrantsAll.revoke (h : GrantsAll s t F) (ha : a ∈ F) : GrantsAll s (t.freePage a) (F.erase a) := by
  obtain ⟨hframe, hnz, hfree⟩ := h.frames a ha
  have hreturns := freePage_returns h.ready hframe hnz
  refine ⟨fun b hb => h.frames b (List.mem_of_mem_erase hb), h.nodup.erase a, fun page => ?_, ?_, hreturns.ready⟩
  · rw [hreturns.pages, h.pages]
    by_cases hpage : page = pageOf a
    · have hout : page ∉ (F.erase a).map pageOf := by
        intro hmem
        rw [hpage] at hmem
        have hback := mem_of_pageOf_mem (fun b hb => (h.frames b (List.mem_of_mem_erase hb)).1) hframe hmem
        exact (h.nodup.mem_erase_iff.mp hback).1 rfl
      rw [if_pos hpage, if_neg hout, hpage, hfree]
    · rw [if_neg hpage]
      have hiff : page ∈ F.map pageOf ↔ page ∈ (F.erase a).map pageOf := by
        constructor
        · intro hmem
          obtain ⟨b, hb, rfl⟩ := List.mem_map.mp hmem
          have hne : b ≠ a := by
            rintro rfl
            exact hpage rfl
          exact List.mem_map_of_mem (h.nodup.mem_erase_iff.mpr ⟨hne, hb⟩)
        · intro hmem
          obtain ⟨b, hb, rfl⟩ := List.mem_map.mp hmem
          exact List.mem_map_of_mem (List.mem_of_mem_erase hb)
      simp only [hiff]
  · rw [hreturns.total, h.total]

/-- What is left once frames are out. -/
theorem GrantsAll.room {n : Nat} (h : GrantsAll s t F) (hroom : s.Room (n + F.length)) : t.Room n := by
  obtain ⟨P, hcard, hfree⟩ := hroom
  refine ⟨P \ (F.map pageOf).toFinset, ?_, ?_⟩
  · have hdiff := Finset.le_card_sdiff (F.map pageOf).toFinset P
    have hlent := (F.map pageOf).toFinset_card_le
    rw [List.length_map] at hlent
    omega
  · intro page hpage
    rw [Finset.mem_sdiff, List.mem_toFinset] at hpage
    rw [h.pages, if_neg hpage.2]
    exact hfree page hpage.1

/-- No frame out is no change. -/
theorem GrantsAll.eq (h : GrantsAll s t []) (hs : s.Ready) : t = s := by
  apply h.ready.exact.ext hs.exact
  · intro page
    rw [h.pages, List.map_nil, if_neg List.not_mem_nil]
  · exact h.total

/-- A block that goes out and comes back leaves the allocator as it was. -/
theorem Takes.undo {first n : Nat} {pageCount : UInt64} (h : Takes s t first n) (hs : s.Exact) (ht : t.Exact)
    (hn : 0 < n) (hcount : pageCount.toNat = n) : t.freeContiguous (frameOf first) pageCount = s := by
  have hN := kManagedPageCount_eq
  have hin := h.inside
  have hpage : first < kManagedPageCount := by omega
  have hfirst : (frameOf first / kPageSize).toNat = first := by rw [pageOf_eq_div, pageOf_frameOf hpage]
  have hend : (frameOf first / kPageSize + pageCount).toNat = first + n := by
    rw [UInt64.toNat_add, hfirst, hcount]
    omega
  have hcall : t.freeContiguous (frameOf first) pageCount = t.markPages (frameOf first / kPageSize) pageCount true := by
    have haligned : frameOf first &&& (kPageSize - 1) = 0 := by
      apply UInt64.toNat_inj.mp
      rw [Lib.toNat_and_pred (k := 12) (a := kPageSize) rfl, toNat_frameOf hpage, toNat_kPageSize, Nat.mul_mod_left]
      rfl
    have hnz : pageCount ≠ 0 := by
      rintro rfl
      have hzero : (0 : UInt64).toNat = 0 := rfl
      omega
    exact if_pos ⟨haligned, hnz⟩
  have hmem : ∀ page, page ∈ markedPages (frameOf first / kPageSize) pageCount ↔ first ≤ page ∧ page < first + n := by
    intro page
    rw [mem_markedPages, hfirst, hend]
    omega
  rw [hcall]
  apply (ht.markPages _ _).ext hs
  · intro page
    rw [isPageFree_markPages, h.pages]
    simp only [hmem]
    split
    · rename_i hblock
      exact (h.free page hblock.1 hblock.2).symm
    · rfl
  · rw [markPages_mTotalPages, h.total]

theorem Room.mono {m n : Nat} (h : s.Room n) (hle : m ≤ n) : s.Room m := by
  obtain ⟨P, hcard, hfree⟩ := h
  exact ⟨P, hle.trans hcard, hfree⟩

end PhysicalMemoryManager

namespace Physical

/-- **The frames of `F` are lent**, and no byte outside the pages that were free has changed. -/
structure Lends (p q : Physical) (F : List UInt64) : Prop where
  grants : p.pmm.GrantsAll q.pmm F
  kept   : ∀ a, ¬ p.pmm.InFree a → q.bytes a = p.bytes a

namespace Lends

variable {p q r : Physical} {F G : List UInt64} {a b c : UInt64}

theorem refl (h : p.pmm.Ready) : Lends p p [] := ⟨.nil h, fun _ _ => rfl⟩

theorem ready (h : Lends p q F) : q.pmm.Ready := h.grants.ready

/-- **When nothing is lent** the allocator is the one that there was. -/
theorem pmm (h : Lends p q []) (hp : p.pmm.Ready) : q.pmm = p.pmm := h.grants.eq hp

/-- Two stretches, of which the first has given everything back. -/
theorem trans (h : Lends p q []) (hp : p.pmm.Ready) (h' : Lends q r F) : Lends p r F := by
  have hsame := h.pmm hp
  obtain ⟨hgrants, hkept⟩ := h'
  rw [hsame] at hgrants hkept
  exact ⟨hgrants, fun a ha => (hkept a ha).trans (h.kept a ha)⟩

theorem isFrame (h : Lends p q F) (ha : a ∈ F) : IsFrame a := (h.grants.frames a ha).1

theorem nonzero (h : Lends p q F) (ha : a ∈ F) : a ≠ 0 := (h.grants.frames a ha).2.1

/-- The frame lent last is not one of those lent before. -/
theorem ne (h : Lends p q (a :: F)) (hb : b ∈ F) : a ≠ b := by
  rintro rfl
  exact (List.nodup_cons.mp h.grants.nodup).1 hb

/-- **`AllocatePage`** finds a page while there is room for what is lent and one more. -/
theorem allocatePage (h : Lends p q F) (hroom : p.pmm.Room (F.length + 1)) :
    ∃ a r, q.allocatePage = (a, r) ∧ r.bytes = q.bytes ∧ Lends p r (a :: F) := by
  have hleft : q.pmm.Room (0 + 1) := h.grants.room (hroom.mono (by omega))
  have hnz : q.allocatePage.1 ≠ 0 := hleft.allocatePage h.ready
  exact ⟨_, _, rfl, rfl, h.grants.grant (Physical.allocatePage_grants h.ready hnz), h.kept⟩

/-- **`FreePage`** of a lent frame. -/
theorem freePage (h : Lends p q F) (ha : a ∈ F) : Lends p (q.freePage a) (F.erase a) :=
  ⟨h.grants.revoke ha, h.kept⟩

/-- Two frames that come back. -/
theorem freeBoth (h : Lends p q [b, a]) : Lends p ((q.freePage a).freePage b) [] := by
  have hne := h.ne (b := a) (by simp)
  have hlast := h.freePage (a := a) (by simp)
  rw [List.erase_cons_tail (by simpa using hne), List.erase_cons_head] at hlast
  have hnone := hlast.freePage (a := b) (by simp)
  rw [List.erase_cons_head] at hnone
  exact hnone

/-- **Whatever is written to a lent frame**, nothing else has changed. -/
theorem write (h : Lends p q F) (ha : a ∈ F) {bytes : Lib.Bytes}
    (hout : ∀ b, b ∉ Lib.ByteRange.mk a 4096 → bytes b = q.bytes b) : Lends p { q with bytes } F := by
  refine ⟨h.grants, fun b hb => ?_⟩
  obtain ⟨hframe, -, hfree⟩ := h.grants.frames a ha
  refine (hout b fun hmem => hb ?_).trans (h.kept b hb)
  have hpage := PhysicalMemoryManager.pageOf_of_mem hframe hmem
  exact ⟨hpage ▸ hframe.2, hpage ▸ hfree⟩

theorem clearPage (h : Lends p q F) (ha : a ∈ F) : Lends p (q.clearPage a) F := by
  apply h.write ha
  intro b hb
  rw [Lib.Bytes.fill_apply (by decide), if_neg]
  exact hb

theorem copyPage (h : Lends p q F) (ha : a ∈ F) (source : UInt64) : Lends p (q.copyPage a source) F := by
  apply h.write ha
  intro b hb
  apply Lib.Bytes.copy_outside
  rw [Lib.ByteRange.mem_iff, Nat.not_lt] at hb
  exact hb

/-- One byte at the start of a lent frame. -/
theorem store (h : Lends p q F) (ha : a ∈ F) (value : UInt8) :
    Lends p { q with bytes := Function.update q.bytes a value } F := by
  apply h.write ha
  intro b hb
  apply Function.update_of_ne
  rintro rfl
  apply hb
  rw [Lib.ByteRange.mem_iff, UInt64.sub_self]
  show 0 < 4096
  omega

end Lends
end Physical
end UefiBoot
