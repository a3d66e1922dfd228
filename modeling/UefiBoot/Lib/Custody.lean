import Mathlib.Data.Set.Insert
import Mathlib.Logic.Function.Basic

/-!
# `Lib.Custody` — live tokens and who holds them

Tokens are given out and ended, and a holder keeps at most one at a time. `Custody` says that the live tokens are
those that are held, each by one holder. A token that is given out and not taken, and one that is put down without
being ended, break it for good: nothing else can find the token again.
-/

namespace Lib

variable {ι τ : Type*} {live : Set τ} {holds : ι → Option τ} {i : ι} {t : τ}

/-- The live tokens are those that somebody holds. -/
def Owned (live : Set τ) (holds : ι → Option τ) : Prop := ∀ t, t ∈ live ↔ ∃ i, holds i = some t

structure Custody (live : Set τ) (holds : ι → Option τ) : Prop where
  owned  : Owned live holds
  single : ∀ i j t, holds i = some t → holds j = some t → i = j

theorem Custody.unused (h : ∀ i, holds i = none) : Custody (∅ : Set τ) holds := by
  refine ⟨fun t => iff_of_false (Set.notMem_empty t) ?_, fun i j t hi => ?_⟩
  · rintro ⟨i, hi⟩
    rw [h i] at hi
    exact nomatch hi
  · rw [h i] at hi
    exact nomatch hi

/-- A fresh token that nobody takes. -/
theorem Custody.leak (h : Custody live holds) (hfresh : t ∉ live) : ¬ Owned (insert t live) holds := by
  intro h'
  exact hfresh ((h.owned t).mpr ((h' t).mp (Set.mem_insert t live)))

variable [DecidableEq ι]

/-- Who holds a token after one holder has put his down. -/
theorem update_none_iff (h : Custody live holds) (hi : holds i = some t) {n : ι} {u : τ} :
    Function.update holds i none n = some u ↔ holds n = some u ∧ u ≠ t := by
  by_cases hn : n = i
  · rw [hn, Function.update_self, hi]
    refine iff_of_false (by simp) ?_
    rintro ⟨hu, hne⟩
    exact hne (Option.some.inj hu).symm
  · rw [Function.update_of_ne hn]
    refine ⟨fun hu => ⟨hu, ?_⟩, fun hu => hu.1⟩
    rintro rfl
    exact hn (h.single n i u hu hi)

/-- A fresh token is taken by a holder who has none. -/
theorem Custody.acquire (h : Custody live holds) (hfresh : t ∉ live) (hi : holds i = none) :
    Custody (insert t live) (Function.update holds i (some t)) := by
  have hfree : ∀ n, holds n ≠ some t := fun n hn => hfresh ((h.owned t).mpr ⟨n, hn⟩)
  constructor
  · intro u
    rw [Set.mem_insert_iff, h.owned u]
    constructor
    · rintro (rfl | ⟨n, hn⟩)
      · exact ⟨i, Function.update_self ..⟩
      · refine ⟨n, ?_⟩
        have hne : n ≠ i := by
          rintro rfl
          exact absurd (hi.symm.trans hn) (by simp)
        rw [Function.update_of_ne hne]
        exact hn
    · rintro ⟨n, hn⟩
      by_cases hne : n = i
      · rw [hne, Function.update_self] at hn
        exact .inl (Option.some.inj hn).symm
      · rw [Function.update_of_ne hne] at hn
        exact .inr ⟨n, hn⟩
  · intro n m u hn hm
    by_cases hni : n = i <;> by_cases hmi : m = i
    · rw [hni, hmi]
    · rw [hni, Function.update_self] at hn
      rw [Function.update_of_ne hmi, ← hn] at hm
      exact absurd hm (hfree m)
    · rw [hmi, Function.update_self] at hm
      rw [Function.update_of_ne hni, ← hm] at hn
      exact absurd hn (hfree n)
    · rw [Function.update_of_ne hni] at hn
      rw [Function.update_of_ne hmi] at hm
      exact h.single n m u hn hm

/-- A token is ended and put down. -/
theorem Custody.release (h : Custody live holds) (hi : holds i = some t) :
    Custody (live \ {t}) (Function.update holds i none) := by
  constructor
  · intro u
    rw [Set.mem_sdiff, Set.mem_singleton_iff, h.owned u]
    constructor
    · rintro ⟨⟨n, hn⟩, hne⟩
      exact ⟨n, (update_none_iff h hi).mpr ⟨hn, hne⟩⟩
    · rintro ⟨n, hn⟩
      obtain ⟨hn, hne⟩ := (update_none_iff h hi).mp hn
      exact ⟨⟨n, hn⟩, hne⟩
  · intro n m u hn hm
    exact h.single n m u ((update_none_iff h hi).mp hn).1 ((update_none_iff h hi).mp hm).1

/-- A token is put down and goes on living. -/
theorem Custody.drop (h : Custody live holds) (hi : holds i = some t) :
    ¬ Owned live (Function.update holds i none) := by
  intro h'
  obtain ⟨n, hn⟩ := (h' t).mp ((h.owned t).mpr ⟨i, hi⟩)
  exact ((update_none_iff h hi).mp hn).2 rfl

end Lib
