import UefiBoot.Lib.Run

/-!
# `Lib.Ranked` — runs that must come to an end

Of the actions of a system some are its own and the others its environment's. If its own lower a rank as long as it is
not done, and the environment's never raise it, then it is done after more actions of its own than the rank says,
however many of the environment's come in between (`Ranked.reaches`).
-/

namespace Lib

variable {σ α : Type*}

/-- In the states of `Inv`, the actions of `Own` lower the rank until `Done` holds, which then stays. -/
structure Ranked (step : σ → α → σ) (Inv Done : σ → Prop) (Own : α → Bool) (rank : σ → Nat) : Prop where
  keeps  : ∀ s a, Inv s → Inv (step s a)
  stays  : ∀ s a, Inv s → Done s → Done (step s a)
  waits  : ∀ s a, Inv s → ¬ Done s → Own a = false → rank (step s a) ≤ rank s
  lowers : ∀ s a, Inv s → ¬ Done s → Own a = true → rank (step s a) < rank s

namespace Ranked

variable {step : σ → α → σ} {Inv Done : σ → Prop} {Own : α → Bool} {rank : σ → Nat} {s : σ}

theorem done_run (h : Ranked step Inv Done Own rank) (hs : Inv s) (hdone : Done s) (as : List α) :
    Done (run step s as) := by
  induction as generalizing s with
  | nil => exact hdone
  | cons a as ih => exact ih (h.keeps s a hs) (h.stays s a hs hdone)

/-- **Enough actions of its own.** -/
theorem reaches (h : Ranked step Inv Done Own rank) (hs : Inv s) (as : List α) (hlong : rank s < as.countP Own) :
    Done (run step s as) := by
  induction as generalizing s with
  | nil => exact absurd hlong (Nat.not_lt_zero _)
  | cons a as ih =>
      have hs' := h.keeps s a hs
      by_cases hdone : Done s
      · exact h.done_run hs' (h.stays s a hs hdone) as
      cases hown : Own a with
      | false =>
          rw [List.countP_cons_of_neg (by simp [hown])] at hlong
          exact ih hs' (Nat.lt_of_le_of_lt (h.waits s a hs hdone hown) hlong)
      | true =>
          rw [List.countP_cons_of_pos hown] at hlong
          have hlt := h.lowers s a hs hdone hown
          exact ih hs' (by omega)

end Ranked
end Lib
