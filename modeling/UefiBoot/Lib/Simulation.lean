import Mathlib.Tactic

/-!
# `Lib.Simulation` — systems that answer their calls

A system takes a call and answers it: `call : σ → α → ρ × σ`. Of two systems over the same calls the one simulates
the other along a relation when related states answer alike and stay related (`Simulates`). Then a whole list of calls
gets the same answers from both, and ends in related states.
-/

namespace Lib

variable {σ τ α ρ : Type*}

/-- The answers to a list of calls, in order. -/
def answers (call : σ → α → ρ × σ) : σ → List α → List ρ
  | _, []      => []
  | s, a :: as => (call s a).1 :: answers call (call s a).2 as

/-- The state after a list of calls. -/
def after (call : σ → α → ρ × σ) (s : σ) (as : List α) : σ := as.foldl (fun s a => (call s a).2) s

@[simp] theorem after_nil (call : σ → α → ρ × σ) (s : σ) : after call s [] = s := rfl

@[simp] theorem after_cons (call : σ → α → ρ × σ) (s : σ) (a : α) (as : List α) :
    after call s (a :: as) = after call (call s a).2 as := rfl

/-- Related states answer the calls of `Ok` alike and stay related. -/
def Simulates (Ok : α → Prop) (R : σ → τ → Prop) (call : σ → α → ρ × σ) (spec : τ → α → ρ × τ) : Prop :=
  ∀ s t a, R s t → Ok a → (call s a).1 = (spec t a).1 ∧ R (call s a).2 (spec t a).2

variable {Ok : α → Prop} {R : σ → τ → Prop} {call : σ → α → ρ × σ} {spec : τ → α → ρ × τ}

theorem Simulates.after (h : Simulates Ok R call spec) {s : σ} {t : τ} (hR : R s t) {as : List α}
    (hok : ∀ a ∈ as, Ok a) : R (after call s as) (after spec t as) := by
  induction as generalizing s t with
  | nil => exact hR
  | cons a as ih =>
      obtain ⟨-, hnext⟩ := h s t a hR (hok a List.mem_cons_self)
      exact ih hnext fun b hb => hok b (List.mem_cons_of_mem a hb)

theorem Simulates.answers (h : Simulates Ok R call spec) {s : σ} {t : τ} (hR : R s t) {as : List α}
    (hok : ∀ a ∈ as, Ok a) : answers call s as = answers spec t as := by
  induction as generalizing s t with
  | nil => rfl
  | cons a as ih =>
      obtain ⟨hanswer, hnext⟩ := h s t a hR (hok a List.mem_cons_self)
      unfold Lib.answers
      rw [hanswer, ih hnext fun b hb => hok b (List.mem_cons_of_mem a hb)]

end Lib
