import Mathlib.Control.Monad.Writer
import Mathlib.Tactic

/-!
# `Lib.Traced` — computations that log what they do

A `Traced ε α` is a value together with the events of computing it, in order: Mathlib's writer monad over
lists. What a program may do ("every read is in bounds", "every write stays inside") is then a property of
the log, `All P`, and `All` distributes over sequencing, so that it is proved where the events are emitted.

`search` is the loop `for (i = 0; i < n; i++) if (f(i)) return …;`. Its value and its events are determined by
the turns that were reached: those before which every turn found nothing.
-/

namespace Lib

abbrev Traced (ε α : Type) : Type := Writer (List ε) α

namespace Traced

variable {ε α β : Type} {P : ε → Prop}

def value (x : Traced ε α) : α := x.run.1

/-- The log. -/
def events (x : Traced ε α) : List ε := x.run.2

/-- One event. -/
def emit (e : ε) : Traced ε Unit := tell [e]

@[simp] theorem value_pure (a : α) : value (pure a : Traced ε α) = a := rfl
@[simp] theorem events_pure (a : α) : events (pure a : Traced ε α) = [] := rfl
@[simp] theorem value_emit (e : ε) : value (emit e) = () := rfl
@[simp] theorem events_emit (e : ε) : events (emit e) = [e] := rfl

@[simp] theorem value_bind (x : Traced ε α) (f : α → Traced ε β) : value (x >>= f) = value (f x.value) := rfl

@[simp] theorem events_bind (x : Traced ε α) (f : α → Traced ε β) :
    events (x >>= f) = x.events ++ (f x.value).events := rfl

/-- Every event of the computation satisfies `P`. -/
def All (P : ε → Prop) (x : Traced ε α) : Prop := ∀ e ∈ x.events, P e

@[simp] theorem all_pure (a : α) : All P (pure a : Traced ε α) := by
  intro e he
  exact absurd he (by simp)

@[simp] theorem all_emit (e : ε) : All P (emit e) ↔ P e := by
  constructor
  · intro h
    exact h e (by simp)
  · intro h e' he
    rw [events_emit, List.mem_singleton] at he
    rwa [he]

@[simp] theorem all_bind (x : Traced ε α) (f : α → Traced ε β) :
    All P (x >>= f) ↔ All P x ∧ All P (f x.value) := by
  unfold All
  rw [events_bind]
  constructor
  · intro h
    exact ⟨fun e he => h e (List.mem_append_left _ he), fun e he => h e (List.mem_append_right _ he)⟩
  · rintro ⟨hx, hf⟩ e he
    rcases List.mem_append.mp he with he | he
    · exact hx e he
    · exact hf e he

/-- The second part follows when the first has a result. -/
def andThen (x : Traced ε (Option α)) (f : α → Traced ε (Option β)) : Traced ε (Option β) := do
  match ← x with
  | none   => pure none
  | some a => f a

theorem value_andThen {x : Traced ε (Option α)} {a : α} (h : x.value = some a) (f : α → Traced ε (Option β)) :
    (andThen x f).value = (f a).value := by
  unfold andThen
  rw [value_bind, h]

theorem value_andThen_none {x : Traced ε (Option α)} (h : x.value = none) (f : α → Traced ε (Option β)) :
    (andThen x f).value = none := by
  unfold andThen
  rw [value_bind, h]
  rfl

theorem all_andThen {x : Traced ε (Option α)} {f : α → Traced ε (Option β)} (hx : All P x)
    (hf : ∀ a, x.value = some a → All P (f a)) : All P (andThen x f) := by
  unfold andThen
  rw [all_bind]
  refine ⟨hx, ?_⟩
  cases h : x.value with
  | none => exact all_pure none
  | some a => exact hf a h

theorem all_andThen_iff {x : Traced ε (Option α)} {f : α → Traced ε (Option β)} :
    All P (andThen x f) ↔ All P x ∧ ∀ a, x.value = some a → All P (f a) := by
  constructor
  · intro h
    unfold andThen at h
    rw [all_bind] at h
    refine ⟨h.1, fun a ha => ?_⟩
    have hrest := h.2
    rw [ha] at hrest
    exact hrest
  · rintro ⟨hx, hf⟩
    exact all_andThen hx hf

/-! ## Searching -/

/-- Turns `i`, `i + 1`, … of `n` turns, up to the first that finds something. -/
def search (f : Nat → Traced ε (Option β)) (i : Nat) : Nat → Traced ε (Option β)
  | 0     => pure none
  | n + 1 => do
      match ← f i with
      | some b => pure (some b)
      | none   => search f (i + 1) n

variable {f : Nat → Traced ε (Option β)} {i n : Nat}

theorem search_found {b : β} (h : (f i).value = some b) : (search f i (n + 1)).value = some b := by
  unfold search
  rw [value_bind, h]
  rfl

theorem search_missed (h : (f i).value = none) :
    (search f i (n + 1)).value = (search f (i + 1) n).value := by
  conv => lhs; unfold search
  rw [value_bind, h]

/-- A search finds nothing exactly when no turn does. -/
theorem search_eq_none_iff : (search f i n).value = none ↔ ∀ j, i ≤ j → j < i + n → (f j).value = none := by
  induction n generalizing i with
  | zero =>
      constructor
      · intro _ j hij hj
        omega
      · intro _
        rfl
  | succ n ih =>
      cases h : (f i).value with
      | some b =>
          rw [search_found h]
          constructor
          · intro hno
            exact absurd hno (by simp)
          · intro hall
            rw [hall i (Nat.le_refl i) (by omega)] at h
            exact h.symm
      | none =>
          rw [search_missed h, ih]
          constructor
          · intro hall j hij hj
            rcases Nat.eq_or_lt_of_le hij with rfl | hlt
            · exact h
            · exact hall j hlt (by omega)
          · intro hall j hij hj
            exact hall j (by omega) (by omega)

/-- A search returns what the first turn finds that finds something. -/
theorem search_eq_some_iff {b : β} :
    (search f i n).value = some b ↔
      ∃ j, i ≤ j ∧ j < i + n ∧ (f j).value = some b ∧ ∀ k, i ≤ k → k < j → (f k).value = none := by
  induction n generalizing i with
  | zero =>
      constructor
      · intro h
        cases h
      · rintro ⟨j, hij, hj, -⟩
        omega
  | succ n ih =>
      cases h : (f i).value with
      | some c =>
          rw [search_found h]
          constructor
          · intro hc
            exact ⟨i, Nat.le_refl i, by omega, h.trans hc, fun k hik hki => by omega⟩
          · rintro ⟨j, hij, -, hj, hbefore⟩
            rcases Nat.eq_or_lt_of_le hij with rfl | hlt
            · exact h.symm.trans hj
            · rw [hbefore i (Nat.le_refl i) hlt] at h
              cases h
      | none =>
          rw [search_missed h, ih]
          constructor
          · rintro ⟨j, hij, hjn, hj, hbefore⟩
            refine ⟨j, by omega, by omega, hj, fun k hik hkj => ?_⟩
            rcases Nat.eq_or_lt_of_le hik with rfl | hlt
            · exact h
            · exact hbefore k hlt hkj
          · rintro ⟨j, hij, hjn, hj, hbefore⟩
            rcases Nat.eq_or_lt_of_le hij with rfl | hlt
            · rw [h] at hj
              cases hj
            · exact ⟨j, hlt, by omega, hj, fun k hik hkj => hbefore k (by omega) hkj⟩

/-- **What a search logs.** The events of the turns it reaches, and no others. -/
theorem all_search_iff :
    All P (search f i n) ↔
      ∀ j, i ≤ j → j < i + n → (∀ k, i ≤ k → k < j → (f k).value = none) → All P (f j) := by
  induction n generalizing i with
  | zero =>
      constructor
      · intro _ j hij hj
        omega
      · intro _
        exact all_pure none
  | succ n ih =>
      unfold search
      rw [all_bind]
      cases h : (f i).value with
      | some b =>
          -- turn `i` is the only one reached
          constructor
          · rintro ⟨hi, -⟩ j hij hj hreach
            rcases Nat.eq_or_lt_of_le hij with rfl | hlt
            · exact hi
            · rw [hreach i (Nat.le_refl i) hlt] at h
              exact absurd h (by simp)
          · intro hall
            refine ⟨hall i (Nat.le_refl i) (by omega) fun k hik hki => by omega, ?_⟩
            exact all_pure (some b)
      | none =>
          dsimp only
          rw [ih]
          constructor
          · rintro ⟨hi, hrest⟩ j hij hj hreach
            rcases Nat.eq_or_lt_of_le hij with rfl | hlt
            · exact hi
            · exact hrest j hlt (by omega) fun k hik hkj => hreach k (by omega) hkj
          · intro hall
            refine ⟨hall i (Nat.le_refl i) (by omega) fun k hik hki => by omega, fun j hij hj hreach => ?_⟩
            apply hall j (by omega) (by omega)
            intro k hik hkj
            rcases Nat.eq_or_lt_of_le hik with rfl | hlt
            · exact h
            · exact hreach k hlt hkj

end Traced
end Lib
