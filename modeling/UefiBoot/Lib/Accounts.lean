import Mathlib.Tactic

/-!
# `Lib.Accounts` — what goes into an account comes out of it or stays

An account has a balance once it is opened. Three entries move it: it is *opened* with a first amount, an amount
is *added*, or one is *taken*, which is possible only when it is there. A journal is the list of entries so far,
newest first, and `Posted` relates it to the balances it leads to.

`Posted.conserved` is the law: for every account, the opening amount and everything added make up everything
taken and the balance.
-/

namespace Lib

/-- One movement of an account. -/
inductive Entry (κ M : Type*) where
  | opened (account : κ) (amount : M)
  | added (account : κ) (amount : M)
  | taken (account : κ) (amount : M)
  deriving DecidableEq

section Accounts

variable {κ M : Type*} [DecidableEq κ]

/-- Everything added to an account after it was opened. -/
def addedTo [AddCommMonoid M] (k : κ) : List (Entry κ M) → M
  | []                  => 0
  | .added a v :: rest  => if a = k then v + addedTo k rest else addedTo k rest
  | .opened _ _ :: rest => addedTo k rest
  | .taken _ _ :: rest  => addedTo k rest

/-- Everything taken from an account. -/
def takenFrom [AddCommMonoid M] (k : κ) : List (Entry κ M) → M
  | []                  => 0
  | .taken a v :: rest  => if a = k then v + takenFrom k rest else takenFrom k rest
  | .opened _ _ :: rest => takenFrom k rest
  | .added _ _ :: rest  => takenFrom k rest

variable [AddCommMonoid M]

/-- What an entry does to the balances, where it is allowed. -/
inductive Posts (b : κ → Option M) : Entry κ M → (κ → Option M) → Prop
  | opened (k : κ) (v : M) (hnew : b k = none) : Posts b (.opened k v) (Function.update b k (some v))
  | added (k : κ) (v x : M) (hk : b k = some x) : Posts b (.added k v) (Function.update b k (some (x + v)))
  | taken (k : κ) (v x : M) (hk : b k = some (x + v)) : Posts b (.taken k v) (Function.update b k (some x))

/-- The journal leads to the balances, from no accounts at all. -/
inductive Posted : List (Entry κ M) → (κ → Option M) → Prop
  | start : Posted [] fun _ => none
  | post {l : List (Entry κ M)} {b b' : κ → Option M} {e : Entry κ M} (h : Posted l b) (he : Posts b e b') :
      Posted (e :: l) b'

variable {l : List (Entry κ M)} {b : κ → Option M} {k : κ}

/-- An account that is not open has no movements. -/
theorem Posted.unopened (h : Posted l b) (hk : b k = none) :
    (∀ v, Entry.opened k v ∉ l) ∧ addedTo k l = 0 ∧ takenFrom k l = 0 := by
  induction h with
  | start => exact ⟨fun v => by simp, rfl, rfl⟩
  | post h he ih =>
      -- every entry leaves its own account open
      cases he with
      | opened a w hnew =>
          have hne : k ≠ a := by rintro rfl; simp at hk
          rw [Function.update_of_ne hne] at hk
          obtain ⟨hopen, hadd, htake⟩ := ih hk
          exact ⟨fun v => by simp [hne, hopen v], hadd, htake⟩
      | added a w x ha =>
          have hne : k ≠ a := by rintro rfl; simp at hk
          rw [Function.update_of_ne hne] at hk
          obtain ⟨hopen, hadd, htake⟩ := ih hk
          exact ⟨fun v => by simp [hopen v], by rw [addedTo, if_neg (Ne.symm hne), hadd], htake⟩
      | taken a w x ha =>
          have hne : k ≠ a := by rintro rfl; simp at hk
          rw [Function.update_of_ne hne] at hk
          obtain ⟨hopen, hadd, htake⟩ := ih hk
          exact ⟨fun v => by simp [hopen v], hadd, by rw [takenFrom, if_neg (Ne.symm hne), htake]⟩

/-- **Conservation.** What an opened account was given is what was taken from it and what it holds. -/
theorem Posted.conserved (h : Posted l b) {v : M} (hk : Entry.opened k v ∈ l) :
    ∃ x, b k = some x ∧ v + addedTo k l = takenFrom k l + x := by
  induction h with
  | start => exact absurd hk (by simp)
  | @post l b b' e h he ih =>
      cases he with
      | opened a w hnew =>
          obtain ⟨hopen, hadd, htake⟩ := h.unopened hnew
          rcases List.mem_cons.mp hk with hkey | hold
          · -- the entry itself: nothing has moved yet
            obtain ⟨rfl, rfl⟩ : k = a ∧ v = w := by simpa using hkey
            exact ⟨v, Function.update_self .., by rw [addedTo, takenFrom, hadd, htake, add_zero, zero_add]⟩
          · have hne : k ≠ a := by
              rintro rfl
              exact hopen v hold
            obtain ⟨x, hx, hlaw⟩ := ih hold
            exact ⟨x, (Function.update_of_ne hne ..).trans hx, hlaw⟩
      | added a w y ha =>
          obtain ⟨x, hx, hlaw⟩ := ih (by simpa using hk)
          by_cases hka : k = a
          · subst hka
            obtain rfl : y = x := Option.some.inj (ha.symm.trans hx)
            refine ⟨y + w, Function.update_self .., ?_⟩
            calc v + addedTo k (.added k w :: l)
                _ = w + (v + addedTo k l)   := by rw [addedTo, if_pos rfl, add_left_comm]
                _ = w + (takenFrom k l + y) := by rw [hlaw]
                _ = takenFrom k l + (y + w) := by rw [add_comm w, add_assoc]
          · refine ⟨x, (Function.update_of_ne hka ..).trans hx, ?_⟩
            rw [addedTo, if_neg (Ne.symm hka), takenFrom]
            exact hlaw
      | taken a w y ha =>
          obtain ⟨x, hx, hlaw⟩ := ih (by simpa using hk)
          by_cases hka : k = a
          · subst hka
            obtain rfl : y + w = x := Option.some.inj (ha.symm.trans hx)
            refine ⟨y, Function.update_self .., ?_⟩
            calc v + addedTo k (.taken k w :: l)
                _ = takenFrom k l + (y + w)           := by rw [addedTo, hlaw]
                _ = w + takenFrom k l + y             := by rw [add_comm y, ← add_assoc, add_comm w]
                _ = takenFrom k (.taken k w :: l) + y := by rw [takenFrom, if_pos rfl]
          · refine ⟨x, (Function.update_of_ne hka ..).trans hx, ?_⟩
            rw [takenFrom, if_neg (Ne.symm hka), addedTo]
            exact hlaw

/-- An opened account stays open. -/
theorem Posted.isSome (h : Posted l b) {v : M} (hk : Entry.opened k v ∈ l) : (b k).isSome := by
  obtain ⟨x, hx, -⟩ := h.conserved hk
  rw [hx]
  rfl

end Accounts
end Lib
