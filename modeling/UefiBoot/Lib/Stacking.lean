import Mathlib.Tactic

/-!
# `Lib.Stacking` — a stack of things on a table, kept as a list from the bottom to the top

Two operations. `topIdx` looks from the top for the first element that passes a test, as a hit test does, and
`toTop` takes an element out and puts it on top. `toTop_top`, `toTop_below` and `toTop_above` say where everything
goes, and `perm_toTop` that nothing is lost. An index that was taken before is good afterwards, or leads to an element
that fails the test (`getElem?_toTop_old`).
-/

namespace Lib

variable {α : Type*} {p : α → Bool} {l : List α} {i j : Nat} {x : α}

/-! ## Looking from the top -/

/-- The last index below `n` at which the list has an element that satisfies `p`. -/
def scanDown (p : α → Bool) (l : List α) : Nat → Option Nat
  | 0     => none
  | n + 1 => if (l[n]?).any p then some n else scanDown p l n

/-- The index of the topmost element that satisfies `p`. -/
def topIdx (p : α → Bool) (l : List α) : Option Nat := scanDown p l l.length

theorem scanDown_eq_some {n : Nat} (h : scanDown p l n = some i) :
    i < n ∧ (l[i]?).any p = true ∧ ∀ j, i < j → j < n → (l[j]?).any p = false := by
  induction n with
  | zero => exact absurd h (by simp [scanDown])
  | succ n ih =>
      unfold scanDown at h
      by_cases hn : (l[n]?).any p = true
      · rw [if_pos hn] at h
        obtain rfl := Option.some.inj h
        exact ⟨Nat.lt_succ_self _, hn, fun j hj hjn => by omega⟩
      · rw [if_neg hn] at h
        obtain ⟨hlt, hp, habove⟩ := ih h
        refine ⟨Nat.lt_succ_of_lt hlt, hp, fun j hj hjn => ?_⟩
        by_cases hjn' : j = n
        · rw [hjn']
          simpa using hn
        · exact habove j hj (by omega)

theorem scanDown_eq_none {n : Nat} (h : scanDown p l n = none) : ∀ j < n, (l[j]?).any p = false := by
  induction n with
  | zero => exact fun j hj => absurd hj (Nat.not_lt_zero j)
  | succ n ih =>
      unfold scanDown at h
      by_cases hn : (l[n]?).any p = true
      · rw [if_pos hn] at h
        exact absurd h (by simp)
      · rw [if_neg hn] at h
        intro j hj
        by_cases hjn : j = n
        · rw [hjn]
          simpa using hn
        · exact ih h j (by omega)

/-- What is found passes the test, and nothing above it does. -/
theorem topIdx_eq_some (h : topIdx p l = some i) :
    ∃ x, l[i]? = some x ∧ p x = true ∧ ∀ j y, i < j → l[j]? = some y → p y = false := by
  obtain ⟨-, hp, habove⟩ := scanDown_eq_some h
  cases hx : l[i]? with
  | none =>
      rw [hx] at hp
      exact absurd hp (by simp)
  | some x =>
      rw [hx] at hp
      refine ⟨x, rfl, hp, fun j y hj hy => ?_⟩
      have hlt : j < l.length := (List.getElem?_eq_some_iff.mp hy).1
      have hno := habove j hj hlt
      rw [hy] at hno
      exact hno

theorem topIdx_lt (h : topIdx p l = some i) : i < l.length := (scanDown_eq_some h).1

theorem topIdx_eq_none (h : topIdx p l = none) (hx : x ∈ l) : p x = false := by
  obtain ⟨j, hlt, rfl⟩ := List.mem_iff_getElem.mp hx
  have hno := scanDown_eq_none h j hlt
  rw [List.getElem?_eq_getElem hlt] at hno
  exact hno

/-- A position that passes the test with nothing above it that does is the one found. -/
theorem topIdx_of_top (hx : l[i]? = some x) (hp : p x = true)
    (habove : ∀ j y, i < j → l[j]? = some y → p y = false) : topIdx p l = some i := by
  have hlt : i < l.length := (List.getElem?_eq_some_iff.mp hx).1
  cases hfind : topIdx p l with
  | none =>
      have hno := topIdx_eq_none hfind (List.mem_of_getElem? hx)
      rw [hp] at hno
      exact absurd hno (by simp)
  | some k =>
      obtain ⟨y, hy, hpy, htop⟩ := topIdx_eq_some hfind
      rcases lt_trichotomy i k with hik | rfl | hki
      · rw [habove k y hik hy] at hpy
        exact absurd hpy (by simp)
      · rfl
      · rw [htop i x hki hx] at hp
        exact absurd hp (by simp)

/-! ## Putting on top -/

/-- The list with the element at `i` on top. -/
def toTop (l : List α) (i : Nat) : List α :=
  match l[i]? with
  | none   => l
  | some x => l.eraseIdx i ++ [x]

theorem toTop_eq (hx : l[i]? = some x) : toTop l i = l.eraseIdx i ++ [x] := by
  unfold toTop
  rw [hx]

@[simp] theorem length_toTop (l : List α) (i : Nat) : (toTop l i).length = l.length := by
  unfold toTop
  cases hx : l[i]? with
  | none => rfl
  | some x =>
      have hlt : i < l.length := (List.getElem?_eq_some_iff.mp hx).1
      dsimp only
      rw [List.length_append, List.length_eraseIdx_of_lt hlt, List.length_singleton]
      omega

theorem perm_toTop (l : List α) (i : Nat) : (toTop l i).Perm l := by
  unfold toTop
  cases hx : l[i]? with
  | none => exact List.Perm.refl l
  | some x =>
      obtain ⟨hlt, rfl⟩ := List.getElem?_eq_some_iff.mp hx
      exact (List.perm_append_singleton _ _).trans (List.getElem_cons_eraseIdx_perm hlt)

@[simp] theorem mem_toTop : x ∈ toTop l i ↔ x ∈ l := (perm_toTop l i).mem_iff

/-- The element that was put on top. -/
theorem toTop_top (hx : l[i]? = some x) : (toTop l i)[l.length - 1]? = some x := by
  have hlt : i < l.length := (List.getElem?_eq_some_iff.mp hx).1
  rw [toTop_eq hx]
  have hlen : (l.eraseIdx i).length = l.length - 1 := List.length_eraseIdx_of_lt hlt
  rw [List.getElem?_append_right (by omega), hlen, Nat.sub_self]
  rfl

/-- Putting the top element on top changes nothing. -/
theorem toTop_last (h : i + 1 = l.length) : toTop l i = l := by
  obtain ⟨x, hx⟩ : ∃ x, l[i]? = some x := ⟨_, List.getElem?_eq_getElem (by omega)⟩
  rw [toTop_eq hx, List.eraseIdx_eq_dropLast h]
  have hne : l ≠ [] := by
    rintro rfl
    exact absurd h (by simp)
  have hlast : l.getLast hne = x := by
    rw [List.getLast_eq_getElem]
    have hi : l.length - 1 = i := by omega
    simp only [hi]
    exact (List.getElem?_eq_some_iff.mp hx).2
  rw [← hlast]
  exact List.dropLast_append_getLast hne

/-- Below the element that was put on top nothing has moved. -/
theorem toTop_below {j : Nat} (hi : i < l.length) (hj : j < i) : (toTop l i)[j]? = l[j]? := by
  have hlen : (l.eraseIdx i).length = l.length - 1 := List.length_eraseIdx_of_lt hi
  rw [toTop_eq (List.getElem?_eq_getElem hi), List.getElem?_append_left (by omega),
    List.getElem?_eraseIdx_of_lt hj]

/-- What was above it has come down by one. -/
theorem toTop_above {j : Nat} (hij : i ≤ j) (hj : j + 1 < l.length) : (toTop l i)[j]? = l[j + 1]? := by
  have hi : i < l.length := by omega
  have hlen : (l.eraseIdx i).length = l.length - 1 := List.length_eraseIdx_of_lt hi
  rw [toTop_eq (List.getElem?_eq_getElem hi), List.getElem?_append_left (by omega),
    List.getElem?_eraseIdx_of_ge hij]

/-- **An old index.** The element at `i` passes the test, and the topmost that does is put on top. If that was another
    one, `i` is still where it was; if not, it is on top now, and under `i` there is one that fails the test, unless `i`
    is the top. -/
theorem getElem?_toTop_old {k : Nat} (hx : l[i]? = some x) (hp : p x = true) (htop : topIdx p l = some k) :
    i < k ∧ (toTop l k)[i]? = some x ∨ i = k ∧ (i + 1 = l.length ∨ ((toTop l k)[i]?).any p = false) := by
  have hk : k < l.length := topIdx_lt htop
  obtain ⟨-, -, -, habove⟩ := topIdx_eq_some htop
  rcases lt_trichotomy i k with hlt | rfl | hgt
  · left
    exact ⟨hlt, (toTop_below hk hlt).trans hx⟩
  · right
    refine ⟨rfl, ?_⟩
    by_cases hlast : i + 1 = l.length
    · exact Or.inl hlast
    · right
      have hnext : i + 1 < l.length := by omega
      rw [toTop_above le_rfl hnext, List.getElem?_eq_getElem hnext]
      exact habove (i + 1) _ (Nat.lt_succ_self i) (List.getElem?_eq_getElem hnext)
  · -- nothing above the topmost passes
    rw [habove i x hgt hx] at hp
    cases hp

theorem toTop_map {β : Type*} (f : α → β) (l : List α) (i : Nat) : toTop (l.map f) i = (toTop l i).map f := by
  unfold toTop
  rw [List.getElem?_map]
  cases l[i]? with
  | none => rfl
  | some x =>
      dsimp only [Option.map_some]
      rw [List.map_append, List.eraseIdx_map]
      rfl

/-- The list with the element that `topIdx` finds on top. -/
def raiseTop (p : α → Bool) (l : List α) : List α := (topIdx p l).elim l (toTop l)

@[simp] theorem mem_raiseTop : x ∈ raiseTop p l ↔ x ∈ l := by
  unfold raiseTop
  cases topIdx p l with
  | none => exact Iff.rfl
  | some i => exact mem_toTop

/-- What was raised is on top. -/
theorem raiseTop_top (hx : x ∈ l) (hp : p x = true) : ((raiseTop p l)[l.length - 1]?).any p = true := by
  unfold raiseTop
  cases hfind : topIdx p l with
  | none =>
      rw [topIdx_eq_none hfind hx] at hp
      cases hp
  | some i =>
      obtain ⟨y, hy, hpy, -⟩ := topIdx_eq_some hfind
      show ((toTop l i)[l.length - 1]?).any p = true
      rw [toTop_top hy]
      exact hpy

/-- Nothing is raised past an element that passes, nor where none does. -/
theorem raiseTop_eq (h : ∀ x ∈ l, p x = true → (l[l.length - 1]?).any p = true) : raiseTop p l = l := by
  unfold raiseTop
  cases hfind : topIdx p l with
  | none => rfl
  | some i =>
      obtain ⟨y, hy, hpy, habove⟩ := topIdx_eq_some hfind
      have hlt := topIdx_lt hfind
      obtain ⟨last, hlast, hplast⟩ := Option.any_eq_true _ _ |>.mp (h y (List.mem_of_getElem? hy) hpy)
      refine toTop_last ?_
      by_contra hne
      rw [habove (l.length - 1) last (by omega) hlast] at hplast
      cases hplast

end Lib
