import Mathlib.Data.PEquiv
import Mathlib.Tactic

/-!
# `Lib.Zipper` — a place with the places before and after it

A history of visits: where one is, where one came from and where one has gone back from, the nearest first. A visit
keeps at most `n` places behind and forgets those ahead. Going back and going forward are inverse to each other
(`travel`), and neither changes the places.
-/

namespace Lib

structure Zipper (α : Type*) where
  back    : List α
  current : α
  forward : List α

namespace Zipper

variable {α : Type*} {z z' : Zipper α} {n : Nat}

/-- All places, from the farthest behind to the farthest ahead. -/
def places (z : Zipper α) : List α := z.back.reverse ++ z.current :: z.forward

def visit (n : Nat) (z : Zipper α) (x : α) : Zipper α :=
  { back := (z.current :: z.back).take n, current := x, forward := [] }

def goBack (z : Zipper α) : Option (Zipper α) :=
  match z.back with
  | []      => none
  | x :: xs => some { back := xs, current := x, forward := z.current :: z.forward }

def goForward (z : Zipper α) : Option (Zipper α) :=
  match z.forward with
  | []      => none
  | x :: xs => some { back := z.current :: z.back, current := x, forward := xs }

theorem goBack_eq_some : goBack z = some z' ↔
    z.back = z'.current :: z'.back ∧ z'.forward = z.current :: z.forward := by
  obtain ⟨back, current, forward⟩ := z
  obtain ⟨back', current', forward'⟩ := z'
  cases back with
  | nil => simp [goBack]
  | cons x xs => simp [goBack, and_assoc, and_left_comm, eq_comm]

theorem goForward_eq_some : goForward z = some z' ↔
    z.forward = z'.current :: z'.forward ∧ z'.back = z.current :: z.back := by
  obtain ⟨back, current, forward⟩ := z
  obtain ⟨back', current', forward'⟩ := z'
  cases forward with
  | nil => simp [goForward]
  | cons x xs => simp [goForward, and_comm, and_assoc, eq_comm]

/-- **Back and forward are inverse.** -/
def travel : Zipper α ≃. Zipper α where
  toFun := goBack
  invFun := goForward
  inv z z' := by
    exact goForward_eq_some.trans (and_comm.trans goBack_eq_some.symm)

theorem goForward_of_goBack (h : goBack z = some z') : goForward z' = some z := (travel.inv z z').mpr h

theorem goBack_of_goForward (h : goForward z = some z') : goBack z' = some z := (travel.inv z' z).mp h

theorem places_goBack (h : goBack z = some z') : z'.places = z.places := by
  obtain ⟨hback, hforward⟩ := goBack_eq_some.mp h
  unfold places
  rw [hback, hforward, List.reverse_cons, List.append_assoc]
  rfl

theorem places_goForward (h : goForward z = some z') : z'.places = z.places :=
  (places_goBack (goBack_of_goForward h)).symm

theorem length_places (z : Zipper α) : z.places.length = z.back.length + z.forward.length + 1 := by
  unfold places
  rw [List.length_append, List.length_reverse, List.length_cons]
  omega

theorem length_places_visit_le (x : α) : (z.visit n x).places.length ≤ n + 1 := by
  rw [length_places]
  unfold visit
  rw [List.length_take, List.length_nil]
  omega

theorem mem_places_visit {x y : α} (h : y ∈ (z.visit n x).places) : y = x ∨ y ∈ z.places := by
  unfold visit places at *
  simp only [List.mem_append, List.mem_reverse, List.mem_cons, List.not_mem_nil, or_false] at h ⊢
  rcases h with h | h
  · have hmem := List.mem_of_mem_take h
    rw [List.mem_cons] at hmem
    tauto
  · exact Or.inl h

end Zipper

end Lib
