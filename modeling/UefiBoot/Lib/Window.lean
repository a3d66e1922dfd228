import Mathlib.Data.List.DropRight
import Mathlib.Tactic

/-!
# `Lib.Window` — a log that keeps its last entries

A log of fixed capacity drops its oldest entry when it is full and a new one arrives. What it holds after any number
of entries is the end of the list of all of them, Mathlib's `rtake` (`push_rtake`).
-/

namespace Lib

variable {α β : Type*}

/-- A new entry at the end of a log of at most `capacity` entries. -/
def Window.push (capacity : Nat) (log : List α) (entry : α) : List α :=
  (if log.length ≥ capacity then log.drop 1 else log) ++ [entry]

namespace Window

variable {capacity n : Nat} {l : List α}

theorem length_rtake (l : List α) (n : Nat) : (l.rtake n).length = min n l.length := by
  rw [List.rtake, List.length_drop]
  omega

theorem le_length_push (capacity : Nat) (l : List α) (entry : α) : l.length ≤ (push capacity l entry).length := by
  unfold push
  rw [List.length_append, List.length_singleton]
  split
  · rw [List.length_drop]
    omega
  · exact Nat.le_succ _

theorem length_push_le (hcapacity : 0 < capacity) (h : l.length ≤ capacity) (entry : α) :
    (push capacity l entry).length ≤ capacity := by
  unfold push
  rw [List.length_append, List.length_singleton]
  split
  · rw [List.length_drop]
    omega
  · omega

theorem rtake_of_length_le (h : l.length ≤ n) : l.rtake n = l := by
  rw [List.rtake, Nat.sub_eq_zero_of_le h, List.drop_zero]

theorem map_rtake (f : α → β) (l : List α) (n : Nat) : (l.rtake n).map f = (l.map f).rtake n := by
  rw [List.rtake, List.rtake, List.map_drop, List.length_map]

/-- **The log is the end of the list.** -/
theorem push_rtake (hcapacity : 0 < capacity) (l : List α) (entry : α) :
    push capacity (l.rtake capacity) entry = (l ++ [entry]).rtake capacity := by
  obtain ⟨n, rfl⟩ : ∃ n, capacity = n + 1 := ⟨capacity - 1, by omega⟩
  unfold push
  rw [List.rtake_concat_succ, length_rtake]
  congr 1
  by_cases hfull : n + 1 ≤ l.length
  · rw [if_pos (by omega), List.rtake, List.rtake, List.drop_drop]
    congr 1
    omega
  · rw [if_neg (by omega), rtake_of_length_le (by omega), rtake_of_length_le (by omega)]

end Window
end Lib
