import Mathlib.Tactic

/-!
# `Lib.GridLine` — straight lines on a grid

A line goes `X` steps along one axis and `Y` along the other, and nobody counts them. Each turn compares twice the error
term with both lengths and steps along one axis, along the other, or along both (`Walk.step`). For `Y ≤ X` the invariant
is `OnCourse`: the error term is what the steps so far make of it, and it stays between two bounds, within which every turn
steps along the longer axis. At turn `X` the bounds leave no other place for the line than its end (`OnCourse.arrives`). The
other octants are the same with the axes exchanged and the error term negated (`walk_swap`).
-/

namespace Lib

/-- How far a line has come along either axis, and its error term. -/
@[ext] structure Walk where
  across : Int
  down   : Int
  err    : Int

namespace Walk

/-- One turn of a line with the lengths `X` and `Y`. -/
def step (X Y : Int) (w : Walk) : Walk :=
  { across := if -Y ≤ 2 * w.err then w.across + 1 else w.across
    down   := if 2 * w.err ≤ X then w.down + 1 else w.down
    err    := w.err + (if -Y ≤ 2 * w.err then -Y else 0) + (if 2 * w.err ≤ X then X else 0) }

section Step

variable {X Y : Int} {w : Walk}

theorem step_across (h : -Y ≤ 2 * w.err) : (w.step X Y).across = w.across + 1 := if_pos h

theorem step_across_not (h : ¬ -Y ≤ 2 * w.err) : (w.step X Y).across = w.across := if_neg h

theorem step_down (h : 2 * w.err ≤ X) : (w.step X Y).down = w.down + 1 := if_pos h

theorem step_down_not (h : ¬ 2 * w.err ≤ X) : (w.step X Y).down = w.down := if_neg h

theorem step_err :
    (w.step X Y).err = w.err + (if -Y ≤ 2 * w.err then -Y else 0) + (if 2 * w.err ≤ X then X else 0) := rfl

end Step

/-- The axes exchanged. -/
def swap (w : Walk) : Walk := { across := w.down, down := w.across, err := -w.err }

theorem swap_step (X Y : Int) (w : Walk) : (w.step X Y).swap = w.swap.step Y X := by
  have hright : -Y ≤ 2 * w.err ↔ 2 * -w.err ≤ Y := by omega
  have hlower : 2 * w.err ≤ X ↔ -X ≤ 2 * -w.err := by omega
  unfold step swap
  ext
  · simp only [hlower]
  · simp only [hright]
  · simp only [hright, hlower]
    split_ifs <;> omega

end Walk

/-- The line after `n` turns. -/
def walk (X Y : Int) : Nat → Walk
  | 0     => { across := 0, down := 0, err := X - Y }
  | n + 1 => (walk X Y n).step X Y

theorem walk_succ (X Y : Int) (n : Nat) : walk X Y (n + 1) = (walk X Y n).step X Y := rfl

theorem walk_swap (X Y : Int) (n : Nat) : walk Y X n = (walk X Y n).swap := by
  induction n with
  | zero =>
      unfold walk Walk.swap
      ext
      · rfl
      · rfl
      · dsimp only
        omega
  | succ n ih =>
      rw [walk_succ, walk_succ, ih, Walk.swap_step]

/-! ## Along the longer axis -/

/-- The invariant of a line with `Y ≤ X` after `n` turns. -/
structure OnCourse (X Y : Int) (n : Nat) (w : Walk) : Prop where
  across : w.across = n
  down   : 0 ≤ w.down
  error  : w.err = X - Y - n * Y + w.down * X
  low    : -Y ≤ 2 * w.err
  high   : 2 * w.err ≤ 3 * X - 2 * Y

variable {X Y : Int} {n : Nat} {w : Walk}

/-- Every turn steps along the longer axis, and some also along the other. -/
theorem OnCourse.step_cases (h : OnCourse X Y n w) :
    (2 * w.err ≤ X ∧ w.step X Y = ⟨w.across + 1, w.down + 1, w.err - Y + X⟩) ∨
    (X < 2 * w.err ∧ w.step X Y = ⟨w.across + 1, w.down, w.err - Y⟩) := by
  unfold Walk.step
  rw [if_pos h.low, if_pos h.low]
  by_cases hlower : 2 * w.err ≤ X
  · refine Or.inl ⟨hlower, ?_⟩
    rw [if_pos hlower, if_pos hlower]
    rfl
  · refine Or.inr ⟨not_le.mp hlower, ?_⟩
    rw [if_neg hlower, if_neg hlower, Int.add_zero]
    rfl

theorem OnCourse.step (hY : 0 ≤ Y) (hYX : Y ≤ X) (h : OnCourse X Y n w) : OnCourse X Y (n + 1) (w.step X Y) := by
  obtain ⟨hacross, hdown, herror, hlow, hhigh⟩ := h
  rcases OnCourse.step_cases ⟨hacross, hdown, herror, hlow, hhigh⟩ with ⟨hlower, hstep⟩ | ⟨hlower, hstep⟩
  · rw [hstep]
    constructor
    · push_cast
      omega
    · dsimp only
      omega
    · push_cast
      rw [herror]
      ring
    · dsimp only
      omega
    · dsimp only
      omega
  · rw [hstep]
    constructor
    · push_cast
      omega
    · exact hdown
    · push_cast
      rw [herror]
      ring
    · dsimp only
      omega
    · dsimp only
      omega

theorem walk_onCourse (hY : 0 ≤ Y) (hYX : Y ≤ X) (n : Nat) : OnCourse X Y n (walk X Y n) := by
  induction n with
  | zero =>
      constructor
      · rfl
      · exact le_refl _
      · unfold walk
        dsimp only
        push_cast
        ring
      · unfold walk
        dsimp only
        omega
      · unfold walk
        dsimp only
        omega
  | succ n ih => exact ih.step hY hYX

/-- Until the end of the longer axis the line does not pass the end of the other. -/
theorem OnCourse.down_le (hY : 0 ≤ Y) (hX : 0 < X) (h : OnCourse X Y n w) (hn : (n : Int) ≤ X) : w.down ≤ Y := by
  by_contra hpast
  have hsteps : (n : Int) * Y ≤ X * Y := mul_le_mul_of_nonneg_right hn hY
  have hdown : (Y + 1) * X ≤ w.down * X := mul_le_mul_of_nonneg_right (by omega) hX.le
  have herror := h.error
  have hhigh := h.high
  -- the error term would be above its bound
  nlinarith

/-- At the end of the longer axis it is at the end of the other. -/
theorem OnCourse.arrives (hY : 0 ≤ Y) (hX : 0 < X) (h : OnCourse X Y n w) (hn : (n : Int) = X) : w.down = Y := by
  refine le_antisymm (h.down_le hY hX hn.le) ?_
  by_contra hshort
  have hdown : w.down * X ≤ (Y - 1) * X := mul_le_mul_of_nonneg_right (by omega) hX.le
  have hpositive : 0 < Y := by
    have := h.down
    omega
  have herror := h.error
  have hlow := h.low
  rw [hn] at herror
  -- the error term would be below its bound
  nlinarith

/-! ## In every octant -/

/-- The line is between its ends, and its error term is of the size of its lengths. -/
structure InBounds (X Y : Int) (w : Walk) : Prop where
  across : 0 ≤ w.across ∧ w.across ≤ X
  down   : 0 ≤ w.down ∧ w.down ≤ Y
  err    : -(3 * Y) ≤ 2 * w.err ∧ 2 * w.err ≤ 3 * X

theorem InBounds.swap (h : InBounds X Y w) : InBounds Y X w.swap := by
  have herr := h.err
  refine ⟨h.down, h.across, ?_⟩
  unfold Walk.swap
  dsimp only
  omega

theorem inBounds_of_le (hY : 0 ≤ Y) (hYX : Y ≤ X) (hn : (n : Int) ≤ X) : InBounds X Y (walk X Y n) := by
  have hcourse := walk_onCourse hY hYX n
  have hdown : (walk X Y n).down ≤ Y := by
    by_cases hX : 0 < X
    · exact hcourse.down_le hY hX hn
    · -- the line is a point, and there was no turn
      obtain rfl : n = 0 := by omega
      exact hY
  have hlow := hcourse.low
  have hhigh := hcourse.high
  refine ⟨⟨?_, ?_⟩, ⟨hcourse.down, hdown⟩, ?_, ?_⟩
  · rw [hcourse.across]
    omega
  · rw [hcourse.across]
    exact hn
  · omega
  · omega

/-- **Until the last turn** the line stays between its ends. -/
theorem walk_inBounds (hX : 0 ≤ X) (hY : 0 ≤ Y) (hn : (n : Int) ≤ max X Y) : InBounds X Y (walk X Y n) := by
  rcases le_total Y X with hYX | hXY
  · exact inBounds_of_le hY hYX (by omega)
  · rw [walk_swap]
    exact (inBounds_of_le hX hXY (by omega)).swap

theorem ends_of_le (hY : 0 ≤ Y) (hYX : Y ≤ X) (hn : (n : Int) = X) :
    (walk X Y n).across = X ∧ (walk X Y n).down = Y := by
  have hcourse := walk_onCourse hY hYX n
  refine ⟨hcourse.across.trans hn, ?_⟩
  by_cases hX : 0 < X
  · exact hcourse.arrives hY hX hn
  · obtain rfl : n = 0 := by omega
    have : (walk X Y 0).down = 0 := rfl
    omega

/-- **The line ends** when it has gone along the longer axis, and not before. -/
theorem walk_ends_iff (hX : 0 ≤ X) (hY : 0 ≤ Y) (hn : (n : Int) ≤ max X Y) :
    (walk X Y n).across = X ∧ (walk X Y n).down = Y ↔ (n : Int) = max X Y := by
  rcases le_total Y X with hYX | hXY
  · constructor
    · rintro ⟨hacross, -⟩
      rw [(walk_onCourse hY hYX n).across] at hacross
      omega
    · intro hlast
      exact ends_of_le hY hYX (by omega)
  · rw [walk_swap]
    constructor
    · rintro ⟨-, hdown⟩
      have hacross : (walk Y X n).across = Y := hdown
      rw [(walk_onCourse hX hXY n).across] at hacross
      omega
    · intro hlast
      exact (ends_of_le hX hXY (by omega)).symm

/-- **Every turn** steps by at most one along either axis, and by one along the longer. -/
theorem walk_moves (hX : 0 ≤ X) (hY : 0 ≤ Y) (n : Nat) :
    ((walk X Y (n + 1)).across = (walk X Y n).across ∨ (walk X Y (n + 1)).across = (walk X Y n).across + 1) ∧
      ((walk X Y (n + 1)).down = (walk X Y n).down ∨ (walk X Y (n + 1)).down = (walk X Y n).down + 1) ∧
      (Y ≤ X → (walk X Y (n + 1)).across = (walk X Y n).across + 1) ∧
      (X ≤ Y → (walk X Y (n + 1)).down = (walk X Y n).down + 1) := by
  refine ⟨?_, ?_, fun hYX => ?_, fun hXY => ?_⟩
  · by_cases hright : -Y ≤ 2 * (walk X Y n).err
    · exact Or.inr (Walk.step_across hright)
    · exact Or.inl (Walk.step_across_not hright)
  · by_cases hlower : 2 * (walk X Y n).err ≤ X
    · exact Or.inr (Walk.step_down hlower)
    · exact Or.inl (Walk.step_down_not hlower)
  · rw [(walk_onCourse hY hYX (n + 1)).across, (walk_onCourse hY hYX n).across]
    push_cast
    rfl
  · rw [walk_swap Y X (n + 1), walk_swap Y X n]
    show (walk Y X (n + 1)).across = (walk Y X n).across + 1
    rw [(walk_onCourse hX hXY (n + 1)).across, (walk_onCourse hX hXY n).across]
    push_cast
    rfl

end Lib
