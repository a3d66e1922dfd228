import UefiBoot.Lib.GridLine
import UefiBoot.Lib.Signed
import UefiBoot.Gui.Canvas

/-!
# `Gui.Line` — the points of a line

The loop of `DrawLine` has no counter: it ends at the turn that has both coordinates at the end of the line, and if one of
them passed its end first it would go on. `lineVisits` is the function with the arithmetic that the language defines, which
has no result where a sum does not fit, and lists the points that the loop comes to. In the integers the loop is the walk
of `Lib.GridLine` (`OnWalk.turn`), which ends, and no sum leaves the 32 bits as long as the line has a length of at most
`2 ^ 29` along either axis (`drawLine_straight`). What is drawn are the points visited that have no negative coordinate
(`lineLoop_eq`).
-/

namespace UefiBoot
namespace Gui

/-- The loop of `DrawLine`, for a number of turns. -/
def lineLoop (x1 y1 dx dy sx sy : Int32) (color : UInt32) : Nat → Int32 → Int32 → Int32 → List Dot
  | 0, _, _, _ => []
  | turns + 1, x0, y0, err =>
    let dots : List Dot := if x0 ≥ 0 ∧ y0 ≥ 0 then [⟨x0.toUInt32, y0.toUInt32, color⟩] else []
    if x0 = x1 ∧ y0 = y1 then dots
    else
      let e2 := 2 * err
      let (err, x0) := if e2 ≥ dy then (err + dy, x0 + sx) else (err, x0)
      let (err, y0) := if e2 ≤ dx then (err + dx, y0 + sy) else (err, y0)
      dots ++ lineLoop x1 y1 dx dy sx sy color turns x0 y0 err

/-- `DrawLine`. Every turn goes a step along one axis at least. -/
def drawLine (x0 y0 x1 y1 : Int32) (color : UInt32) : List Dot :=
  let dx := if x1 > x0 then x1 - x0 else x0 - x1
  let sx : Int32 := if x0 < x1 then 1 else -1
  let dy := if y1 > y0 then y0 - y1 else y1 - y0
  let sy : Int32 := if y0 < y1 then 1 else -1
  lineLoop x1 y1 dx dy sx sy color ((dx.toInt - dy.toInt).toNat + 1) x0 y0 (dx + dy)

theorem toUInt32_toNat {v : Int32} (h : 0 ≤ v.toInt) : (v.toUInt32.toNat : Int) = v.toInt := by
  have hcast := toInt32_toInt v.toUInt32
  have hlt := v.toUInt32.toNat_lt
  rw [Int32.toInt32_toUInt32] at hcast
  omega

abbrev Point := Int32 × Int32

/-- The loop of `DrawLine` for a number of turns: the points that it comes to. There are none if an operation is not
    defined, or if the turns do not suffice. -/
def visitLoop (x1 y1 dx dy sx sy : Int32) : Nat → Int32 → Int32 → Int32 → Option (List Point)
  | 0, _, _, _ => none
  | turns + 1, x0, y0, err =>
    if x0 = x1 ∧ y0 = y1 then some [(x0, y0)]
    else do
      let e2 ← Lib.checkedMul 2 err
      let errX ← (if e2 ≥ dy then Lib.checkedAdd err dy else some err)
      let x ← (if e2 ≥ dy then Lib.checkedAdd x0 sx else some x0)
      let errY ← (if e2 ≤ dx then Lib.checkedAdd errX dx else some errX)
      let y ← (if e2 ≤ dx then Lib.checkedAdd y0 sy else some y0)
      let rest ← visitLoop x1 y1 dx dy sx sy turns x y errY
      some ((x0, y0) :: rest)

/-- `DrawLine`, by what it visits. -/
def lineVisits (turns : Nat) (x0 y0 x1 y1 : Int32) : Option (List Point) := do
  let dx ← (if x1 > x0 then Lib.checkedSub x1 x0 else Lib.checkedSub x0 x1)
  let dy ← (if y1 > y0 then Lib.checkedSub y0 y1 else Lib.checkedSub y1 y0)
  let err ← Lib.checkedAdd dx dy
  visitLoop x1 y1 dx dy (if x0 < x1 then 1 else -1) (if y0 < y1 then 1 else -1) turns x0 y0 err

/-- What `DrawLine` draws at a point. -/
def dotAt (color : UInt32) (p : Point) : List Dot :=
  if p.1 ≥ 0 ∧ p.2 ≥ 0 then [⟨p.1.toUInt32, p.2.toUInt32, color⟩] else []

/-! ## What is visited is what is drawn -/

variable {x0 y0 x1 y1 dx dy sx sy err : Int32} {color : UInt32} {turns : Nat} {visited : List Point}

theorem lineLoop_eq (h : visitLoop x1 y1 dx dy sx sy turns x0 y0 err = some visited) :
    lineLoop x1 y1 dx dy sx sy color turns x0 y0 err = visited.flatMap (dotAt color) := by
  induction turns generalizing x0 y0 err visited with
  | zero => cases h
  | succ turns ih =>
      unfold visitLoop at h
      unfold lineLoop
      by_cases hend : x0 = x1 ∧ y0 = y1
      · rw [if_pos hend] at h ⊢
        cases h
        rw [List.flatMap_singleton]
        rfl
      · rw [if_neg hend] at h ⊢
        simp only [Option.bind_eq_bind, Option.bind_eq_some_iff] at h
        obtain ⟨e2, he2, errX, herrX, x, hx, errY, herrY, y, hy, rest, hrest, hvisited⟩ := h
        cases hvisited
        obtain rfl := Lib.checkedMul_eq_some he2
        obtain rfl := Lib.checkedAdd_if_eq_some herrX
        obtain rfl := Lib.checkedAdd_if_eq_some hx
        obtain rfl := Lib.checkedAdd_if_eq_some herrY
        obtain rfl := Lib.checkedAdd_if_eq_some hy
        rw [List.flatMap_cons, ← ih hrest]
        unfold dotAt
        dsimp only
        -- the two conditions, each tested twice by the one function and once by the other
        split_ifs <;> rfl

/-! ## The loop in the integers -/

/-- The constants of the loop: the lengths `X` and `Y` of a line, and the way it goes along either axis. -/
structure Course (x0 y0 x1 y1 dx dy sx sy : Int32) (X Y : Int) : Prop where
  lengthX : dx.toInt = X
  lengthY : dy.toInt = -Y
  wayX    : sx.toInt = 1 ∨ sx.toInt = -1
  wayY    : sy.toInt = 1 ∨ sy.toInt = -1
  endX    : x1.toInt = x0.toInt + sx.toInt * X
  endY    : y1.toInt = y0.toInt + sy.toInt * Y
  limitX  : 0 ≤ X ∧ X ≤ 2 ^ 29
  limitY  : 0 ≤ Y ∧ Y ≤ 2 ^ 29

/-- The variables of the loop after `n` turns, as the walk of the line has them. -/
structure OnWalk (x0 y0 sx sy : Int32) (X Y : Int) (n : Nat) (x y err : Int32) : Prop where
  column : x.toInt = x0.toInt + sx.toInt * (Lib.walk X Y n).across
  row    : y.toInt = y0.toInt + sy.toInt * (Lib.walk X Y n).down
  error  : err.toInt = (Lib.walk X Y n).err

/-- Going one way between two ends. -/
theorem between_ends {start stop way length steps : Int} (hway : way = 1 ∨ way = -1)
    (hstop : stop = start + way * length) (hsteps : 0 ≤ steps ∧ steps ≤ length) :
    (min start stop ≤ start + way * steps ∧ start + way * steps ≤ max start stop) ∧
      (start + way * steps = stop ↔ steps = length) := by
  rcases hway with rfl | rfl
  · omega
  · omega

/-- What lies between two coordinates is one. -/
theorem range_of_between {a b : Int32} {v : Int} (h : min a.toInt b.toInt ≤ v ∧ v ≤ max a.toInt b.toInt) :
    -2 ^ 31 ≤ v ∧ v < 2 ^ 31 :=
  ⟨(le_min a.le_toInt b.le_toInt).trans h.1, h.2.trans_lt (max_lt a.toInt_lt b.toInt_lt)⟩

variable {X Y : Int} {n : Nat} {x y : Int32}

/-- The error term of a walk, given the limits of its lengths. -/
theorem err_limit (hX : X ≤ 2 ^ 29) (hY : Y ≤ 2 ^ 29) {w : Lib.Walk} (h : Lib.InBounds X Y w) :
    -(3 * 2 ^ 29) ≤ 2 * w.err ∧ 2 * w.err ≤ 3 * 2 ^ 29 := by
  obtain ⟨hlow, hhigh⟩ := h.err
  exact ⟨by linarith, by linarith⟩

/-- **One turn** of the loop where all of its operations are defined. -/
theorem turn_defined (hx : dy.toInt ≤ 2 * err.toInt → -2 ^ 31 ≤ x.toInt + sx.toInt ∧ x.toInt + sx.toInt < 2 ^ 31)
    (hy : 2 * err.toInt ≤ dx.toInt → -2 ^ 31 ≤ y.toInt + sy.toInt ∧ y.toInt + sy.toInt < 2 ^ 31)
    (herr : -(3 * 2 ^ 29) ≤ 2 * err.toInt ∧ 2 * err.toInt ≤ 3 * 2 ^ 29) (hdx : 0 ≤ dx.toInt ∧ dx.toInt ≤ 2 ^ 29)
    (hdy : 0 ≤ -dy.toInt ∧ -dy.toInt ≤ 2 ^ 29) (hmore : ¬ (x = x1 ∧ y = y1)) :
    ∃ x' y' err' : Int32,
      x'.toInt = x.toInt + (if dy.toInt ≤ 2 * err.toInt then sx.toInt else 0) ∧
      y'.toInt = y.toInt + (if 2 * err.toInt ≤ dx.toInt then sy.toInt else 0) ∧
      err'.toInt = err.toInt + (if dy.toInt ≤ 2 * err.toInt then dy.toInt else 0) +
        (if 2 * err.toInt ≤ dx.toInt then dx.toInt else 0) ∧
      ∀ turns, visitLoop x1 y1 dx dy sx sy (turns + 1) x y err =
        (visitLoop x1 y1 dx dy sx sy turns x' y' err').map ((x, y) :: ·) := by
  obtain ⟨e2, htwice, he2val⟩ := Lib.checked_of_range (v := 2 * err.toInt) (by linarith) (by linarith)
  have he2 : Lib.checkedMul 2 err = some e2 := htwice
  rw [← he2val, ← Int32.le_iff_toInt_le] at hx hy
  obtain ⟨errX, herrX, herrXval⟩ :=
    Lib.checkedAdd_if (a := err) (b := dy) (p := e2 ≥ dy) fun _ => ⟨by linarith, by linarith⟩
  obtain ⟨x', hx', hx'val⟩ := Lib.checkedAdd_if (p := e2 ≥ dy) hx
  -- the error term between the two branches
  have herrXrange : err.toInt + dy.toInt ≤ errX.toInt ∧ errX.toInt ≤ err.toInt := by
    split_ifs at herrXval
    · exact ⟨herrXval.ge, by linarith⟩
    · exact ⟨by linarith, by linarith⟩
  obtain ⟨errY, herrY, herrYval⟩ :=
    Lib.checkedAdd_if (a := errX) (b := dx) (p := e2 ≤ dx) fun _ => ⟨by linarith, by linarith⟩
  obtain ⟨y', hy', hy'val⟩ := Lib.checkedAdd_if (p := e2 ≤ dx) hy
  simp only [ge_iff_le, Int32.le_iff_toInt_le, he2val] at herrXval hx'val herrYval hy'val
  refine ⟨x', y', errY, hx'val, hy'val, herrYval.trans (by rw [herrXval]), fun turns => ?_⟩
  rw [visitLoop, if_neg hmore]
  simp only [he2, herrX, hx', herrY, hy', Option.bind_eq_bind, Option.bind_some]
  cases visitLoop x1 y1 dx dy sx sy turns x' y' errY <;> rfl

/-- A place of the walk, as a point. -/
def linePoint (x0 y0 sx sy : Int32) (X Y : Int) (n : Nat) : Point :=
  (Int32.ofInt (x0.toInt + sx.toInt * (Lib.walk X Y n).across),
    Int32.ofInt (y0.toInt + sy.toInt * (Lib.walk X Y n).down))

namespace OnWalk

/-- Where the loop is: between the ends of the line, and at its end after as many turns as the longer axis has steps. -/
theorem position (hcourse : Course x0 y0 x1 y1 dx dy sx sy X Y) (h : OnWalk x0 y0 sx sy X Y n x y err)
    (hn : (n : Int) ≤ max X Y) :
    (min x0.toInt x1.toInt ≤ x.toInt ∧ x.toInt ≤ max x0.toInt x1.toInt) ∧
      (min y0.toInt y1.toInt ≤ y.toInt ∧ y.toInt ≤ max y0.toInt y1.toInt) ∧
      (x = x1 ∧ y = y1 ↔ (n : Int) = max X Y) := by
  have hbounds := Lib.walk_inBounds hcourse.limitX.1 hcourse.limitY.1 hn
  obtain ⟨hcolumn, hcolumnEnd⟩ := between_ends hcourse.wayX hcourse.endX hbounds.across
  obtain ⟨hrow, hrowEnd⟩ := between_ends hcourse.wayY hcourse.endY hbounds.down
  rw [← h.column] at hcolumn hcolumnEnd
  rw [← h.row] at hrow hrowEnd
  refine ⟨hcolumn, hrow, ?_⟩
  rw [← Lib.walk_ends_iff hcourse.limitX.1 hcourse.limitY.1 hn, ← hcolumnEnd, ← hrowEnd, Int32.toInt_inj, Int32.toInt_inj]

/-- **One turn** of the loop is one of the walk, and every operation is defined. -/
theorem turn (hcourse : Course x0 y0 x1 y1 dx dy sx sy X Y) (h : OnWalk x0 y0 sx sy X Y n x y err)
    (hn : (n : Int) < max X Y) :
    ∃ x' y' err', OnWalk x0 y0 sx sy X Y (n + 1) x' y' err' ∧ ∀ turns,
      visitLoop x1 y1 dx dy sx sy (turns + 1) x y err =
        (visitLoop x1 y1 dx dy sx sy turns x' y' err').map ((x, y) :: ·) := by
  have hend := (h.position hcourse hn.le).2.2
  have hmore : ¬ (x = x1 ∧ y = y1) := fun hboth => absurd (hend.mp hboth) (ne_of_lt hn)
  have herr := err_limit hcourse.limitX.2 hcourse.limitY.2 (Lib.walk_inBounds hcourse.limitX.1 hcourse.limitY.1 hn.le)
  rw [← h.error] at herr
  -- a step that is made leads to a place of the walk
  have hnext := Lib.walk_inBounds (n := n + 1) hcourse.limitX.1 hcourse.limitY.1 (by push_cast; exact hn)
  have hcolumn := range_of_between (between_ends hcourse.wayX hcourse.endX hnext.across).1
  have hrow := range_of_between (between_ends hcourse.wayY hcourse.endY hnext.down).1
  have hstepX : dy.toInt ≤ 2 * err.toInt →
      x.toInt + sx.toInt = x0.toInt + sx.toInt * (Lib.walk X Y (n + 1)).across := by
    intro hright
    rw [hcourse.lengthY, h.error] at hright
    rw [h.column, Lib.walk_succ, Lib.Walk.step_across hright]
    ring
  have hstepY : 2 * err.toInt ≤ dx.toInt →
      y.toInt + sy.toInt = y0.toInt + sy.toInt * (Lib.walk X Y (n + 1)).down := by
    intro hlower
    rw [hcourse.lengthX, h.error] at hlower
    rw [h.row, Lib.walk_succ, Lib.Walk.step_down hlower]
    ring
  obtain ⟨x', y', err', hx', hy', herr', hturn⟩ := turn_defined (fun hright => by rw [hstepX hright]; exact hcolumn)
    (fun hlower => by rw [hstepY hlower]; exact hrow) herr (by rw [hcourse.lengthX]; exact hcourse.limitX)
    (by rw [hcourse.lengthY, neg_neg]; exact hcourse.limitY) hmore
  refine ⟨x', y', err', ⟨?_, ?_, ?_⟩, hturn⟩
  · by_cases hright : dy.toInt ≤ 2 * err.toInt
    · rw [hx', if_pos hright, hstepX hright]
    · rw [hx', if_neg hright, Int.add_zero, h.column, Lib.walk_succ]
      rw [hcourse.lengthY, h.error] at hright
      rw [Lib.Walk.step_across_not hright]
  · by_cases hlower : 2 * err.toInt ≤ dx.toInt
    · rw [hy', if_pos hlower, hstepY hlower]
    · rw [hy', if_neg hlower, Int.add_zero, h.row, Lib.walk_succ]
      rw [hcourse.lengthX, h.error] at hlower
      rw [Lib.Walk.step_down_not hlower]
  · rw [herr', Lib.walk_succ, Lib.Walk.step_err, hcourse.lengthX, hcourse.lengthY, h.error]

/-- The place of the walk after `n` turns. -/
theorem point_eq (h : OnWalk x0 y0 sx sy X Y n x y err) : linePoint x0 y0 sx sy X Y n = (x, y) := by
  unfold linePoint
  rw [← h.column, ← h.row, Int32.ofInt_toInt, Int32.ofInt_toInt]

/-- **The whole loop**: with one turn more than there are steps left, it comes to every place of the walk that is left. -/
theorem visits (hcourse : Course x0 y0 x1 y1 dx dy sx sy X Y) (h : OnWalk x0 y0 sx sy X Y n x y err) {left : Nat}
    (hleft : (n : Int) + left = max X Y) (hturns : left < turns) :
    visitLoop x1 y1 dx dy sx sy turns x y err =
      some ((List.range (left + 1)).map fun k => linePoint x0 y0 sx sy X Y (n + k)) := by
  induction left generalizing n x y err turns with
  | zero =>
      obtain ⟨turns, rfl⟩ := Nat.exists_eq_succ_of_ne_zero (by omega : turns ≠ 0)
      have hend := (h.position hcourse (by omega)).2.2.mpr (by omega)
      have hplace := h.point_eq
      rw [visitLoop, if_pos hend]
      simp [hplace]
  | succ left ih =>
      obtain ⟨turns, rfl⟩ := Nat.exists_eq_succ_of_ne_zero (by omega : turns ≠ 0)
      obtain ⟨x', y', err', hnext, hturn⟩ := h.turn hcourse (by omega)
      have hplace : linePoint x0 y0 sx sy X Y (n + 0) = (x, y) := h.point_eq
      rw [hturn, ih hnext (by push_cast; omega) (by omega), Option.map_some, List.range_succ_eq_map (n := left + 1),
        List.map_cons, List.map_map, hplace]
      congr 2
      apply List.map_congr_left
      intro k _
      show linePoint x0 y0 sx sy X Y (n + 1 + k) = linePoint x0 y0 sx sy X Y (n + (k + 1))
      rw [Nat.add_assoc, Nat.add_comm 1 k]

/-- Before the first turn. -/
theorem start (h : err.toInt = X - Y) : OnWalk x0 y0 sx sy X Y 0 x0 y0 err := by
  refine ⟨?_, ?_, h⟩
  · show x0.toInt = x0.toInt + sx.toInt * 0
    rw [Int.mul_zero, Int.add_zero]
  · show y0.toInt = y0.toInt + sy.toInt * 0
    rw [Int.mul_zero, Int.add_zero]

/-- Every place of the walk is a point, and so is its error term a number. -/
theorem linePoint (hcourse : Course x0 y0 x1 y1 dx dy sx sy X Y) (hn : (n : Int) ≤ max X Y) :
    OnWalk x0 y0 sx sy X Y n (linePoint x0 y0 sx sy X Y n).1 (linePoint x0 y0 sx sy X Y n).2
      (Int32.ofInt (Lib.walk X Y n).err) := by
  have hbounds := Lib.walk_inBounds hcourse.limitX.1 hcourse.limitY.1 hn
  have herr := err_limit hcourse.limitX.2 hcourse.limitY.2 hbounds
  have hcolumn := range_of_between (between_ends hcourse.wayX hcourse.endX hbounds.across).1
  have hrow := range_of_between (between_ends hcourse.wayY hcourse.endY hbounds.down).1
  exact ⟨Int32.toInt_ofInt_of_le hcolumn.1 hcolumn.2, Int32.toInt_ofInt_of_le hrow.1 hrow.2,
    Int32.toInt_ofInt_of_le (by linarith) (by linarith)⟩

end OnWalk

/-! ## The law of a line -/

/-- From a point of a line to the next: by at most one along either axis, and by one along the longer. -/
def LineStep (x0 y0 x1 y1 : Int32) (p q : Point) : Prop :=
  (q.1.toInt - p.1.toInt).natAbs ≤ 1 ∧ (q.2.toInt - p.2.toInt).natAbs ≤ 1 ∧
  ((y1.toInt - y0.toInt).natAbs ≤ (x1.toInt - x0.toInt).natAbs → (q.1.toInt - p.1.toInt).natAbs = 1) ∧
  ((x1.toInt - x0.toInt).natAbs ≤ (y1.toInt - y0.toInt).natAbs → (q.2.toInt - p.2.toInt).natAbs = 1)

/-- What the points of a line are. -/
structure Visits (x0 y0 x1 y1 : Int32) (visited : List Point) : Prop where
  count  : visited.length = max (x1.toInt - x0.toInt).natAbs (y1.toInt - y0.toInt).natAbs + 1
  first  : visited.head? = some (x0, y0)
  last   : visited.getLast? = some (x1, y1)
  steps  : visited.IsChain (LineStep x0 y0 x1 y1)
  inside : ∀ p ∈ visited, (min x0.toInt x1.toInt ≤ p.1.toInt ∧ p.1.toInt ≤ max x0.toInt x1.toInt) ∧
    min y0.toInt y1.toInt ≤ p.2.toInt ∧ p.2.toInt ≤ max y0.toInt y1.toInt

namespace Course

/-- The lengths are the distances between the ends. -/
theorem lengths (h : Course x0 y0 x1 y1 dx dy sx sy X Y) :
    X = (x1.toInt - x0.toInt).natAbs ∧ Y = (y1.toInt - y0.toInt).natAbs := by
  have hendX := h.endX
  have hendY := h.endY
  have hlimitX := h.limitX
  have hlimitY := h.limitY
  constructor
  · rcases h.wayX with hway | hway
    · rw [hway] at hendX
      omega
    · rw [hway] at hendX
      omega
  · rcases h.wayY with hway | hway
    · rw [hway] at hendY
      omega
    · rw [hway] at hendY
      omega

/-- A turn of the walk is a step of the line. -/
theorem lineStep (h : Course x0 y0 x1 y1 dx dy sx sy X Y) (hn : (n : Int) < max X Y) :
    LineStep x0 y0 x1 y1 (linePoint x0 y0 sx sy X Y n) (linePoint x0 y0 sx sy X Y (n + 1)) := by
  have hhere := OnWalk.linePoint h hn.le
  have hnext := OnWalk.linePoint (n := n + 1) h (by push_cast; omega)
  obtain ⟨hX, hY⟩ := h.lengths
  obtain ⟨hacross, hdown, hlongX, hlongY⟩ := Lib.walk_moves h.limitX.1 h.limitY.1 n
  -- along either axis the point moves as the walk does, in the way of the line
  have hmove : ∀ {way from' to' : Int}, way = 1 ∨ way = -1 → to' = from' ∨ to' = from' + 1 →
      ∀ origin : Int, (origin + way * to' - (origin + way * from')).natAbs = (to' - from').natAbs := by
    rintro way from' to' (rfl | rfl) hto origin
    · omega
    · omega
  unfold LineStep
  rw [hhere.column, hhere.row, hnext.column, hnext.row, hmove h.wayX hacross, hmove h.wayY hdown]
  refine ⟨by omega, by omega, fun hlong => ?_, fun hlong => ?_⟩
  · have := hlongX (by omega)
    omega
  · have := hlongY (by omega)
    omega

/-- **The walk visits** what a line is to visit. -/
theorem visits (h : Course x0 y0 x1 y1 dx dy sx sy X Y) :
    Visits x0 y0 x1 y1 ((List.range ((max X Y).toNat + 1)).map (linePoint x0 y0 sx sy X Y)) := by
  obtain ⟨hX, hY⟩ := h.lengths
  have hlimitX := h.limitX
  have hlast : (((max X Y).toNat : Nat) : Int) = max X Y := Int.toNat_of_nonneg (by omega)
  constructor
  case count =>
    rw [List.length_map, List.length_range]
    omega
  case first =>
    rw [List.range_succ_eq_map, List.map_cons, List.head?_cons]
    have hhere := OnWalk.linePoint (n := 0) h (by push_cast; omega)
    have hstart : OnWalk x0 y0 sx sy X Y 0 x0 y0 (Int32.ofInt (Lib.walk X Y 0).err) := OnWalk.start hhere.error
    rw [hstart.point_eq]
  case last =>
    rw [List.range_succ, List.map_append, List.map_singleton, List.getLast?_concat]
    obtain ⟨hx, hy⟩ := ((OnWalk.linePoint h hlast.le).position h hlast.le).2.2.mpr hlast
    rw [← hx, ← hy]
  case steps =>
    rw [List.isChain_map, List.isChain_range_succ]
    intro m hm
    exact h.lineStep (by omega)
  case inside =>
    intro p hp
    obtain ⟨m, hm, rfl⟩ := List.mem_map.mp hp
    rw [List.mem_range] at hm
    have hplace : (m : Int) ≤ max X Y := by omega
    obtain ⟨hcolumn, hrow, -⟩ := (OnWalk.linePoint h hplace).position h hplace
    exact ⟨hcolumn, hrow⟩

/-- The loop comes to all places of the walk. -/
theorem visitLoop_eq (h : Course x0 y0 x1 y1 dx dy sx sy X Y) (herr : err.toInt = X - Y)
    (hturns : (max X Y).toNat < turns) :
    visitLoop x1 y1 dx dy sx sy turns x0 y0 err =
      some ((List.range ((max X Y).toNat + 1)).map (linePoint x0 y0 sx sy X Y)) := by
  have hlast : ((0 : Nat) : Int) + ((max X Y).toNat : Nat) = max X Y := by
    rw [Nat.cast_zero, Int.zero_add, Int.toNat_of_nonneg (le_max_of_le_left h.limitX.1)]
  rw [(OnWalk.start herr).visits h hlast hturns]
  simp only [Nat.zero_add]

end Course

/-- The distance of two coordinates, as `DrawLine` computes it in either order, and the way from the one to the other. -/
theorem length_and_way {a b : Int32} (hlen : (b.toInt - a.toInt).natAbs ≤ 2 ^ 29) :
    (∃ d, (if b > a then Lib.checkedSub b a else Lib.checkedSub a b) = some d ∧
      d.toInt = (b.toInt - a.toInt).natAbs) ∧
    (∃ d, (if b > a then Lib.checkedSub a b else Lib.checkedSub b a) = some d ∧
      d.toInt = -(b.toInt - a.toInt).natAbs) ∧
    ((if a < b then 1 else -1 : Int32).toInt = 1 ∨ (if a < b then 1 else -1 : Int32).toInt = -1) ∧
    b.toInt = a.toInt + (if a < b then 1 else -1 : Int32).toInt * (b.toInt - a.toInt).natAbs := by
  have hone : (1 : Int32).toInt = 1 := rfl
  have hminus : (-1 : Int32).toInt = -1 := rfl
  obtain ⟨up, hup, hupval⟩ := Lib.checked_of_range (v := b.toInt - a.toInt) (by omega) (by omega)
  obtain ⟨down, hdown, hdownval⟩ := Lib.checked_of_range (v := a.toInt - b.toInt) (by omega) (by omega)
  by_cases hlt : a < b
  · have hltInt := Int32.lt_iff_toInt_lt.mp hlt
    have hdist : ((b.toInt - a.toInt).natAbs : Int) = b.toInt - a.toInt := Int.natAbs_of_nonneg (by linarith)
    rw [if_pos hlt, if_pos hlt, if_pos hlt, hone, hdist]
    exact ⟨⟨up, hup, hupval⟩, ⟨down, hdown, by linarith⟩, Or.inl rfl, by linarith⟩
  · have hleInt := Int32.le_iff_toInt_le.mp (Int32.not_lt.mp hlt)
    have hdist : ((b.toInt - a.toInt).natAbs : Int) = a.toInt - b.toInt := by
      rw [Int.ofNat_natAbs_of_nonpos (by linarith), Int.neg_sub]
    rw [if_neg hlt, if_neg hlt, if_neg hlt, hminus, hdist]
    exact ⟨⟨down, hdown, hdownval⟩, ⟨up, hup, by linarith⟩, Or.inr rfl, by linarith⟩

/-- **Lines are straight** wherever they are, up to a length that the error term can hold. -/
theorem drawLine_straight (color : UInt32) (hX : (x1.toInt - x0.toInt).natAbs ≤ 2 ^ 29)
    (hY : (y1.toInt - y0.toInt).natAbs ≤ 2 ^ 29) :
    ∃ visited, Visits x0 y0 x1 y1 visited ∧
      (∀ turns, visited.length ≤ turns → lineVisits turns x0 y0 x1 y1 = some visited) ∧
      drawLine x0 y0 x1 y1 color = visited.flatMap (dotAt color) := by
  obtain ⟨⟨dx, hdx, hdxval⟩, -, hwayX, hendX⟩ := length_and_way hX
  obtain ⟨-, ⟨dy, hdy, hdyval⟩, hwayY, hendY⟩ := length_and_way hY
  have hlimitX : 0 ≤ ((x1.toInt - x0.toInt).natAbs : Int) ∧ ((x1.toInt - x0.toInt).natAbs : Int) ≤ 2 ^ 29 := by omega
  have hlimitY : 0 ≤ ((y1.toInt - y0.toInt).natAbs : Int) ∧ ((y1.toInt - y0.toInt).natAbs : Int) ≤ 2 ^ 29 := by omega
  have hcourse : Course x0 y0 x1 y1 dx dy (if x0 < x1 then 1 else -1) (if y0 < y1 then 1 else -1)
      (x1.toInt - x0.toInt).natAbs (y1.toInt - y0.toInt).natAbs :=
    ⟨hdxval, hdyval, hwayX, hwayY, hendX, hendY, hlimitX, hlimitY⟩
  have hvisits := hcourse.visits
  -- from here on the lengths are any two numbers
  generalize ((x1.toInt - x0.toInt).natAbs : Int) = X at hdxval hlimitX hcourse hvisits
  generalize ((y1.toInt - y0.toInt).natAbs : Int) = Y at hdyval hlimitY hcourse hvisits
  obtain ⟨err, herr, herrval⟩ := Lib.checked_of_range (v := dx.toInt + dy.toInt) (by linarith) (by linarith)
  have herrXY : err.toInt = X - Y := by linarith
  refine ⟨_, hvisits, fun turns hturns => ?_, ?_⟩
  · rw [List.length_map, List.length_range] at hturns
    unfold lineVisits
    rw [hdx, hdy]
    show (Lib.checkedAdd dx dy).bind _ = _
    rw [show Lib.checkedAdd dx dy = some err from herr]
    exact hcourse.visitLoop_eq herrXY hturns
  · -- the model of the function has turns enough
    have henough : (max X Y).toNat < (dx.toInt - dy.toInt).toNat + 1 := by
      rw [hdxval, hdyval, Nat.lt_succ_iff]
      exact Int.toNat_le_toNat (max_le (by linarith) (by linarith))
    unfold drawLine
    dsimp only
    rw [← Lib.checkedSub_if_eq_some hdx, ← Lib.checkedSub_if_eq_some hdy, ← Lib.checkedAdd_eq_some herr]
    exact lineLoop_eq (hcourse.visitLoop_eq herrXY henough)

/-- Every dot of a line is between its ends. -/
theorem drawLine_box (hX : (x1.toInt - x0.toInt).natAbs ≤ 2 ^ 29) (hY : (y1.toInt - y0.toInt).natAbs ≤ 2 ^ 29) :
    ∀ dot ∈ drawLine x0 y0 x1 y1 color,
      (min x0.toInt x1.toInt ≤ dot.x.toNat ∧ (dot.x.toNat : Int) ≤ max x0.toInt x1.toInt) ∧
        min y0.toInt y1.toInt ≤ dot.y.toNat ∧ (dot.y.toNat : Int) ≤ max y0.toInt y1.toInt := by
  intro dot hdot
  obtain ⟨visited, hvisits, -, hdrawn⟩ := drawLine_straight color hX hY
  rw [hdrawn] at hdot
  obtain ⟨p, hp, hdot⟩ := List.mem_flatMap.mp hdot
  unfold dotAt at hdot
  by_cases hpositive : p.1 ≥ 0 ∧ p.2 ≥ 0
  · rw [if_pos hpositive, List.mem_singleton] at hdot
    subst hdot
    dsimp only
    rw [toUInt32_toNat (Int32.le_iff_toInt_le.mp hpositive.1), toUInt32_toNat (Int32.le_iff_toInt_le.mp hpositive.2)]
    exact hvisits.inside p hp
  · rw [if_neg hpositive] at hdot
    exact absurd hdot List.not_mem_nil

/-- **`DrawLine` visits a line**: it ends, no operation overflows, and what it draws are the points of the line that have
    no negative coordinate. -/
theorem drawLine_visits (x0 y0 x1 y1 : Int32) (color : UInt32) (hx0 : x0.toInt.natAbs ≤ 2 ^ 26)
    (hy0 : y0.toInt.natAbs ≤ 2 ^ 26) (hx1 : x1.toInt.natAbs ≤ 2 ^ 26) (hy1 : y1.toInt.natAbs ≤ 2 ^ 26) :
    ∃ visited, Visits x0 y0 x1 y1 visited ∧
      (∀ turns, visited.length ≤ turns → lineVisits turns x0 y0 x1 y1 = some visited) ∧
      drawLine x0 y0 x1 y1 color = visited.flatMap (dotAt color) :=
  drawLine_straight color (by omega) (by omega)

/-- Upwards and to the right, steep, and from beyond the left edge of the screen. -/
theorem drawLine_visits_steep :
    ∃ visited, Visits (-3) 5 4 (-20) visited ∧
      (∀ turns, visited.length ≤ turns → lineVisits turns (-3) 5 4 (-20) = some visited) ∧
      drawLine (-3) 5 4 (-20) 0 = visited.flatMap (dotAt 0) :=
  drawLine_visits (-3) 5 4 (-20) 0 (by decide) (by decide) (by decide) (by decide)

end Gui
end UefiBoot
