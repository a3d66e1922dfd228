import UefiBoot.Lib.Boxes
import UefiBoot.Gui.Canvas

/-!
# `Gui.Rectangles` — the algebra of rectangles

Edges are unsigned and points are signed, but as long as the right and the lower edge are coordinates the points that
`PointInRect` accepts are those of a box (`points_eq_box`). `IntersectRect` then gives what two boxes have in common and
`UnionRect` what lies between their points, and the laws of the two come from `Lib.Boxes`. Rectangles without points have
edges like any other; both functions treat them apart, `UnionRect` because they would move the edges of the result.
-/

namespace UefiBoot
namespace Gui

def unionRect (a b : Rect) : Rect :=
  if rectEmpty a then b
  else if rectEmpty b then a
  else
    let ax2 := a.x + a.width
    let ay2 := a.y + a.height
    let bx2 := b.x + b.width
    let by2 := b.y + b.height
    let x1 := if a.x < b.x then a.x else b.x
    let y1 := if a.y < b.y then a.y else b.y
    let x2 := if ax2 > bx2 then ax2 else bx2
    let y2 := if ay2 > by2 then ay2 else by2
    { x := x1, y := y1, width := x2 - x1, height := y2 - y1 }

/-- The right and the lower edge are at most `INT32_MAX`. -/
structure Rect.InRange (rect : Rect) : Prop where
  right : rect.x.toNat + rect.width.toNat ≤ 2 ^ 31 - 1
  lower : rect.y.toNat + rect.height.toNat ≤ 2 ^ 31 - 1

/-- The points in a rectangle, by `PointInRect`. -/
def Rect.points (rect : Rect) : Set (Int32 × Int32) := {p | pointInRect p.1 p.2 rect = true}

/-- What the two operations are for: on points they are the intersection and the least box around both. -/
structure RectAlgebra (a b c : Rect) : Prop where
  mem_intersect   : ∀ x y, pointInRect x y (intersectRect a b) = true ↔
    pointInRect x y a = true ∧ pointInRect x y b = true
  mem_union       : ∀ x y, pointInRect x y a = true ∨ pointInRect x y b = true →
    pointInRect x y (unionRect a b) = true
  union_least     : ∀ r : Rect, a.points ⊆ r.points → b.points ⊆ r.points → (unionRect a b).points ⊆ r.points
  intersect_comm  : (intersectRect a b).points = (intersectRect b a).points
  intersect_assoc : (intersectRect (intersectRect a b) c).points = (intersectRect a (intersectRect b c)).points
  intersect_self  : (intersectRect a a).points = a.points
  union_comm      : (unionRect a b).points = (unionRect b a).points
  union_assoc     : (unionRect (unionRect a b) c).points = (unionRect a (unionRect b c)).points
  union_self      : (unionRect a a).points = a.points

/-! ## Signed coordinates -/

local instance int32LinearOrder : LinearOrder Int32 where
  le_refl := Int32.le_refl
  le_trans _ _ _ := Int32.le_trans
  lt_iff_le_not_ge _ _ := by
    rw [Int32.not_le]
    exact ⟨fun h => ⟨Int32.le_of_lt h, h⟩, fun h => h.2⟩
  le_antisymm _ _ := Int32.le_antisymm
  le_total := Int32.le_total
  toDecidableLE := inferInstance

variable {u v : UInt32}

/-- The cast keeps the order of what fits. -/
theorem toInt32_lt_iff (hu : u.toNat ≤ 2 ^ 31 - 1) (hv : v.toNat ≤ 2 ^ 31 - 1) : u.toInt32 < v.toInt32 ↔ u < v := by
  have hucast := toInt32_toInt u
  have hvcast := toInt32_toInt v
  rw [Int32.lt_iff_toInt_lt, UInt32.lt_iff_toNat_lt]
  omega

theorem toInt32_max (hu : u.toNat ≤ 2 ^ 31 - 1) (hv : v.toNat ≤ 2 ^ 31 - 1) :
    (if u > v then u else v).toInt32 = max u.toInt32 v.toInt32 := by
  by_cases h : u > v
  · rw [if_pos h, max_eq_left ((toInt32_lt_iff hv hu).mpr h).le]
  · rw [if_neg h, max_eq_right (not_lt.mp fun hlt => h ((toInt32_lt_iff hv hu).mp hlt))]

theorem toInt32_min (hu : u.toNat ≤ 2 ^ 31 - 1) (hv : v.toNat ≤ 2 ^ 31 - 1) :
    (if u < v then u else v).toInt32 = min u.toInt32 v.toInt32 := by
  by_cases h : u < v
  · rw [if_pos h, min_eq_left ((toInt32_lt_iff hu hv).mpr h).le]
  · rw [if_neg h, min_eq_right (not_lt.mp fun hlt => h ((toInt32_lt_iff hu hv).mp hlt))]

/-! ## Rectangles as boxes -/

variable {a b c rect : Rect}

/-- For any rectangle, with the edges that the casts give. -/
theorem points_eq_box (rect : Rect) :
    rect.points = Lib.box rect.x.toInt32 (rect.x + rect.width).toInt32 rect.y.toInt32 (rect.y + rect.height).toInt32 := by
  ext p
  unfold Rect.points pointInRect
  rw [Lib.mem_box]
  simp only [Set.mem_ofPred_eq, Bool.and_eq_true, decide_eq_true_eq, ge_iff_le]
  tauto

/-- A rectangle given by its edges. -/
theorem points_edges (x1 y1 x2 y2 : UInt32) :
    Rect.points { x := x1, y := y1, width := x2 - x1, height := y2 - y1 } =
      Lib.box x1.toInt32 x2.toInt32 y1.toInt32 y2.toInt32 := by
  rw [points_eq_box]
  dsimp only
  rw [UInt32.add_comm x1, UInt32.add_comm y1, UInt32.sub_add_cancel, UInt32.sub_add_cancel]

theorem points_empty (h : rectEmpty rect = true) : rect.points = ∅ := by
  unfold rectEmpty at h
  rw [Bool.or_eq_true, beq_iff_eq, beq_iff_eq] at h
  rw [points_eq_box]
  apply Lib.box_empty
  rcases h with hwidth | hheight
  · left
    rw [hwidth, UInt32.add_zero]
    exact lt_irrefl _
  · right
    rw [hheight, UInt32.add_zero]
    exact lt_irrefl _

namespace Rect.InRange

/-- The edges, as the functions compute them. -/
theorem edges (h : rect.InRange) :
    (rect.x + rect.width).toNat = rect.x.toNat + rect.width.toNat ∧
      (rect.y + rect.height).toNat = rect.y.toNat + rect.height.toNat := by
  have hright := h.right
  have hlower := h.lower
  exact ⟨toNat_add (by omega), toNat_add (by omega)⟩

/-- A rectangle that is not empty has points. -/
theorem sides (h : rect.InRange) (hsome : rectEmpty rect = false) :
    rect.x.toInt32 < (rect.x + rect.width).toInt32 ∧ rect.y.toInt32 < (rect.y + rect.height).toInt32 := by
  unfold rectEmpty at hsome
  rw [Bool.or_eq_false_iff, beq_eq_false_iff_ne, beq_eq_false_iff_ne] at hsome
  have hright := h.right
  have hlower := h.lower
  obtain ⟨hx2, hy2⟩ := h.edges
  have hwidth : rect.width.toNat ≠ 0 := fun hz => hsome.1 (UInt32.toNat_inj.mp hz)
  have hheight : rect.height.toNat ≠ 0 := fun hz => hsome.2 (UInt32.toNat_inj.mp hz)
  constructor
  · rw [toInt32_lt_iff (by omega) (by omega), UInt32.lt_iff_toNat_lt]
    omega
  · rw [toInt32_lt_iff (by omega) (by omega), UInt32.lt_iff_toNat_lt]
    omega

/-- A rectangle given by its edges. -/
theorem of_edges {x1 y1 x2 y2 : UInt32} (hx : x1 ≤ x2) (hy : y1 ≤ y2) (hx2 : x2.toNat ≤ 2 ^ 31 - 1)
    (hy2 : y2.toNat ≤ 2 ^ 31 - 1) :
    Rect.InRange { x := x1, y := y1, width := x2 - x1, height := y2 - y1 } := by
  have hwidth := UInt32.toNat_sub_of_le _ _ hx
  have hheight := UInt32.toNat_sub_of_le _ _ hy
  rw [UInt32.le_iff_toNat_le] at hx hy
  constructor
  · dsimp only
    omega
  · dsimp only
    omega

/-- **`IntersectRect` is the intersection.** -/
theorem points_intersect (ha : a.InRange) (hb : b.InRange) :
    (intersectRect a b).points = a.points ∩ b.points := by
  have har := ha.right
  have hal := ha.lower
  have hbr := hb.right
  have hbl := hb.lower
  obtain ⟨hax2, hay2⟩ := ha.edges
  obtain ⟨hbx2, hby2⟩ := hb.edges
  rw [points_eq_box a, points_eq_box b, Lib.box_inter_box, ← toInt32_max (by omega) (by omega),
    ← toInt32_max (by omega) (by omega), ← toInt32_min (by omega) (by omega), ← toInt32_min (by omega) (by omega)]
  have hx1 := toNat_max a.x b.x
  have hy1 := toNat_max a.y b.y
  have hx2 := toNat_min (a.x + a.width) (b.x + b.width)
  have hy2 := toNat_min (a.y + a.height) (b.y + b.height)
  unfold intersectRect
  dsimp only
  generalize (if a.x > b.x then a.x else b.x) = x1 at hx1 ⊢
  generalize (if a.y > b.y then a.y else b.y) = y1 at hy1 ⊢
  generalize (if a.x + a.width < b.x + b.width then a.x + a.width else b.x + b.width) = x2 at hx2 ⊢
  generalize (if a.y + a.height < b.y + b.height then a.y + a.height else b.y + b.height) = y2 at hy2 ⊢
  by_cases hempty : x2 ≤ x1 ∨ y2 ≤ y1
  · rw [if_pos hempty, points_empty rfl, Lib.box_empty]
    rw [toInt32_lt_iff (by omega) (by omega), toInt32_lt_iff (by omega) (by omega), UInt32.not_lt, UInt32.not_lt]
    exact hempty
  · rw [if_neg hempty, points_edges]

/-- **`UnionRect` is the hull.** -/
theorem points_union (ha : a.InRange) (hb : b.InRange) :
    (unionRect a b).points = Lib.boxHull (a.points ∪ b.points) := by
  unfold unionRect
  by_cases haEmpty : rectEmpty a = true
  · rw [if_pos haEmpty, points_empty haEmpty, Set.empty_union, points_eq_box b, Lib.boxHull_box]
  · rw [if_neg haEmpty]
    by_cases hbEmpty : rectEmpty b = true
    · rw [if_pos hbEmpty, points_empty hbEmpty, Set.union_empty, points_eq_box a, Lib.boxHull_box]
    · rw [if_neg hbEmpty]
      obtain ⟨hax, hay⟩ := ha.sides (Bool.eq_false_iff.mpr haEmpty)
      obtain ⟨hbx, hby⟩ := hb.sides (Bool.eq_false_iff.mpr hbEmpty)
      have har := ha.right
      have hal := ha.lower
      have hbr := hb.right
      have hbl := hb.lower
      obtain ⟨hax2, hay2⟩ := ha.edges
      obtain ⟨hbx2, hby2⟩ := hb.edges
      rw [points_eq_box a, points_eq_box b, Lib.boxHull_union_box hax hay hbx hby,
        ← toInt32_max (by omega) (by omega), ← toInt32_max (by omega) (by omega),
        ← toInt32_min (by omega) (by omega), ← toInt32_min (by omega) (by omega)]
      exact points_edges _ _ _ _

/-- The result does not end behind the first of the two. -/
theorem intersect (ha : a.InRange) (b : Rect) : (intersectRect a b).InRange := by
  have har := ha.right
  have hal := ha.lower
  obtain ⟨hax2, hay2⟩ := ha.edges
  have hx2 := toNat_min (a.x + a.width) (b.x + b.width)
  have hy2 := toNat_min (a.y + a.height) (b.y + b.height)
  unfold intersectRect
  dsimp only
  generalize (if a.x > b.x then a.x else b.x) = x1
  generalize (if a.y > b.y then a.y else b.y) = y1
  generalize (if a.x + a.width < b.x + b.width then a.x + a.width else b.x + b.width) = x2 at hx2 ⊢
  generalize (if a.y + a.height < b.y + b.height then a.y + a.height else b.y + b.height) = y2 at hy2 ⊢
  by_cases hempty : x2 ≤ x1 ∨ y2 ≤ y1
  · rw [if_pos hempty]
    exact ⟨by decide, by decide⟩
  · rw [if_neg hempty]
    rw [not_or, UInt32.not_le, UInt32.not_le] at hempty
    exact of_edges (UInt32.le_of_lt hempty.1) (UInt32.le_of_lt hempty.2) (by omega) (by omega)

theorem union (ha : a.InRange) (hb : b.InRange) : (unionRect a b).InRange := by
  unfold unionRect
  by_cases haEmpty : rectEmpty a = true
  · rw [if_pos haEmpty]
    exact hb
  · rw [if_neg haEmpty]
    by_cases hbEmpty : rectEmpty b = true
    · rw [if_pos hbEmpty]
      exact ha
    · rw [if_neg hbEmpty]
      have har := ha.right
      have hal := ha.lower
      have hbr := hb.right
      have hbl := hb.lower
      obtain ⟨hax2, hay2⟩ := ha.edges
      obtain ⟨hbx2, hby2⟩ := hb.edges
      have hx1 := toNat_min a.x b.x
      have hy1 := toNat_min a.y b.y
      have hx2 := toNat_max (a.x + a.width) (b.x + b.width)
      have hy2 := toNat_max (a.y + a.height) (b.y + b.height)
      exact of_edges (UInt32.le_iff_toNat_le.mpr (by omega)) (UInt32.le_iff_toNat_le.mpr (by omega))
        (by omega) (by omega)

end Rect.InRange

/-! ## The laws -/

open Rect.InRange

/-- **The algebra of rectangles**, whatever is empty, apart, touching or nested. -/
theorem rect_algebra (a b c : Rect) (ha : a.InRange) (hb : b.InRange) (hc : c.InRange) : RectAlgebra a b c := by
  have hinter := points_intersect ha hb
  have hunion := points_union ha hb
  constructor
  case mem_intersect =>
    intro x y
    exact Set.ext_iff.mp hinter (x, y)
  case mem_union =>
    intro x y h
    exact Set.ext_iff.mp hunion (x, y) |>.mpr (Lib.boxHull.le_closure _ h)
  case union_least =>
    intro r har hbr
    rw [hunion]
    refine ClosureOperator.closure_min (Set.union_subset har hbr) ?_
    rw [points_eq_box r]
    exact Lib.isClosed_box
  case intersect_comm => rw [hinter, points_intersect hb ha, Set.inter_comm]
  case intersect_assoc =>
    rw [points_intersect (ha.intersect b) hc, hinter, points_intersect ha (hb.intersect c), points_intersect hb hc,
      Set.inter_assoc]
  case intersect_self => rw [points_intersect ha ha, Set.inter_self]
  case union_comm => rw [hunion, points_union hb ha, Set.union_comm]
  case union_assoc =>
    -- both are the hull of all three
    rw [points_union (ha.union hb) hc, hunion, points_union ha (hb.union hc), points_union hb hc]
    calc Lib.boxHull (Lib.boxHull (a.points ∪ b.points) ∪ c.points)
        = Lib.boxHull ((a.points ∪ b.points) ∪ c.points) := Lib.boxHull.closure_sup_closure_left _ _
      _ = Lib.boxHull (a.points ∪ (b.points ∪ c.points)) := by rw [Set.union_assoc]
      _ = Lib.boxHull (a.points ∪ Lib.boxHull (b.points ∪ c.points)) :=
          (Lib.boxHull.closure_sup_closure_right _ _).symm
  case union_self => rw [points_union ha ha, Set.union_self, points_eq_box a, Lib.boxHull_box]

/-- Two rectangles that touch, the second up to `INT32_MAX`, and one without points beside them. -/
theorem rect_algebra_touching : RectAlgebra ⟨0, 10, 20, 20⟩ ⟨20, 10, 0x7FFFFFEB, 20⟩ ⟨5, 100, 0, 7⟩ :=
  rect_algebra _ _ _ ⟨by decide, by decide⟩ ⟨by decide, by decide⟩ ⟨by decide, by decide⟩

end Gui
end UefiBoot
