import Mathlib

/-!
# `Lib.Boxes` — boxes in a plane

A box is the product of two half-open intervals, of any two orders. What two boxes have in common is a box
(`box_inter_box`). What is in one or the other need not be one, and `boxHull` adds what is missing: it is a closure
operator that leaves boxes alone (`isClosed_box`), and around two boxes with points it is the box from the lesser of the
lower edges to the greater of the upper ones (`boxHull_union_box`). The laws of a join come with the closure operator.
-/

namespace Lib

variable {α β : Type*}

section Preorder

variable [Preorder α] [Preorder β]

/-- The points from the edges `a` and `c` on that lie before the edges `b` and `d`. -/
def box (a b : α) (c d : β) : Set (α × β) := Set.Ico a b ×ˢ Set.Ico c d

variable {a b : α} {c d : β} {p : α × β}

theorem mem_box : p ∈ box a b c d ↔ (a ≤ p.1 ∧ p.1 < b) ∧ c ≤ p.2 ∧ p.2 < d := Iff.rfl

theorem box_empty (h : ¬ a < b ∨ ¬ c < d) : box a b c d = ∅ := by
  unfold box
  rcases h with hab | hcd
  · rw [Set.Ico_eq_empty hab, Set.empty_prod]
  · rw [Set.Ico_eq_empty hcd, Set.prod_empty]

/-- A point has points of the set on either side of it, in both coordinates. -/
structure Between (s : Set (α × β)) (p : α × β) : Prop where
  left  : ∃ q ∈ s, q.1 ≤ p.1
  right : ∃ q ∈ s, p.1 ≤ q.1
  below : ∃ q ∈ s, q.2 ≤ p.2
  above : ∃ q ∈ s, p.2 ≤ q.2

theorem Between.trans {s t : Set (α × β)} (hst : ∀ q ∈ s, Between t q) (h : Between s p) : Between t p := by
  constructor
  · obtain ⟨q, hq, hle⟩ := h.left
    obtain ⟨r, hr, hle'⟩ := (hst q hq).left
    exact ⟨r, hr, hle'.trans hle⟩
  · obtain ⟨q, hq, hle⟩ := h.right
    obtain ⟨r, hr, hle'⟩ := (hst q hq).right
    exact ⟨r, hr, hle.trans hle'⟩
  · obtain ⟨q, hq, hle⟩ := h.below
    obtain ⟨r, hr, hle'⟩ := (hst q hq).below
    exact ⟨r, hr, hle'.trans hle⟩
  · obtain ⟨q, hq, hle⟩ := h.above
    obtain ⟨r, hr, hle'⟩ := (hst q hq).above
    exact ⟨r, hr, hle.trans hle'⟩

/-- All that lies between points of a set. -/
def boxHull : ClosureOperator (Set (α × β)) :=
  ClosureOperator.mk₂ (fun s => {p | Between s p})
    (fun _ p hp => ⟨⟨p, hp, le_rfl⟩, ⟨p, hp, le_rfl⟩, ⟨p, hp, le_rfl⟩, ⟨p, hp, le_rfl⟩⟩)
    fun _ _ hst _ hp => Between.trans (fun _ hq => hst hq) hp

/-- There is nothing between the points of a box but the box. -/
theorem boxHull_box : boxHull (box a b c d) = box a b c d := by
  refine subset_antisymm (fun p hp => ?_) (boxHull.le_closure _)
  obtain ⟨q, hq, hleft⟩ := hp.left
  obtain ⟨r, hr, hright⟩ := hp.right
  obtain ⟨u, hu, hbelow⟩ := hp.below
  obtain ⟨v, hv, habove⟩ := hp.above
  exact ⟨⟨hq.1.1.trans hleft, hright.trans_lt hr.1.2⟩, hu.2.1.trans hbelow, habove.trans_lt hv.2.2⟩

theorem isClosed_box : boxHull.IsClosed (box a b c d) := boxHull.isClosed_iff.mpr boxHull_box

end Preorder

section LinearOrder

variable [LinearOrder α] [LinearOrder β] {a b a' b' : α} {c d c' d' : β}

theorem box_inter_box :
    box a b c d ∩ box a' b' c' d' = box (max a a') (min b b') (max c c') (min d d') := by
  unfold box
  rw [Set.prod_inter_prod, Set.Ico_inter_Ico, Set.Ico_inter_Ico]

/-- A box with points has points on the lower side of everything behind its lower edges, and on the upper side of
    everything before its upper ones. -/
theorem box_sides (hab : a < b) (hcd : c < d) (p : α × β) :
    (a ≤ p.1 → ∃ q ∈ box a b c d, q.1 ≤ p.1) ∧ (p.1 < b → ∃ q ∈ box a b c d, p.1 ≤ q.1) ∧
      (c ≤ p.2 → ∃ q ∈ box a b c d, q.2 ≤ p.2) ∧ (p.2 < d → ∃ q ∈ box a b c d, p.2 ≤ q.2) := by
  have hcorner : (a, c) ∈ box a b c d := ⟨⟨le_rfl, hab⟩, le_rfl, hcd⟩
  refine ⟨fun h => ⟨_, hcorner, h⟩, fun h => ?_, fun h => ⟨_, hcorner, h⟩, fun h => ?_⟩
  · exact ⟨(max a p.1, c), ⟨⟨le_max_left _ _, max_lt hab h⟩, le_rfl, hcd⟩, le_max_right _ _⟩
  · exact ⟨(a, max c p.2), ⟨⟨le_rfl, hab⟩, le_max_left _ _, max_lt hcd h⟩, le_max_right _ _⟩

/-- **The hull of two boxes** that have points. -/
theorem boxHull_union_box (hab : a < b) (hcd : c < d) (hab' : a' < b') (hcd' : c' < d') :
    boxHull (box a b c d ∪ box a' b' c' d') = box (min a a') (max b b') (min c c') (max d d') := by
  apply subset_antisymm
  · refine ClosureOperator.closure_min (Set.union_subset ?_ ?_) isClosed_box
    · exact Set.prod_mono (Set.Ico_subset_Ico (min_le_left _ _) (le_max_left _ _))
        (Set.Ico_subset_Ico (min_le_left _ _) (le_max_left _ _))
    · exact Set.prod_mono (Set.Ico_subset_Ico (min_le_right _ _) (le_max_right _ _))
        (Set.Ico_subset_Ico (min_le_right _ _) (le_max_right _ _))
  · rintro p ⟨⟨hleft, hright⟩, hbelow, habove⟩
    obtain ⟨hl, hr, hb, ha⟩ := box_sides hab hcd p
    obtain ⟨hl', hr', hb', ha'⟩ := box_sides hab' hcd' p
    -- on each side one of the two boxes reaches as far as the point
    have hside : ∀ {P : α × β → Prop}, (∃ q ∈ box a b c d, P q) ∨ (∃ q ∈ box a' b' c' d', P q) →
        ∃ q ∈ box a b c d ∪ box a' b' c' d', P q := by
      rintro P (⟨q, hq, hP⟩ | ⟨q, hq, hP⟩)
      · exact ⟨q, Or.inl hq, hP⟩
      · exact ⟨q, Or.inr hq, hP⟩
    exact ⟨hside ((min_le_iff.mp hleft).imp hl hl'), hside ((lt_max_iff.mp hright).imp hr hr'),
      hside ((min_le_iff.mp hbelow).imp hb hb'), hside ((lt_max_iff.mp habove).imp ha ha')⟩

end LinearOrder

end Lib
