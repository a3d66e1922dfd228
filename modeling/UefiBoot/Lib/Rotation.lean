import Mathlib.Data.Finset.Sort
import UefiBoot.Lib.Select

/-!
# `Lib.Rotation` — taking turns

Some slots of a table take turns in the order of the table, and after the last one the first follows again: `seat T m` is
the slot that has the `m`-th turn. Turns repeat after as many as there are slots (`seat_add_card`), and every slot has
exactly one in between (`seat_once`). A scan that starts behind a slot comes to the others in the order of their distance
(`pairwise_cyclicAfter`), so what it finds first is the slot that has the next turn (`pickBest_seat`).
-/

namespace Lib

/-! ## The distance to a slot -/

variable {n : Nat}

/-- How many slots a scan passes that starts behind `i` before it comes to `j`. -/
def distance (i j : Fin n) : Nat := if i < j then j.val - i.val - 1 else j.val + n - i.val - 1

theorem distance_cyclic (i : Fin n) {k : Nat} (hk : k < n) :
    distance i ⟨(i.val + (k + 1)) % n, Nat.mod_lt _ i.pos⟩ = k := by
  unfold distance
  by_cases hwrap : i.val + (k + 1) < n
  · have hmod : (i.val + (k + 1)) % n = i.val + (k + 1) := Nat.mod_eq_of_lt hwrap
    rw [if_pos (Fin.lt_def.mpr (by dsimp only; omega))]
    dsimp only
    omega
  · have hmod : (i.val + (k + 1)) % n = i.val + (k + 1) - n := by
      rw [Nat.mod_eq_sub_mod (by omega), Nat.mod_eq_of_lt (by omega)]
    rw [if_neg (fun h => by have := Fin.lt_def.mp h; dsimp only at this; omega)]
    dsimp only
    omega

/-- The scan comes to the slots in the order of their distance. -/
theorem pairwise_cyclicAfter (i : Fin n) : (cyclicAfter i).Pairwise (distance i · < distance i ·) := by
  unfold cyclicAfter
  rw [List.pairwise_map]
  refine List.pairwise_lt_range.imp_of_mem fun {a b} ha hb hab => ?_
  rw [distance_cyclic i (List.mem_range.mp ha), distance_cyclic i (List.mem_range.mp hb)]
  exact hab

/-- **What the scan finds**: an eligible slot of the largest key, if no other such slot is nearer. -/
theorem pickBest_nearest {κ : Type*} [LinearOrder κ] {ok : Fin n → Bool} {key : Fin n → κ} {i b : Fin n}
    (hok : ok b = true) (hmax : ∀ x, ok x = true → key x ≤ key b)
    (hnear : ∀ x, ok x = true → key x = key b → distance i b ≤ distance i x) :
    pickBest ok key (cyclicAfter i) = some b := by
  cases hpick : pickBest ok key (cyclicAfter i) with
  | none =>
      have hnone := pickBest_eq_none_iff.mp hpick b (mem_cyclicAfter i b)
      rw [hok] at hnone
      cases hnone
  | some c =>
      obtain ⟨hokc, pre, post, hscan, hpre, -⟩ := pickBest_eq_some hpick
      have hsame : key c = key b := le_antisymm (hmax c hokc) (pickBest_max hpick (mem_cyclicAfter i b) hok)
      have hsorted := pairwise_cyclicAfter i
      rw [hscan] at hsorted
      have hmem := mem_cyclicAfter i b
      rw [hscan, List.mem_append, List.mem_cons] at hmem
      rcases hmem with hbefore | rfl | hafter
      · -- what comes before the choice is worse
        exact absurd (hpre b hbefore hok) (by rw [hsame]; exact lt_irrefl _)
      · rfl
      · -- what comes after it is further away
        have hfar := (List.pairwise_cons.mp (List.pairwise_append.mp hsorted).2.1).1 b hafter
        exact absurd (hnear c hokc hsame) (not_le.mpr hfar)

/-- **The choice is determined** by what the slots are, without the scan: it is the nearest of the eligible slots of the
    largest key. -/
theorem pickBest_cyclicAfter_iff {κ : Type*} [LinearOrder κ] {ok : Fin n → Bool} {key : Fin n → κ} {i b : Fin n} :
    pickBest ok key (cyclicAfter i) = some b ↔
      ok b = true ∧ (∀ x, ok x = true → key x ≤ key b) ∧
        ∀ x, ok x = true → key x = key b → distance i b ≤ distance i x := by
  constructor
  · intro hpick
    obtain ⟨hok, pre, post, hscan, hpre, -⟩ := pickBest_eq_some hpick
    refine ⟨hok, fun x hx => pickBest_max hpick (mem_cyclicAfter i x) hx, fun x hx hsame => ?_⟩
    have hsorted := pairwise_cyclicAfter i
    rw [hscan] at hsorted
    have hmem := mem_cyclicAfter i x
    rw [hscan, List.mem_append, List.mem_cons] at hmem
    rcases hmem with hbefore | rfl | hafter
    · -- nothing as good comes before the choice
      exact absurd (hpre x hbefore hx) (by rw [hsame]; exact lt_irrefl _)
    · exact le_refl _
    · exact ((List.pairwise_cons.mp (List.pairwise_append.mp hsorted).2.1).1 x hafter).le
  · rintro ⟨hok, hmax, hnear⟩
    exact pickBest_nearest hok hmax hnear

/-! ## Turns -/

variable {T : Finset (Fin n)}

/-- The slot that has the `m`-th turn among `T`. -/
def seat (T : Finset (Fin n)) (hT : 0 < T.card) (m : Nat) : Fin n := T.orderEmbOfFin rfl ⟨m % T.card, Nat.mod_lt m hT⟩

variable {hT : 0 < T.card}

theorem seat_mem (m : Nat) : seat T hT m ∈ T := Finset.orderEmbOfFin_mem T rfl _

theorem seat_eq_iff {a b : Nat} : seat T hT a = seat T hT b ↔ a % T.card = b % T.card := by
  unfold seat
  rw [(T.orderEmbOfFin rfl).injective.eq_iff, Fin.ext_iff]

theorem exists_seat (hT : 0 < T.card) {i : Fin n} (hi : i ∈ T) : ∃ m < T.card, seat T hT m = i := by
  have hrange : i ∈ Set.range (T.orderEmbOfFin rfl) := by
    rw [Finset.range_orderEmbOfFin]
    exact hi
  obtain ⟨⟨m, hm⟩, rfl⟩ := hrange
  refine ⟨m, hm, ?_⟩
  unfold seat
  congr 2
  exact Nat.mod_eq_of_lt hm

/-- Turns repeat. -/
theorem seat_add_card (m : Nat) : seat T hT (m + T.card) = seat T hT m :=
  seat_eq_iff.mpr (Nat.add_mod_right m T.card)

/-- In as many turns as there are slots every slot has one. -/
theorem seat_once {i : Fin n} (hi : i ∈ T) (start : Nat) : ∃! m, m < T.card ∧ seat T hT (start + m) = i := by
  obtain ⟨a, ha, rfl⟩ := exists_seat hT hi
  have hstart := Nat.mod_lt start hT
  have hdiv := Nat.div_add_mod start T.card
  refine ⟨(a + T.card - start % T.card) % T.card, ⟨Nat.mod_lt _ hT, ?_⟩, ?_⟩
  · rw [seat_eq_iff, Nat.add_mod_mod, ← Nat.mod_add_mod,
      show start % T.card + (a + T.card - start % T.card) = a + T.card by omega, Nat.add_mod_right]
  · rintro m ⟨hm, hseat⟩
    rw [seat_eq_iff, ← Nat.mod_add_mod, Nat.mod_eq_of_lt ha] at hseat
    -- the two ways to go round: past the end of the turns or not
    by_cases hwrap : start % T.card + m < T.card
    · rw [Nat.mod_eq_of_lt hwrap] at hseat
      rw [show a + T.card - start % T.card = m + T.card by omega, Nat.add_mod_right, Nat.mod_eq_of_lt hm]
    · rw [Nat.mod_eq_sub_mod (by omega), Nat.mod_eq_of_lt (by omega)] at hseat
      rw [show a + T.card - start % T.card = m by omega, Nat.mod_eq_of_lt hm]

/-- Nobody has two turns in a row, if there are others. -/
theorem seat_succ_ne (hT : 0 < T.card) (htwo : 2 ≤ T.card) (m : Nat) : seat T hT (m + 1) ≠ seat T hT m := by
  intro h
  have hmod := seat_eq_iff.mp h
  rw [← Nat.mod_add_mod] at hmod
  by_cases hlast : m % T.card + 1 = T.card
  · rw [hlast, Nat.mod_self] at hmod
    omega
  · have hlt := Nat.mod_lt m hT
    rw [Nat.mod_eq_of_lt (by omega)] at hmod
    omega

/-- Who has the next turn is the nearest of all. -/
theorem distance_seat_le {t : Fin n} (ht : t ∈ T) (m : Nat) (hne : t ≠ seat T hT m) :
    distance (seat T hT m) (seat T hT (m + 1)) ≤ distance (seat T hT m) t := by
  obtain ⟨a, ha, rfl⟩ := exists_seat hT ht
  have hlt := Nat.mod_lt m hT
  have hne' : a ≠ m % T.card := by
    intro h
    exact hne (seat_eq_iff.mpr (by rw [h, Nat.mod_mod]))
  have hmono : ∀ p q : Nat, p % T.card < q % T.card → seat T hT p < seat T hT q := fun p q h =>
    (T.orderEmbOfFin rfl).strictMono (Fin.lt_def.mpr h)
  have hmono' : ∀ p q : Nat, p % T.card ≤ q % T.card → seat T hT p ≤ seat T hT q := fun p q h =>
    (T.orderEmbOfFin rfl).monotone (Fin.le_def.mpr h)
  have hself : a % T.card = a := Nat.mod_eq_of_lt ha
  have hbound := (seat T hT m).isLt
  unfold distance
  by_cases hlast : m % T.card + 1 = T.card
  · -- after the last turn the first slot follows
    have hnext : (m + 1) % T.card = 0 := by rw [← Nat.mod_add_mod, hlast, Nat.mod_self]
    have hbefore := hmono a m (by omega)
    have hfirst := hmono' (m + 1) a (by omega)
    have hnot : ¬ seat T hT m < seat T hT (m + 1) := not_lt.mpr (hmono' _ _ (by omega))
    rw [if_neg hnot, if_neg (not_lt.mpr hbefore.le)]
    have := Fin.le_def.mp hfirst
    omega
  · have hnext : (m + 1) % T.card = m % T.card + 1 := by
      rw [← Nat.mod_add_mod, Nat.mod_eq_of_lt (by omega)]
    have hafter := hmono m (m + 1) (by omega)
    rw [if_pos hafter]
    have hstep := Fin.lt_def.mp hafter
    by_cases hbehind : a < m % T.card
    · rw [if_neg (not_lt.mpr (hmono a m (by omega)).le)]
      have := (seat T hT (m + 1)).isLt
      omega
    · rw [if_pos (hmono m a (by omega))]
      have := Fin.le_def.mp (hmono' (m + 1) a (by omega))
      omega

/-- **Who comes next.** If all but the slot that has the turn are eligible, and no slot outside is as good, the scan
    finds the slot that has the next turn. -/
theorem pickBest_seat {κ : Type*} [LinearOrder κ] {ok : Fin n → Bool} {key : Fin n → κ} (top : κ) (htwo : 2 ≤ T.card)
    (m : Nat) (hin : ∀ x ∈ T, key x = top) (hok : ∀ x ∈ T, ok x = true ↔ x ≠ seat T hT m)
    (hout : ∀ x, x ∉ T → ok x = true → key x < top) :
    pickBest ok key (cyclicAfter (seat T hT m)) = some (seat T hT (m + 1)) := by
  have hnext := seat_succ_ne hT htwo m
  have htop : key (seat T hT (m + 1)) = top := hin _ (seat_mem _)
  refine pickBest_nearest ((hok _ (seat_mem _)).mpr hnext) (fun x hx => ?_) fun x hx hkey => ?_
  · rw [htop]
    by_cases hmem : x ∈ T
    · exact (hin x hmem).le
    · exact (hout x hmem hx).le
  · have hmem : x ∈ T := by
      by_contra hmem
      exact absurd (hout x hmem hx) (by rw [hkey, htop]; exact lt_irrefl _)
    exact distance_seat_le hmem m ((hok x hmem).mp hx)

end Lib
