import Mathlib.Data.Nat.ModEq
import Mathlib.Tactic

/-!
# `Lib.OnesComplement` — sums with an end-around carry

Words have radix `b`, and a carry out of the top of a word is added back at its bottom. Adding like this is
adding modulo `b - 1`, except that the two words of residue zero, `0` and `b - 1`, stand for different sums:
`0` is the sum of nothing but zeros. `Reduced b n v` says that `v` is the word for the integer `n`, and there
is one such word. So any two ways of carrying give the same result, whether the carries are added back after
each addition (`sum`) or kept in a wide accumulator and added back at the end (`Reduced.carry`).
-/

namespace Lib
namespace OnesComplement

/-- The carry out of the lowest word comes back in at its bottom. -/
def carry (b n : Nat) : Nat := n % b + n / b

/-- One's complement addition of two words. -/
def add (b x y : Nat) : Nat := carry b (x + y)

/-- One's complement sum of a list of words. -/
def sum (b : Nat) (words : List Nat) : Nat := words.foldl (add b) 0

/-- `v` is the word for `n`. -/
structure Reduced (b n v : Nat) : Prop where
  lt       : v < b
  residue  : v ≡ n [MOD b - 1]
  zero_iff : v = 0 ↔ n = 0

variable {b n m v w : Nat} {words : List Nat}

/-! ## Carrying -/

theorem carry_modEq (hb : 0 < b) (n : Nat) : carry b n ≡ n [MOD b - 1] := by
  obtain ⟨c, rfl⟩ : ∃ c, b = c + 1 := ⟨b - 1, by omega⟩
  unfold carry
  rw [Nat.add_sub_cancel]
  have hn : (c + 1) * (n / (c + 1)) + n % (c + 1) = n := Nat.div_add_mod n (c + 1)
  have hsplit : n % (c + 1) + n / (c + 1) + c * (n / (c + 1)) = n := by
    rw [Nat.add_mul, Nat.one_mul] at hn
    omega
  -- a carry is worth `c + 1` where it leaves and one where it comes back
  unfold Nat.ModEq
  calc (n % (c + 1) + n / (c + 1)) % c
      = (n % (c + 1) + n / (c + 1) + c * (n / (c + 1))) % c := (Nat.add_mul_mod_self_left _ _ _).symm
    _ = n % c := by rw [hsplit]

theorem carry_zero_iff : carry b n = 0 ↔ n = 0 := by
  constructor
  · intro h
    obtain ⟨hr, hq⟩ := Nat.add_eq_zero_iff.mp h
    have hdiv := Nat.div_add_mod n b
    rw [hq, hr, Nat.mul_zero] at hdiv
    exact hdiv.symm
  · intro h
    rw [h]
    simp [carry]

theorem carry_lt_self (hb : 2 ≤ b) (h : b ≤ n) : carry b n < n := by
  unfold carry
  have hdiv := Nat.div_add_mod n b
  have hq : 0 < n / b := Nat.div_pos h (by omega)
  have hmul : 2 * (n / b) ≤ b * (n / b) := Nat.mul_le_mul_right _ hb
  omega

/-- One carry is enough after one addition. -/
theorem carry_lt (h : n + 1 < 2 * b) : carry b n < b := by
  unfold carry
  by_cases hn : n < b
  · rw [Nat.mod_eq_of_lt hn, Nat.div_eq_of_lt hn]
    omega
  · have hq : n / b = 1 := Nat.div_eq_of_lt_le (by omega) (by omega)
    have hdiv := Nat.div_add_mod n b
    rw [hq] at hdiv ⊢
    omega

/-! ## The word for an integer -/

theorem Reduced.unique (hv : Reduced b n v) (hw : Reduced b n w) : v = w := by
  have hvb := hv.lt
  have hwb := hw.lt
  have hzero : v = 0 ↔ w = 0 := hv.zero_iff.trans hw.zero_iff.symm
  have hmod : v % (b - 1) = w % (b - 1) := hv.residue.trans hw.residue.symm
  by_cases hz : v = 0
  · rw [hz, hzero.mp hz]
  · have hz' : w ≠ 0 := fun h => hz (hzero.mpr h)
    -- both lie in `[1, b - 1]`, where a residue occurs once
    rcases Nat.lt_or_ge v (b - 1) with hlt | hge
    · rw [Nat.mod_eq_of_lt hlt] at hmod
      rcases Nat.lt_or_ge w (b - 1) with hlt' | hge'
      · rw [Nat.mod_eq_of_lt hlt'] at hmod
        exact hmod
      · rw [show w = b - 1 by omega, Nat.mod_self] at hmod
        exact absurd hmod hz
    · rcases Nat.lt_or_ge w (b - 1) with hlt' | hge'
      · rw [Nat.mod_eq_of_lt hlt', show v = b - 1 by omega, Nat.mod_self] at hmod
        exact absurd hmod.symm hz'
      · omega

theorem Reduced.zero (hb : 0 < b) : Reduced b 0 0 := ⟨hb, Nat.ModEq.refl 0, Iff.rfl⟩

theorem Reduced.self (h : v < b) : Reduced b v v := ⟨h, Nat.ModEq.refl v, Iff.rfl⟩

/-- Carries may be added back at any time. -/
theorem Reduced.of_carry (hb : 0 < b) (h : Reduced b (carry b n) v) : Reduced b n v :=
  ⟨h.lt, h.residue.trans (carry_modEq hb n), h.zero_iff.trans carry_zero_iff⟩

/-- **Adding a word.** -/
theorem Reduced.add (hv : Reduced b n v) (hw : w < b) : Reduced b (n + w) (OnesComplement.add b v w) := by
  have hb : 0 < b := by omega
  have hvb := hv.lt
  refine ⟨carry_lt (by omega), ?_, ?_⟩
  · exact (carry_modEq hb (v + w)).trans (hv.residue.add_right w)
  · unfold OnesComplement.add
    rw [carry_zero_iff]
    have hz := hv.zero_iff
    omega

/-- **The one's complement sum** of a list is the word for its integer sum. -/
theorem reduced_sum (hb : 0 < b) (h : ∀ w ∈ words, w < b) : Reduced b words.sum (sum b words) := by
  have hfold : ∀ n v, Reduced b n v → Reduced b (n + words.sum) (words.foldl (OnesComplement.add b) v) := by
    induction words with
    | nil =>
        intro n v hv
        exact hv
    | cons w words ih =>
        intro n v hv
        rw [List.foldl_cons, List.sum_cons, ← Nat.add_assoc]
        exact ih (fun u hu => h u (List.mem_cons_of_mem w hu)) _ _ (hv.add (h w List.mem_cons_self))
  have hsum := hfold 0 0 (Reduced.zero hb)
  rw [Nat.zero_add] at hsum
  exact hsum

/-- **The check.** Adding the complement of the word for `n` gives the word of all ones. -/
theorem Reduced.complement (hb : 2 ≤ b) (h : Reduced b n v) : Reduced b (n + (b - 1 - v)) (b - 1) := by
  have hvb := h.lt
  refine ⟨by omega, ?_, ?_⟩
  · calc b - 1 ≡ v + (b - 1 - v) [MOD b - 1] := by
          rw [Nat.add_sub_cancel' (by omega)]
      _ ≡ n + (b - 1 - v) [MOD b - 1] := h.residue.add_right _
  · have hz := h.zero_iff
    omega

end OnesComplement
end Lib
