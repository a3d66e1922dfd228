import Mathlib.Tactic

/-!
# `Lib.Align` — rounding machine words to a power of two by masking

`v & ~(a - 1)` and `(v + a - 1) & ~(a - 1)` as C code writes them, read back as integer arithmetic:
for a power of two `a`, masking rounds down to a multiple of `a`.
-/

namespace Lib

/-- `v & ~(a - 1)`. -/
def alignDown (v a : UInt64) : UInt64 := v &&& ~~~(a - 1)

/-- `(v + a - 1) & ~(a - 1)`; the addition wraps. -/
def alignUp (v a : UInt64) : UInt64 := (v + a - 1) &&& ~~~(a - 1)

theorem alignUp_eq (v a : UInt64) : alignUp v a = alignDown (v + a - 1) a := rfl

/-! ## Words of any width -/

section BitVec

variable {w : Nat} {v a : BitVec w} {k : Nat}

/-- A word is the sum of its masked bits and the rest. -/
theorem and_add_and_not (v m : BitVec w) : (v &&& m) + (v &&& ~~~m) = v := by
  have hdisj : (v &&& m) &&& (v &&& ~~~m) = 0#w := by
    apply BitVec.eq_of_getLsbD_eq
    intro i hi
    simp only [BitVec.getLsbD_and, BitVec.getLsbD_not, BitVec.getLsbD_zero]
    cases v.getLsbD i <;> cases m.getLsbD i <;> simp
  rw [BitVec.add_eq_or_of_and_eq_zero _ _ hdisj]
  apply BitVec.eq_of_getLsbD_eq
  intro i hi
  simp only [BitVec.getLsbD_or, BitVec.getLsbD_and, BitVec.getLsbD_not, hi, decide_true, Bool.true_and]
  cases v.getLsbD i <;> cases m.getLsbD i <;> rfl

/-- The low bits under a power-of-two mask are the remainder. -/
theorem toNat_and_pred_bitVec (ha : a.toNat = 2 ^ k) : (v &&& (a - 1)).toNat = v.toNat % a.toNat := by
  have hw : 0 < w := by
    rcases Nat.eq_zero_or_pos w with rfl | hpos
    · have hlt := a.isLt
      have hpow := Nat.two_pow_pos k
      omega
    · exact hpos
  have hone : (1 : BitVec w).toNat = 1 := BitVec.toNat_one hw
  have hle : (1 : BitVec w) ≤ a := by
    rw [BitVec.le_def, hone, ha]
    exact Nat.one_le_two_pow
  rw [BitVec.toNat_and, BitVec.toNat_sub_of_le hle, hone, ha]
  exact Nat.and_two_pow_sub_one_eq_mod v.toNat k

/-- **Masking rounds down.** -/
theorem toNat_mask (ha : a.toNat = 2 ^ k) : (v &&& ~~~(a - 1)).toNat = v.toNat - v.toNat % a.toNat := by
  have hsum := congrArg BitVec.toNat (and_add_and_not v (a - 1))
  rw [BitVec.toNat_add, toNat_and_pred_bitVec ha] at hsum
  have hle : (v &&& ~~~(a - 1)).toNat ≤ v.toNat := by
    rw [BitVec.toNat_and]
    exact Nat.and_le_left
  have hmod : v.toNat % a.toNat ≤ v.toNat := Nat.mod_le _ _
  have hlt := v.isLt
  -- masked bits and rest add up without a carry
  rcases Nat.lt_or_ge (v.toNat % a.toNat + (v &&& ~~~(a - 1)).toNat) (2 ^ w) with hno | hcarry
  · rw [Nat.mod_eq_of_lt hno] at hsum
    omega
  · rw [Nat.mod_eq_sub_mod hcarry, Nat.mod_eq_of_lt (by omega)] at hsum
    omega

/-- The bit test for powers of two. -/
theorem bitVec_and_pred_eq_zero_iff : (a ≠ 0 ∧ a &&& (a - 1) = 0) ↔ ∃ k, a.toNat = 2 ^ k := by
  have hnat : (a.toNat ≠ 0 ∧ a.toNat &&& (a.toNat - 1) = 0) ↔ ∃ k, a.toNat = 2 ^ k :=
    Nat.ne_zero_and_sub_one_eq_zero_iff_isPowerOfTwo
  have hzero : (0 : BitVec w).toNat = 0 := by simp
  rw [← hnat, ne_eq, ← BitVec.toNat_inj, ← BitVec.toNat_inj, hzero, BitVec.toNat_and]
  refine and_congr_right fun hne => ?_
  have hw : 0 < w := by
    rcases Nat.eq_zero_or_pos w with rfl | hpos
    · exact absurd (Nat.lt_one_iff.mp a.isLt) hne
    · exact hpos
  have hone : (1 : BitVec w).toNat = 1 := BitVec.toNat_one hw
  rw [BitVec.toNat_sub_of_le, hone]
  rw [BitVec.le_def, hone]
  exact Nat.one_le_iff_ne_zero.mpr hne

end BitVec

/-! ## 64-bit addresses -/

theorem toNat_and_pred {v a : UInt64} {k : Nat} (ha : a.toNat = 2 ^ k) :
    (v &&& (a - 1)).toNat = v.toNat % a.toNat :=
  toNat_and_pred_bitVec (v := v.toBitVec) (a := a.toBitVec) ha

theorem and_pred_eq_zero_iff {a : UInt64} : (a ≠ 0 ∧ a &&& (a - 1) = 0) ↔ ∃ k, a.toNat = 2 ^ k := by
  rw [ne_eq, ← UInt64.toBitVec_inj, ← UInt64.toBitVec_inj]
  exact bitVec_and_pred_eq_zero_iff (a := a.toBitVec)

theorem toNat_alignDown {v a : UInt64} {k : Nat} (ha : a.toNat = 2 ^ k) :
    (alignDown v a).toNat = v.toNat - v.toNat % a.toNat :=
  toNat_mask (v := v.toBitVec) (a := a.toBitVec) ha

theorem toNat_alignDown_mod {v a : UInt64} {k : Nat} (ha : a.toNat = 2 ^ k) :
    (alignDown v a).toNat % a.toNat = 0 := by
  rw [toNat_alignDown ha]; exact Nat.sub_mod_eq_zero_of_mod_eq (Nat.mod_mod _ _).symm

/-- Rounding up is at least the value when the addition does not wrap, and less than one step above. -/
theorem toNat_alignUp_bounds {v a : UInt64} {k : Nat} (ha : a.toNat = 2 ^ k)
    (hno : v.toNat + a.toNat < 2 ^ 64) :
    v.toNat ≤ (alignUp v a).toNat ∧ (alignUp v a).toNat < v.toNat + a.toNat := by
  have hpos : 0 < a.toNat := by rw [ha]; exact Nat.two_pow_pos k
  have hadd : (v + a - 1).toNat = v.toNat + a.toNat - 1 := by
    rw [UInt64.toNat_sub_of_le, UInt64.toNat_add, Nat.mod_eq_of_lt hno]
    · rfl
    · rw [UInt64.le_iff_toNat_le, UInt64.toNat_add, Nat.mod_eq_of_lt hno]
      show 1 ≤ _
      omega
  rw [alignUp_eq, toNat_alignDown ha, hadd]
  have hmod := Nat.mod_lt (v.toNat + a.toNat - 1) hpos
  omega

end Lib
