import Mathlib.Tactic

/-!
# `Lib.Signed` — signed arithmetic that stays in range

A sum, difference, product or quotient of 32 bits is the one of the integers whenever that is a number of 32 bits. The
magnitude of a number, which a program takes by negating what is below zero, is the one of the integer in any width.
`checked` and the operations below it give nothing where the result does not fit, as in a language that does not define
what happens then.
-/

namespace Lib

variable {a b : Int32} {v : Int}

theorem bmod_of_range (hlow : -2 ^ 31 ≤ v) (hhigh : v < 2 ^ 31) : v.bmod (2 ^ 32) = v := by
  apply Int.bmod_eq_of_le <;> omega

theorem toInt_add_of_range (hlow : -2 ^ 31 ≤ a.toInt + b.toInt) (hhigh : a.toInt + b.toInt < 2 ^ 31) :
    (a + b).toInt = a.toInt + b.toInt :=
  (Int32.toInt_add a b).trans (bmod_of_range hlow hhigh)

theorem toInt_sub_of_range (hlow : -2 ^ 31 ≤ a.toInt - b.toInt) (hhigh : a.toInt - b.toInt < 2 ^ 31) :
    (a - b).toInt = a.toInt - b.toInt :=
  (Int32.toInt_sub a b).trans (bmod_of_range hlow hhigh)

theorem toInt_mul_of_range (hlow : -2 ^ 31 ≤ a.toInt * b.toInt) (hhigh : a.toInt * b.toInt < 2 ^ 31) :
    (a * b).toInt = a.toInt * b.toInt :=
  (Int32.toInt_mul a b).trans (bmod_of_range hlow hhigh)

theorem toInt_div_of_range (hlow : -2 ^ 31 ≤ a.toInt.tdiv b.toInt) (hhigh : a.toInt.tdiv b.toInt < 2 ^ 31) :
    (a / b).toInt = a.toInt.tdiv b.toInt :=
  (Int32.toInt_div a b).trans (bmod_of_range hlow hhigh)

/-- Without a sign every magnitude has room, that of the smallest number too. -/
theorem toNat_magnitude {w : Nat} (x : BitVec w) : (if x.toInt < 0 then -x else x).toNat = x.toInt.natAbs := by
  have hcond := BitVec.toInt_eq_toNat_cond x
  have hlt := x.isLt
  by_cases hneg : x.toInt < 0
  · have hpos : 0 < x.toNat := by
      by_contra hzero
      rw [Nat.eq_zero_of_not_pos hzero, if_pos (by have := Nat.two_pow_pos w; omega)] at hcond
      omega
    rw [if_pos hneg, BitVec.toNat_neg, Nat.mod_eq_of_lt (by omega)]
    split at hcond <;> omega
  · rw [if_neg hneg]
    split at hcond <;> omega

/-! ## Arithmetic that is not defined out of range -/

/-- The number of 32 bits that has this value. -/
def checked (v : Int) : Option Int32 := if -2 ^ 31 ≤ v ∧ v < 2 ^ 31 then some (Int32.ofInt v) else none

def checkedAdd (a b : Int32) : Option Int32 := checked (a.toInt + b.toInt)
def checkedSub (a b : Int32) : Option Int32 := checked (a.toInt - b.toInt)
def checkedMul (a b : Int32) : Option Int32 := checked (a.toInt * b.toInt)

theorem checked_of_range (hlow : -2 ^ 31 ≤ v) (hhigh : v < 2 ^ 31) : ∃ c, checked v = some c ∧ c.toInt = v :=
  ⟨Int32.ofInt v, if_pos ⟨hlow, hhigh⟩, Int32.toInt_ofInt_of_le hlow hhigh⟩

theorem checked_eq_some {c : Int32} (h : checked v = some c) : c = Int32.ofInt v := by
  unfold checked at h
  split_ifs at h
  exact (Option.some.inj h).symm

variable {c : Int32}

/-- Where the result is defined, it is that of the machine. -/
theorem checkedAdd_eq_some (h : checkedAdd a b = some c) : c = a + b := by
  rw [checked_eq_some h, Int32.ofInt_add, Int32.ofInt_toInt, Int32.ofInt_toInt]

theorem checkedSub_eq_some (h : checkedSub a b = some c) : c = a - b := by
  rw [checked_eq_some h, Int32.ofInt_sub, Int32.ofInt_toInt, Int32.ofInt_toInt]

theorem checkedMul_eq_some (h : checkedMul a b = some c) : c = a * b := by
  rw [checked_eq_some h, Int32.ofInt_mul, Int32.ofInt_toInt, Int32.ofInt_toInt]

/-- An addition that is made under a condition. -/
theorem checkedAdd_if {p : Prop} [Decidable p] (h : p → -2 ^ 31 ≤ a.toInt + b.toInt ∧ a.toInt + b.toInt < 2 ^ 31) :
    ∃ c, (if p then checkedAdd a b else some a) = some c ∧ c.toInt = a.toInt + if p then b.toInt else 0 := by
  by_cases hp : p
  · rw [if_pos hp, if_pos hp]
    exact checked_of_range (h hp).1 (h hp).2
  · rw [if_neg hp, if_neg hp, Int.add_zero]
    exact ⟨a, rfl, rfl⟩

/-- A difference that is taken one way or the other. -/
theorem checkedSub_if_eq_some {p : Prop} [Decidable p]
    (h : (if p then checkedSub a b else checkedSub b a) = some c) : c = if p then a - b else b - a := by
  by_cases hp : p
  · rw [if_pos hp] at h ⊢
    exact checkedSub_eq_some h
  · rw [if_neg hp] at h ⊢
    exact checkedSub_eq_some h

theorem checkedAdd_if_eq_some {p : Prop} [Decidable p] (h : (if p then checkedAdd a b else some a) = some c) :
    c = if p then a + b else a := by
  by_cases hp : p
  · rw [if_pos hp] at h ⊢
    exact checkedAdd_eq_some h
  · rw [if_neg hp] at h ⊢
    exact (Option.some.inj h).symm

end Lib
