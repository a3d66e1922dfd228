import Mathlib.Tactic

/-!
# `Lib.Digits` — writing a number by repeated division

A loop that divides by the base meets the digits from the last to the first; `digitsUp` is what it meets. Read
backwards it is the numeral of the number (`digitsUp_reverse`), as long as the loop has a turn for every digit.

The other way round a loop multiplies by ten and adds the next digit. In a word of fixed width it computes the value of
the numeral, `decimal`, up to a multiple of the range.
-/

namespace Lib

/-- The digits of a number, the last one first. The loop has at most `turns` turns, and the first is unconditional. -/
def digitsUp (base : Nat) : Nat → Nat → List Nat
  | 0, _         => []
  | turns + 1, n => n % base :: if n / base = 0 then [] else digitsUp base turns (n / base)

variable {base : Nat}

theorem lt_of_mem_digitsUp (hb : 1 < base) {turns n d : Nat} (h : d ∈ digitsUp base turns n) : d < base := by
  induction turns generalizing n with
  | zero => exact absurd h List.not_mem_nil
  | succ turns ih =>
    unfold digitsUp at h
    rcases List.mem_cons.mp h with rfl | h
    · exact Nat.mod_lt n (by omega)
    · split at h
      · exact absurd h List.not_mem_nil
      · exact ih h

theorem length_digitsUp_le (turns n : Nat) : (digitsUp base turns n).length ≤ turns := by
  induction turns generalizing n with
  | zero => exact Nat.le_refl 0
  | succ turns ih =>
    unfold digitsUp
    rw [List.length_cons]
    split
    · exact Nat.le_add_left 1 turns
    · exact Nat.succ_le_succ (ih (n / base))

/-- There are no more digits than the number has, whatever room is left for them. -/
theorem length_digitsUp_le_of_lt {size turns n : Nat} (h : n < base ^ (size + 1)) :
    (digitsUp base turns n).length ≤ size + 1 := by
  induction turns generalizing n size with
  | zero => exact Nat.zero_le (size + 1)
  | succ turns ih =>
    unfold digitsUp
    rw [List.length_cons]
    cases size with
    | zero =>
      rw [zero_add, pow_one] at h
      rw [if_pos (Nat.div_eq_of_lt h)]
      exact Nat.le_refl 1
    | succ size =>
      have hrest : n / base < base ^ (size + 1) := by
        apply Nat.div_lt_of_lt_mul
        rw [← pow_succ']
        exact h
      split
      · exact Nat.le_add_left 1 (size + 1)
      · exact Nat.succ_le_succ (ih hrest)

/-- **The digits read backwards are the numeral.** -/
theorem digitsUp_reverse (hb : 1 < base) {turns n : Nat} (h : n < base ^ (turns + 1)) :
    (digitsUp base (turns + 1) n).reverse.map Nat.digitChar = Nat.toDigits base n := by
  induction turns generalizing n with
  | zero =>
    rw [pow_one] at h
    rw [Nat.toDigits_of_lt_base h]
    unfold digitsUp
    rw [Nat.mod_eq_of_lt h, Nat.div_eq_of_lt h]
    rfl
  | succ turns ih =>
    unfold digitsUp
    by_cases hlast : n / base = 0
    · have hlt : n < base := (Nat.div_eq_zero_iff_lt (by omega)).mp hlast
      rw [if_pos hlast, Nat.mod_eq_of_lt hlt, Nat.toDigits_of_lt_base hlt]
      rfl
    · have hle : base ≤ n := by
        by_contra hlt
        exact hlast (Nat.div_eq_of_lt (Nat.not_le.mp hlt))
      have hrest : n / base < base ^ (turns + 1) := by
        apply Nat.div_lt_of_lt_mul
        rw [pow_succ'] at h
        exact h
      rw [if_neg hlast, List.reverse_cons, List.map_append, ih hrest, Nat.toDigits_of_base_le hb hle]
      rfl

/-- The numeral of an integer: its sign, and the digits of its magnitude. -/
theorem toList_toString_int (v : Int) :
    (toString v).toList = (if v < 0 then ['-'] else []) ++ Nat.toDigits 10 v.natAbs := by
  rw [Int.toString_eq_repr, Int.repr_eq_if]
  by_cases hneg : v < 0
  · rw [if_neg (by omega), if_pos hneg, String.toList_append, Nat.toList_repr, show (-v).toNat = v.natAbs by omega]
    rfl
  · rw [if_pos (by omega), if_neg hneg, Nat.toList_repr, show v.toNat = v.natAbs by omega, List.nil_append]

/-! ## Reading -/

/-- The value of a row of decimal digits, as characters. -/
def decimal (digits : List UInt8) : Nat := digits.foldl (fun v c => v * 10 + (c - '0'.toUInt8).toNat) 0

theorem foldl_decimal_uint32 (digits : List UInt8) :
    digits.foldl (fun code c => code * 10 + (c - '0'.toUInt8).toUInt32) 0 = UInt32.ofNat (decimal digits) := by
  refine List.foldl_hom UInt32.ofNat fun v c => ?_
  rw [UInt32.ofNat_add, UInt32.ofNat_mul, UInt32.ofNat_uInt8ToNat]
  rfl

theorem foldl_decimal_uint64 (digits : List UInt8) :
    digits.foldl (fun code c => code * 10 + (c - '0'.toUInt8).toUInt64) 0 = UInt64.ofNat (decimal digits) := by
  refine List.foldl_hom UInt64.ofNat fun v c => ?_
  rw [UInt64.ofNat_add, UInt64.ofNat_mul, UInt64.ofNat_uInt8ToNat]
  rfl

end Lib
