import Mathlib.Tactic

/-!
# `Lib.BitFields` — numbers as rows of bit fields

`bits n lo len` is the number in bits `lo`, …, `lo + len - 1` of `n`, the way hardware manuals name the fields of a
descriptor. `pack` puts fields one above the other, from bit 0 up, and every field can be read back where it lies
(`bits_pack`), also in part (`bits_bits`); neighbouring fields join (`bits_join`).

The rest is what masks and shifts of a program do: a mask over consecutive ones keeps a field in its place
(`and_mask`), and an `or` with something shifted past the bits that are set is an addition (`or_shiftLeft`).
-/

namespace Lib

/-- Bits `lo`, …, `lo + len - 1`. -/
def bits (n lo len : Nat) : Nat := n / 2 ^ lo % 2 ^ len

/-- A number and the number of bits it is given. -/
structure BitField where
  width : Nat
  value : Nat

namespace BitField

/-- The fields one above the other, from bit 0 up; what does not fit into a field is cut off. -/
def pack : List BitField → Nat
  | []      => 0
  | f :: fs => f.value % 2 ^ f.width + 2 ^ f.width * pack fs

/-- Where field `i` starts. -/
def offset (fs : List BitField) (i : Nat) : Nat := ((fs.take i).map width).sum

/-- **Every field can be read back.** -/
theorem bits_pack (fs : List BitField) (i : Nat) (hi : i < fs.length) :
    bits (pack fs) (offset fs i) fs[i].width = fs[i].value % 2 ^ fs[i].width := by
  induction fs generalizing i with
  | nil => exact absurd hi (Nat.not_lt_zero i)
  | cons f fs ih =>
      have hpos : 0 < 2 ^ f.width := Nat.two_pow_pos f.width
      have hlt : f.value % 2 ^ f.width < 2 ^ f.width := Nat.mod_lt _ hpos
      cases i with
      | zero =>
          show (f.value % 2 ^ f.width + 2 ^ f.width * pack fs) / 2 ^ 0 % 2 ^ f.width = f.value % 2 ^ f.width
          rw [pow_zero, Nat.div_one, Nat.add_mul_mod_self_left, Nat.mod_mod]
      | succ i =>
          -- dividing by the first field's width leaves the fields above it
          have hrest : pack (f :: fs) / 2 ^ f.width = pack fs := by
            show (f.value % 2 ^ f.width + 2 ^ f.width * pack fs) / 2 ^ f.width = pack fs
            rw [Nat.add_mul_div_left _ _ hpos, Nat.div_eq_of_lt hlt, Nat.zero_add]
          have hoff : offset (f :: fs) (i + 1) = f.width + offset fs i := rfl
          have hlen : i < fs.length := Nat.lt_of_succ_lt_succ hi
          have hbelow : bits (pack (f :: fs)) (offset (f :: fs) (i + 1)) fs[i].width =
              bits (pack fs) (offset fs i) fs[i].width := by
            unfold bits
            rw [hoff, pow_add, ← Nat.div_div_eq_div_mul, hrest]
          exact hbelow.trans (ih i hlen)

end BitField

variable {n lo len k w a b v : Nat}

theorem bits_lt (n lo len : Nat) : bits n lo len < 2 ^ len := Nat.mod_lt _ (Nat.two_pow_pos len)

theorem bits_zero_of_lt (h : n < 2 ^ len) : bits n 0 len = n := by
  unfold bits
  rw [pow_zero, Nat.div_one, Nat.mod_eq_of_lt h]

theorem testBit_bits (n lo len i : Nat) : (bits n lo len).testBit i = (decide (i < len) && n.testBit (i + lo)) := by
  unfold bits
  rw [Nat.testBit_mod_two_pow, Nat.testBit_div_two_pow]

/-- A part of a field. -/
theorem bits_bits (h : k + len ≤ w) : bits (bits n lo w) k len = bits n (lo + k) len := by
  apply Nat.eq_of_testBit_eq
  intro i
  rw [testBit_bits, testBit_bits, testBit_bits]
  by_cases hi : i < len
  · have hw : i + k < w := by omega
    have hsum : i + k + lo = i + (lo + k) := by omega
    simp [hi, hw, hsum]
  · simp [hi]

/-- Neighbouring fields are one field. -/
theorem bits_join (n lo a b : Nat) : bits n lo a + 2 ^ a * bits n (lo + a) b = bits n lo (a + b) := by
  unfold bits
  rw [pow_add 2 lo a, ← Nat.div_div_eq_div_mul, pow_add 2 a b, Nat.mod_mul]

/-- A mask over `len` ones from bit `lo` on. -/
theorem and_mask (n lo len : Nat) : n &&& (2 ^ len - 1) <<< lo = bits n lo len * 2 ^ lo := by
  rw [← Nat.shiftLeft_eq]
  apply Nat.eq_of_testBit_eq
  intro i
  rw [Nat.testBit_and, Nat.testBit_shiftLeft, Nat.testBit_shiftLeft, testBit_bits, Nat.testBit_two_pow_sub_one]
  by_cases hlo : lo ≤ i
  · have hback : i - lo + lo = i := by omega
    simp only [hlo, hback, decide_true, Bool.true_and]
    exact Bool.and_comm _ _
  · simp [hlo]

/-- Setting bits above those that are set adds them. -/
theorem or_shiftLeft (h : a < 2 ^ k) (v : Nat) : a ||| v <<< k = a + v * 2 ^ k := by
  rw [Nat.or_comm, ← Nat.shiftLeft_add_eq_or_of_lt h, Nat.shiftLeft_eq, Nat.add_comm]

/-- A byte shifted inside its word does not overflow. -/
theorem toNat_shifted16 (byte : UInt8) : (byte.toUInt16 <<< 8).toNat = byte.toNat <<< 8 := by
  have hbyte := byte.toNat_lt
  have hfits : byte.toNat <<< 8 < 2 ^ 16 := by rw [Nat.shiftLeft_eq]; omega
  rw [UInt16.toNat_shiftLeft]
  exact Nat.mod_eq_of_lt hfits

/-- Two bytes, the low one first. -/
theorem toNat_pair16 (lo hi : UInt8) : (lo.toUInt16 ||| hi.toUInt16 <<< 8).toNat = lo.toNat + hi.toNat * 2 ^ 8 := by
  have hlo : lo.toNat < 2 ^ 8 := lo.toNat_lt
  rw [UInt16.toNat_or, toNat_shifted16, UInt8.toNat_toUInt16]
  exact or_shiftLeft hlo _

end Lib
