import Mathlib.Data.FinEnum
import Mathlib.Tactic

/-!
# `Lib.XorLinear` — bit mixing as linear algebra over GF(2)

A `w`-bit word is a vector of bits and `xor` is its addition. Shifts are linear, so the mixing steps
`x ^ (x << k)` and `x ^ (x >> k)` of hash functions and of xorshift generators are, and a linear function is
known by what it does to the `w` powers of two (`Linear.ext`).

A linear function of finite words is a bijection as soon as it sends only zero to zero, which for a mixing
step is an induction along the bits (`bijective_xorShiftLeft`, `bijective_xorShiftRight`). That a generator
`f` has no fixed point but zero needs a reason that depends on its constants: a polynomial `q` with
`q(f) · (f + 1) = 1`, which `Linear.eq_zero_of_fixed` checks on the powers of two. An odd factor is a
bijection too (`bijective_mul`), but not a linear one.
-/

namespace Lib
namespace XorLinear

variable {w : Nat} {f g : BitVec w → BitVec w}

/-- `f` respects the addition of bit vectors. -/
def Linear (f : BitVec w → BitVec w) : Prop := ∀ x y, f (x ^^^ y) = f x ^^^ f y

namespace Linear

theorem zero (h : Linear f) : f 0#w = 0#w := by
  have h0 := h 0#w 0#w
  rw [BitVec.xor_self, BitVec.xor_self] at h0
  exact h0

theorem id : Linear fun x : BitVec w => x := fun _ _ => rfl

theorem comp (hf : Linear f) (hg : Linear g) : Linear fun x => f (g x) := by
  intro x y
  dsimp only
  rw [hg, hf]

theorem xor (hf : Linear f) (hg : Linear g) : Linear fun x => f x ^^^ g x := by
  intro x y
  dsimp only
  rw [hf, hg]
  ac_rfl

theorem shiftLeft (k : Nat) : Linear fun x : BitVec w => x <<< k :=
  fun x y => BitVec.shiftLeft_xor_distrib x y k

theorem ushiftRight (k : Nat) : Linear fun x : BitVec w => x >>> k :=
  fun x y => BitVec.ushiftRight_xor_distrib x y k

/-- Linear functions that agree on the powers of two are equal. -/
theorem ext (hf : Linear f) (hg : Linear g) (h : ∀ i < w, f (BitVec.twoPow w i) = g (BitVec.twoPow w i))
    (x : BitVec w) : f x = g x := by
  have hlow : ∀ n ≤ w, ∀ x : BitVec w, (∀ i, n ≤ i → x.getLsbD i = false) → f x = g x := by
    intro n
    induction n with
    | zero =>
        intro _ x hx
        have hx0 : x = 0#w := BitVec.eq_of_getLsbD_eq fun i _ => by rw [hx i (Nat.zero_le i), BitVec.getLsbD_zero]
        rw [hx0, hf.zero, hg.zero]
    | succ n ih =>
        intro hn x hx
        by_cases hbit : x.getLsbD n = true
        · -- take the highest bit off
          have hrest : ∀ i, n ≤ i → (x ^^^ BitVec.twoPow w n).getLsbD i = false := by
            intro i hi
            rw [BitVec.getLsbD_xor, BitVec.getLsbD_twoPow]
            rcases Nat.eq_or_lt_of_le hi with rfl | hlt
            · simp [hbit, show n < w by omega]
            · simp [hx i hlt, show n ≠ i by omega]
          have hsplit : x = (x ^^^ BitVec.twoPow w n) ^^^ BitVec.twoPow w n := by
            rw [BitVec.xor_assoc, BitVec.xor_self, BitVec.xor_zero]
          rw [hsplit, hf, hg, ih (by omega) _ hrest, h n (by omega)]
        · refine ih (by omega) x fun i hi => ?_
          rcases Nat.eq_or_lt_of_le hi with rfl | hlt
          · simpa using hbit
          · exact hx i hlt
  exact hlow w (Nat.le_refl w) x fun i hi => BitVec.getLsbD_of_ge x i hi

/-- A linear function that sends only zero to zero. -/
theorem bijective (hf : Linear f) (hker : ∀ x, f x = 0#w → x = 0#w) : Function.Bijective f := by
  have hinj : Function.Injective f := by
    intro x y hxy
    have hz : f (x ^^^ y) = 0#w := by rw [hf, hxy, BitVec.xor_self]
    exact BitVec.xor_eq_zero_iff.mp (hker _ hz)
  exact Finite.injective_iff_bijective.mp hinj

end Linear

/-! ## Mixing steps -/

def xorShiftLeft (k : Nat) (x : BitVec w) : BitVec w := x ^^^ x <<< k
def xorShiftRight (k : Nat) (x : BitVec w) : BitVec w := x ^^^ x >>> k

theorem linear_xorShiftLeft (k : Nat) : Linear (xorShiftLeft (w := w) k) := Linear.id.xor (Linear.shiftLeft k)

theorem linear_xorShiftRight (k : Nat) : Linear (xorShiftRight (w := w) k) :=
  Linear.id.xor (Linear.ushiftRight k)

theorem bijective_xorShiftLeft {k : Nat} (hk : 0 < k) : Function.Bijective (xorShiftLeft (w := w) k) := by
  refine (linear_xorShiftLeft k).bijective fun x hx => ?_
  unfold xorShiftLeft at hx
  rw [BitVec.xor_eq_zero_iff] at hx
  -- every bit is the bit `k` places below it
  have hbit : ∀ n, ∀ i < n, x.getLsbD i = false := by
    intro n
    induction n with
    | zero =>
        intro i hi
        omega
    | succ n ih =>
        intro i hi
        rw [hx, BitVec.getLsbD_shiftLeft]
        by_cases hlow : i < k
        · simp [hlow]
        · rw [ih (i - k) (by omega), Bool.and_false]
  exact BitVec.eq_of_getLsbD_eq fun i _ => by rw [hbit (i + 1) i (Nat.lt_succ_self i), BitVec.getLsbD_zero]

theorem bijective_xorShiftRight {k : Nat} (hk : 0 < k) : Function.Bijective (xorShiftRight (w := w) k) := by
  refine (linear_xorShiftRight k).bijective fun x hx => ?_
  unfold xorShiftRight at hx
  rw [BitVec.xor_eq_zero_iff] at hx
  -- every bit is the bit `k` places above it
  have hbit : ∀ n, ∀ i, w ≤ i + n → x.getLsbD i = false := by
    intro n
    induction n with
    | zero =>
        intro i hi
        exact BitVec.getLsbD_of_ge x i hi
    | succ n ih =>
        intro i hi
        rw [hx, BitVec.getLsbD_ushiftRight]
        exact ih (k + i) (by omega)
  exact BitVec.eq_of_getLsbD_eq fun i _ => by rw [hbit w i (by omega), BitVec.getLsbD_zero]

/-- A factor with an inverse. -/
theorem bijective_mul {c d : BitVec w} (h : c * d = 1#w) : Function.Bijective fun x : BitVec w => x * c := by
  have hinj : Function.Injective fun x : BitVec w => x * c := by
    intro x y hxy
    have hmul : x * c * d = y * c * d := congrArg (· * d) hxy
    rwa [BitVec.mul_assoc, BitVec.mul_assoc, h, BitVec.mul_one, BitVec.mul_one] at hmul
  exact Finite.injective_iff_bijective.mp hinj

/-! ## Fixed points -/

/-- The polynomial with coefficients `q`, lowest first, at `f`. -/
def evalAt (f : BitVec w → BitVec w) : List Bool → BitVec w → BitVec w
  | [],     _ => 0#w
  | c :: q, x => (if c then x else 0#w) ^^^ evalAt f q (f x)

theorem linear_evalAt (hf : Linear f) (q : List Bool) : Linear (evalAt f q) := by
  induction q with
  | nil =>
      intro x y
      exact (BitVec.xor_self).symm
  | cons c q ih =>
      have hscale : Linear fun x : BitVec w => if c then x else 0#w := by
        intro x y
        cases c with
        | true => rfl
        | false => exact (BitVec.xor_self).symm
      exact hscale.xor (ih.comp hf)

/-- **No fixed point but zero.** `q` is an inverse of `f + 1` on the powers of two, hence everywhere. -/
theorem Linear.eq_zero_of_fixed (hf : Linear f) (q : List Bool)
    (hq : ∀ i < w, evalAt f q (f (BitVec.twoPow w i) ^^^ BitVec.twoPow w i) = BitVec.twoPow w i)
    {x : BitVec w} (hx : f x = x) : x = 0#w := by
  have hinv := ((linear_evalAt hf q).comp (hf.xor Linear.id)).ext Linear.id hq x
  rw [hx, BitVec.xor_self, (linear_evalAt hf q).zero] at hinv
  exact hinv.symm

end XorLinear
end Lib
