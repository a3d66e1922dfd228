import UefiBoot.Lib.CString

/-!
# `User.Sdk` — `SdkLibcStrcmp` and `SdkLibmSqrt`

Two loops of the SDK. `SdkLibcStrcmp` stops where the strings fork and subtracts the bytes there as plain `char`,
which is signed: it orders two strings as C does exactly when the two bytes are on the same side of 128
(`strcmp_correct_iff`).

`SdkLibmSqrt` counts up while the next square is not above the value. The squares are 64-bit products, and the
first that does not fit is that of 2 ^ 32, which wraps to zero: the loop is correct exactly for the values below the
square of 2 ^ 32 - 1 (`sqrt_correct_iff`).
-/

namespace UefiBoot
namespace Sdk

open Lib (CString Traced)
open Lib.CString (Read)

/-! ## `SdkLibcStrcmp` -/

/-- A plain `char` as a number. -/
def charValue (x : UInt8) : Int32 := x.toInt8.toInt32

/-- The loop and what is returned behind it, for one position. -/
def strcmpTurn (left right : CString) (i : Nat) : Traced Read (Option Int32) := do
  let x ← left.read i
  let y ← right.read i
  if x ≠ 0 ∧ y ≠ 0 ∧ x = y then
    pure none
  else
    pure (some (charValue x - charValue y))

/-- `SdkLibcStrcmp`, for at most `turns` turns of the loop. -/
def sdkLibcStrcmp (left right : Option CString) (turns : Nat) : Traced Read (Option Int32) :=
  match left, right with
  | some left, some right => Traced.search (strcmpTurn left right) 0 turns
  | none, none            => pure (some 0)
  | some _, none          => pure (some 1)
  | none, some _          => pure (some (-1))

variable {a b : CString} {turns i : Nat}

theorem value_strcmpTurn :
    (strcmpTurn a b i).value =
      if a.byte i ≠ 0 ∧ b.byte i ≠ 0 ∧ a.byte i = b.byte i then none
      else some (charValue (a.byte i) - charValue (b.byte i)) := by
  unfold strcmpTurn
  rw [Traced.value_bind, Traced.value_bind, CString.value_read, CString.value_read]
  split <;> rfl

theorem strcmpTurn_before (h : i < CString.fork a b) : (strcmpTurn a b i).value = none := by
  obtain ⟨hne, heq⟩ := CString.before_fork h
  rw [value_strcmpTurn, if_pos ⟨hne, heq ▸ hne, heq⟩]

theorem strcmpTurn_fork :
    (strcmpTurn a b (CString.fork a b)).value =
      some (charValue (a.byte (CString.fork a b)) - charValue (b.byte (CString.fork a b))) := by
  rw [value_strcmpTurn, if_neg]
  rintro ⟨hne, -, heq⟩
  exact (CString.fork_spec a b).elim hne fun h => h heq

/-- **What is returned** is the difference of the bytes at the fork. -/
theorem value_sdkLibcStrcmp (hturns : CString.fork a b < turns) :
    (sdkLibcStrcmp (some a) (some b) turns).value =
      some (charValue (a.byte (CString.fork a b)) - charValue (b.byte (CString.fork a b))) := by
  apply Traced.search_eq_some_iff.mpr
  exact ⟨CString.fork a b, Nat.zero_le _, by omega, strcmpTurn_fork, fun k _ hk => strcmpTurn_before hk⟩

/-- No number of turns gives another result. -/
theorem value_sdkLibcStrcmp_unique {r : Int32} (h : (sdkLibcStrcmp (some a) (some b) turns).value = some r) :
    r = charValue (a.byte (CString.fork a b)) - charValue (b.byte (CString.fork a b)) := by
  obtain ⟨j, -, -, hj, hbefore⟩ := Traced.search_eq_some_iff.mp h
  rcases Nat.lt_trichotomy j (CString.fork a b) with hlt | rfl | hgt
  · rw [strcmpTurn_before hlt] at hj
    cases hj
  · rw [strcmpTurn_fork] at hj
    exact (Option.some.inj hj).symm
  · have hstop := hbefore _ (Nat.zero_le _) hgt
    rw [strcmpTurn_fork] at hstop
    cases hstop

/-- Nothing behind either terminator is read. -/
theorem sdkLibcStrcmp_inBounds (a b : CString) (turns : Nat) :
    (sdkLibcStrcmp (some a) (some b) turns).All Read.InBounds := by
  unfold sdkLibcStrcmp
  dsimp only
  rw [Traced.all_search_iff]
  intro j _ _ hbefore
  -- the fork is the last position that is looked at
  have hj : j ≤ CString.fork a b := by
    by_contra hlt
    have hstop := hbefore (CString.fork a b) (Nat.zero_le _) (Nat.not_le.mp hlt)
    rw [strcmpTurn_fork] at hstop
    exact absurd hstop (by simp)
  unfold strcmpTurn
  rw [Traced.all_bind, Traced.all_bind, CString.all_read, CString.all_read]
  refine ⟨hj.trans (CString.fork_le_left a b), hj.trans (CString.fork_le_right a b), ?_⟩
  split <;> exact Traced.all_pure _

/-- The value of a `char`. -/
theorem toInt_charValue (x : UInt8) :
    (charValue x).toInt = if x.toNat < 128 then (x.toNat : Int) else (x.toNat : Int) - 256 := by
  unfold charValue
  rw [Int8.toInt_toInt32]
  show x.toBitVec.toInt = _
  rw [BitVec.toInt_eq_toNat_cond]
  have hnat : x.toBitVec.toNat = x.toNat := rfl
  rw [hnat]
  by_cases h : x.toNat < 128
  · rw [if_pos (by omega), if_pos h]
  · rw [if_neg (by omega), if_neg h]
    rfl

theorem toInt_charValue_sub (x y : UInt8) :
    (charValue x - charValue y).toInt = (charValue x).toInt - (charValue y).toInt := by
  have hx := x.toNat_lt
  have hy := y.toNat_lt
  rw [Int32.toInt_sub, toInt_charValue, toInt_charValue]
  apply Int.bmod_eq_of_le
  · split <;> split <;> omega
  · split <;> split <;> omega

/-- The comparison returns, its sign is that of the order of the strings as bytes, and nothing behind the terminators
    is read. -/
def StrcmpCorrect (a b : CString) : Prop :=
  ∃ turns r, (sdkLibcStrcmp (some a) (some b) turns).value = some r ∧
    (r.toInt < 0 ↔ a.content < b.content) ∧ (r.toInt = 0 ↔ a.content = b.content) ∧
    (0 < r.toInt ↔ b.content < a.content) ∧
    (sdkLibcStrcmp (some a) (some b) turns).All Read.InBounds

/-- The fork does not depend on the order of the strings. -/
theorem fork_comm (a b : CString) : CString.fork b a = CString.fork a b := by
  apply CString.fork_eq
  · intro k hk
    obtain ⟨hne, heq⟩ := CString.before_fork hk
    exact ⟨heq ▸ hne, heq.symm⟩
  · by_cases heq : a.byte (CString.fork a b) = b.byte (CString.fork a b)
    · exact Or.inl (heq ▸ (CString.fork_spec a b).resolve_right fun hne => hne heq)
    · exact Or.inr (Ne.symm heq)

/-- Subtracting signed bytes orders them as unsigned ones when both are on the same side of 128, and only then. -/
theorem charValue_order_iff (x y : UInt8) :
    (((charValue x - charValue y).toInt < 0 ↔ x < y) ∧ ((charValue x - charValue y).toInt = 0 ↔ x = y) ∧
      (0 < (charValue x - charValue y).toInt ↔ y < x)) ↔ (x < 128 ↔ y < 128) := by
  have hx := x.toNat_lt
  have hy := y.toNat_lt
  have hhalf : (128 : UInt8).toNat = 128 := rfl
  rw [toInt_charValue_sub, toInt_charValue, toInt_charValue, ← UInt8.toNat_inj, UInt8.lt_iff_toNat_lt,
    UInt8.lt_iff_toNat_lt, UInt8.lt_iff_toNat_lt, UInt8.lt_iff_toNat_lt, hhalf]
  by_cases hlow : x.toNat < 128
  · by_cases hlow' : y.toNat < 128
    · rw [if_pos hlow, if_pos hlow']
      omega
    · rw [if_pos hlow, if_neg hlow']
      omega
  · by_cases hlow' : y.toNat < 128
    · rw [if_neg hlow, if_pos hlow']
      omega
    · rw [if_neg hlow, if_neg hlow']
      omega

/-- The order of two strings is that of the bytes at their fork. -/
theorem order_iff (a b : CString) {r : Int32} (hr : r = charValue (a.byte (CString.fork a b)) -
    charValue (b.byte (CString.fork a b))) :
    ((r.toInt < 0 ↔ a.content < b.content) ∧ (r.toInt = 0 ↔ a.content = b.content) ∧
      (0 < r.toInt ↔ b.content < a.content)) ↔
      (a.byte (CString.fork a b) < 128 ↔ b.byte (CString.fork a b) < 128) := by
  have hgt : b.content < a.content ↔ b.byte (CString.fork a b) < a.byte (CString.fork a b) := by
    rw [CString.content_lt_iff, fork_comm]
  rw [hr, CString.content_lt_iff, CString.content_eq_iff, hgt]
  exact charValue_order_iff _ _

theorem sameSide_of_correct {a b : CString} (h : StrcmpCorrect a b) :
    a.byte (CString.fork a b) < 128 ↔ b.byte (CString.fork a b) < 128 := by
  obtain ⟨turns, r, hr, hneg, hzero, hpos, -⟩ := h
  exact (order_iff a b (value_sdkLibcStrcmp_unique hr)).mp ⟨hneg, hzero, hpos⟩

/-- **The exact condition**: at the fork, both bytes are below 128 or both are not. -/
theorem strcmp_correct_iff (a b : CString) :
    StrcmpCorrect a b ↔ (a.byte (CString.fork a b) < 128 ↔ b.byte (CString.fork a b) < 128) := by
  constructor
  · exact sameSide_of_correct
  · intro hside
    obtain ⟨hneg, hzero, hpos⟩ := (order_iff a b rfl).mpr hside
    exact ⟨CString.fork a b + 1, _, value_sdkLibcStrcmp (Nat.lt_succ_self _), hneg, hzero, hpos,
      sdkLibcStrcmp_inBounds a b _⟩

/-- `"a"` against a string that starts with the byte 128. -/
theorem strcmp_not_correct :
    ¬ ∀ a b : CString, StrcmpCorrect a b := by
  intro h
  have hsame := sameSide_of_correct (h (CString.ofBytes [0x61]) (CString.ofBytes [0x80]))
  have hfork : CString.fork (CString.ofBytes [0x61]) (CString.ofBytes [0x80]) = 0 := by
    apply CString.fork_eq
    · intro k hk
      omega
    · exact Or.inr (by decide)
  rw [hfork] at hsame
  exact absurd (hsame.mp (by decide)) (by decide)

/-! ## `SdkLibmSqrt` -/

/-- `while ((result + 1) * (result + 1) <= value) result++;`, for the turn at which `result` has been raised `i` times.
    The factor of the product is logged. -/
def sqrtTurn (value : UInt64) (i : Nat) : Traced UInt64 (Option UInt64) := do
  let result := UInt64.ofNat i
  Traced.emit (result + 1)
  if (result + 1) * (result + 1) ≤ value then
    pure none
  else
    pure (some result)

/-- `SdkLibmSqrt`, for at most `turns` tests of the loop. -/
def sdkLibmSqrt (value : UInt64) (turns : Nat) : Traced UInt64 (Option UInt64) :=
  Traced.search (sqrtTurn value) 0 turns

/-- The square fits in 64 bits. -/
def SquareFits (x : UInt64) : Prop := x.toNat * x.toNat < 2 ^ 64

/-- The loop ends, with the integer square root, and no square wraps. -/
def SqrtCorrect (value : UInt64) : Prop :=
  ∃ turns r, (sdkLibmSqrt value turns).value = some r ∧ r.toNat * r.toNat ≤ value.toNat ∧
    value.toNat < (r.toNat + 1) * (r.toNat + 1) ∧ (sdkLibmSqrt value turns).All SquareFits

variable {value : UInt64}

theorem value_sqrtTurn (value : UInt64) (i : Nat) :
    (sqrtTurn value i).value =
      if (UInt64.ofNat i + 1) * (UInt64.ofNat i + 1) ≤ value then none else some (UInt64.ofNat i) := by
  unfold sqrtTurn
  rw [Traced.value_bind]
  split <;> rfl

/-- Below 2 ^ 32 the factors are what they seem. -/
theorem toNat_square {i : Nat} (hi : i + 1 < 2 ^ 32) :
    ((UInt64.ofNat i + 1) * (UInt64.ofNat i + 1)).toNat = (i + 1) * (i + 1) := by
  have hone : (1 : UInt64).toNat = 1 := rfl
  have hlt : (i + 1) * (i + 1) < 2 ^ 32 * 2 ^ 32 := Nat.mul_lt_mul_of_lt_of_lt hi hi
  rw [UInt64.toNat_mul, UInt64.toNat_add, UInt64.toNat_ofNat', hone, Nat.mod_eq_of_lt (a := i) (by omega),
    Nat.mod_eq_of_lt (a := i + 1) (by omega), Nat.mod_eq_of_lt (by omega)]

/-- The square of 2 ^ 32 is zero, so the loop passes it for every value. -/
theorem sqrtTurn_wraps (value : UInt64) {r : UInt64} (hr : r.toNat = 2 ^ 32 - 1) : (r + 1) * (r + 1) ≤ value := by
  have hone : (1 : UInt64).toNat = 1 := rfl
  have hzero : ((r + 1) * (r + 1)).toNat = 0 := by
    rw [UInt64.toNat_mul, UInt64.toNat_add, hone, hr]
    rfl
  rw [UInt64.le_iff_toNat_le, hzero]
  exact Nat.zero_le _

/-- A root below 2 ^ 32 - 1 ends the loop, and the turns before it do not. -/
theorem sqrtTurn_root {r : Nat} (hr : r + 1 < 2 ^ 32) (hle : r * r ≤ value.toNat)
    (hlt : value.toNat < (r + 1) * (r + 1)) :
    (sqrtTurn value r).value = some (UInt64.ofNat r) ∧ ∀ k < r, (sqrtTurn value k).value = none := by
  constructor
  · rw [value_sqrtTurn, if_neg]
    rw [UInt64.le_iff_toNat_le, toNat_square hr]
    omega
  · intro k hk
    rw [value_sqrtTurn, if_pos]
    rw [UInt64.le_iff_toNat_le, toNat_square (by omega)]
    exact (Nat.mul_le_mul hk hk).trans hle

/-- **The exact condition**: the value is below the square of 2 ^ 32 - 1. -/
theorem sqrt_correct_iff (value : UInt64) :
    SqrtCorrect value ↔ value.toNat < (2 ^ 32 - 1) * (2 ^ 32 - 1) := by
  constructor
  · rintro ⟨turns, r, hvalue, hle, hlt, -⟩
    by_contra hbig
    -- the root is 2 ^ 32 - 1, at which the loop does not stop
    have hr : r.toNat = 2 ^ 32 - 1 := by
      have hvlt := value.toNat_lt
      have hupper : r.toNat < 2 ^ 32 := by
        by_contra hge
        have hmul := Nat.mul_le_mul (Nat.not_lt.mp hge) (Nat.not_lt.mp hge)
        omega
      have hlower : 2 ^ 32 - 1 ≤ r.toNat := by
        by_contra hge
        have hsucc : r.toNat + 1 ≤ 2 ^ 32 - 1 := by omega
        have hmul := Nat.mul_le_mul hsucc hsucc
        omega
      omega
    obtain ⟨j, -, -, hj, -⟩ := Traced.search_eq_some_iff.mp hvalue
    rw [value_sqrtTurn] at hj
    split at hj
    · cases hj
    · next hstop =>
        cases hj
        exact hstop (sqrtTurn_wraps value hr)
  · intro hsmall
    have hle := Nat.sqrt_le value.toNat
    have hlt := Nat.lt_succ_sqrt value.toNat
    have hroot : Nat.sqrt value.toNat < 2 ^ 32 - 1 := Nat.sqrt_lt.mpr hsmall
    generalize Nat.sqrt value.toNat = r at hle hlt hroot
    obtain ⟨hstop, hbefore⟩ := sqrtTurn_root (by omega : r + 1 < 2 ^ 32) hle hlt
    have hnat : (UInt64.ofNat r).toNat = r := by
      rw [UInt64.toNat_ofNat', Nat.mod_eq_of_lt (by omega)]
    refine ⟨r + 1, UInt64.ofNat r, ?_, by rwa [hnat], by rwa [hnat], ?_⟩
    · apply Traced.search_eq_some_iff.mpr
      exact ⟨r, Nat.zero_le _, by omega, hstop, fun k _ hk => hbefore k hk⟩
    · unfold sdkLibmSqrt
      rw [Traced.all_search_iff]
      intro j _ hj _
      unfold sqrtTurn
      rw [Traced.all_bind, Traced.all_emit]
      refine ⟨?_, by split <;> exact Traced.all_pure _⟩
      have hone : (1 : UInt64).toNat = 1 := rfl
      have hmul : (j + 1) * (j + 1) < 2 ^ 32 * 2 ^ 32 := Nat.mul_lt_mul_of_lt_of_lt (by omega) (by omega)
      unfold SquareFits
      rw [UInt64.toNat_add, UInt64.toNat_ofNat', hone, Nat.mod_eq_of_lt (a := j) (by omega),
        Nat.mod_eq_of_lt (a := j + 1) (by omega)]
      omega

/-- For the largest value the loop never ends. -/
theorem sqrt_max_never (turns : Nat) : (sdkLibmSqrt 0xFFFFFFFFFFFFFFFF turns).value = none := by
  unfold sdkLibmSqrt
  rw [Traced.search_eq_none_iff]
  intro j _ _
  rw [value_sqrtTurn, if_pos]
  rw [UInt64.le_iff_toNat_le]
  have hmax : (0xFFFFFFFFFFFFFFFF : UInt64).toNat = 2 ^ 64 - 1 := rfl
  rw [hmax]
  exact Nat.le_pred_of_lt (UInt64.toNat_lt _)

theorem sqrt_not_correct : ¬ ∀ value, SqrtCorrect value := by
  intro h
  obtain ⟨turns, r, hvalue, -⟩ := h 0xFFFFFFFFFFFFFFFF
  rw [sqrt_max_never] at hvalue
  cases hvalue

end Sdk
end UefiBoot
