import UefiBoot.Lib.CString

/-!
# `Text.Strings` — `StringEquals` and `StringLength`

The kernel's source files have their own copies of these two loops, all alike. Both go through strings byte by byte
and are searches for the turn that ends them (`Traced.search`); `turns` bounds the number of turns, and `none` means
that it did not suffice.

`StringEquals` compares contents and reads nothing behind either terminator. `StringLength` counts in 32 bits: it
returns the length of every string shorter than 2 ^ 32 bytes, and for a longer one the count wraps before the
terminator is reached, so that it never returns (`stringLength_never`).
-/

namespace UefiBoot
namespace Strings

open Lib (CString Traced)
open Lib.CString (Read)

variable {a b s : CString} {turns i : Nat}

/-! ## `StringEquals` -/

/-- `while (*a && *b) { if (*a != *b) return false; … } return *a == '\0' && *b == '\0';`, for one position. -/
def stringEqualsTurn (a b : CString) (i : Nat) : Traced Read (Option Bool) := do
  let x ← a.read i
  let y ← b.read i
  if x ≠ 0 ∧ y ≠ 0 then
    if x ≠ y then
      pure (some false)
    else
      pure none
  else
    pure (some (x == 0 && y == 0))

/-- `StringEquals`; a pointer is `none` when it is null. -/
def stringEquals (a b : Option CString) (turns : Nat) : Traced Read (Option Bool) :=
  match a, b with
  | some a, some b => Traced.search (stringEqualsTurn a b) 0 turns
  | _, _           => pure (some false)

theorem value_stringEqualsTurn :
    (stringEqualsTurn a b i).value =
      if a.byte i ≠ 0 ∧ b.byte i ≠ 0 then
        if a.byte i ≠ b.byte i then some false else none
      else some (a.byte i == 0 && b.byte i == 0) := by
  unfold stringEqualsTurn
  rw [Traced.value_bind, Traced.value_bind, CString.value_read, CString.value_read]
  split
  · split <;> rfl
  · rfl

/-- The loop goes on before the fork. -/
theorem stringEqualsTurn_before (h : i < CString.fork a b) : (stringEqualsTurn a b i).value = none := by
  obtain ⟨hne, heq⟩ := CString.before_fork h
  rw [value_stringEqualsTurn, if_pos ⟨hne, heq ▸ hne⟩, if_neg (not_not.mpr heq)]

/-- At the fork it ends, with what was asked. -/
theorem stringEqualsTurn_fork :
    (stringEqualsTurn a b (CString.fork a b)).value = some (decide (a.content = b.content)) := by
  rw [value_stringEqualsTurn]
  by_cases heq : a.byte (CString.fork a b) = b.byte (CString.fork a b)
  · have hzero : a.byte (CString.fork a b) = 0 := (CString.fork_spec a b).resolve_right fun hne => hne heq
    rw [if_neg fun h => h.1 hzero, ← heq, hzero, decide_eq_true (CString.content_eq_iff.mpr heq)]
    rfl
  · rw [decide_eq_false fun h => heq (CString.content_eq_iff.mp h)]
    split
    · rfl
    · -- one string ends, the other does not
      have hone : ¬ (a.byte (CString.fork a b) = 0 ∧ b.byte (CString.fork a b) = 0) :=
        fun h => heq (h.1.trans h.2.symm)
      by_cases hzero : a.byte (CString.fork a b) = 0
      · rw [hzero, beq_false_of_ne fun h => hone ⟨hzero, h⟩]
        rfl
      · rw [beq_false_of_ne hzero]
        rfl

/-- **`StringEquals` compares contents.** -/
theorem value_stringEquals (hturns : CString.fork a b < turns) :
    (stringEquals (some a) (some b) turns).value = some (decide (a.content = b.content)) := by
  apply Traced.search_eq_some_iff.mpr
  exact ⟨CString.fork a b, Nat.zero_le _, by omega, stringEqualsTurn_fork, fun k _ hk => stringEqualsTurn_before hk⟩

theorem stringEquals_inBounds (a b : Option CString) (turns : Nat) :
    (stringEquals a b turns).All Read.InBounds := by
  unfold stringEquals
  split
  · next a b =>
      rw [Traced.all_search_iff]
      intro j _ _ hbefore
      -- a turn behind the fork is not reached
      have hj : j ≤ CString.fork a b := by
        by_contra hlt
        have hstop := hbefore (CString.fork a b) (Nat.zero_le _) (Nat.not_le.mp hlt)
        rw [stringEqualsTurn_fork] at hstop
        exact absurd hstop (by simp)
      unfold stringEqualsTurn
      rw [Traced.all_bind, Traced.all_bind, CString.all_read, CString.all_read]
      refine ⟨hj.trans (CString.fork_le_left a b), hj.trans (CString.fork_le_right a b), ?_⟩
      split
      · split <;> exact Traced.all_pure _
      · exact Traced.all_pure _
  · exact Traced.all_pure _

/-! ## `StringLength` -/

/-- `while (text[length]) length++;`, for the turn at which `length` has been raised `i` times. -/
def stringLengthTurn (s : CString) (i : Nat) : Traced Read (Option UInt32) := do
  let length := UInt32.ofNat i
  let x ← s.read length.toNat
  if x ≠ 0 then
    pure none
  else
    pure (some length)

def stringLength (s : Option CString) (turns : Nat) : Traced Read (Option UInt32) :=
  match s with
  | none   => pure (some 0)
  | some s => Traced.search (stringLengthTurn s) 0 turns

theorem value_stringLengthTurn :
    (stringLengthTurn s i).value = if s.byte (i % 2 ^ 32) ≠ 0 then none else some (UInt32.ofNat i) := by
  unfold stringLengthTurn
  rw [Traced.value_bind, CString.value_read, UInt32.toNat_ofNat']
  split <;> rfl

/-- **Strings whose length fits in 32 bits are measured.** -/
theorem value_stringLength (hlen : s.length < 2 ^ 32) (hturns : s.length < turns) :
    (stringLength (some s) turns).value = some (UInt32.ofNat s.length) := by
  apply Traced.search_eq_some_iff.mpr
  refine ⟨s.length, Nat.zero_le _, by omega, ?_, fun k _ hk => ?_⟩
  · rw [value_stringLengthTurn, Nat.mod_eq_of_lt hlen, if_neg (not_not.mpr s.byte_length)]
  · rw [value_stringLengthTurn, Nat.mod_eq_of_lt (by omega), if_pos (CString.byte_ne_zero hk)]

/-- What is returned is the length. -/
theorem stringLength_some {n : UInt32} (h : (stringLength (some s) turns).value = some n) : n.toNat = s.length := by
  by_cases hlen : s.length < 2 ^ 32
  · obtain ⟨j, -, -, hj, hbefore⟩ := Traced.search_eq_some_iff.mp h
    rw [value_stringLengthTurn] at hj
    split at hj
    · cases hj
    · next hzero =>
        cases hj
        -- the turn that ends the loop is the one at the terminator
        rw [UInt32.toNat_ofNat']
        have hmod := Nat.mod_le j (2 ^ 32)
        have hge : s.length ≤ j % 2 ^ 32 := CString.length_le (not_not.mp hzero)
        by_contra hne
        have hstop := hbefore s.length (Nat.zero_le _) (by omega)
        rw [value_stringLengthTurn, Nat.mod_eq_of_lt hlen, if_neg (not_not.mpr s.byte_length)] at hstop
        cases hstop
  · unfold stringLength at h
    rw [Traced.search_eq_none_iff.mpr] at h
    · cases h
    · intro j _ _
      have hlt : j % 2 ^ 32 < s.length := lt_of_lt_of_le (Nat.mod_lt j (by decide)) (Nat.not_lt.mp hlen)
      rw [value_stringLengthTurn, if_pos (CString.byte_ne_zero hlt)]

/-- **Longer strings are not**: the count starts again from zero before it gets to the terminator. -/
theorem stringLength_never (hlen : 2 ^ 32 ≤ s.length) (turns : Nat) :
    (stringLength (some s) turns).value = none := by
  unfold stringLength
  rw [Traced.search_eq_none_iff]
  intro j _ _
  have hlt : j % 2 ^ 32 < s.length := lt_of_lt_of_le (Nat.mod_lt j (by decide)) hlen
  rw [value_stringLengthTurn, if_pos (CString.byte_ne_zero hlt)]

theorem stringLength_inBounds (s : Option CString) (turns : Nat) : (stringLength s turns).All Read.InBounds := by
  unfold stringLength
  split
  · exact Traced.all_pure _
  · next s =>
      rw [Traced.all_search_iff]
      intro j _ _ hbefore
      -- a turn is reached only before the terminator has been read
      have hj : j % 2 ^ 32 ≤ s.length := by
        by_contra hlt
        have hmod := Nat.mod_le j (2 ^ 32)
        have hmod' := Nat.mod_lt j (show 0 < 2 ^ 32 by decide)
        have hstop := hbefore s.length (Nat.zero_le _) (by omega)
        rw [value_stringLengthTurn, Nat.mod_eq_of_lt (by omega), if_neg (not_not.mpr s.byte_length)] at hstop
        exact absurd hstop (by simp)
      unfold stringLengthTurn
      rw [Traced.all_bind, CString.all_read]
      refine ⟨?_, ?_⟩
      · show (UInt32.ofNat j).toNat ≤ s.length
        rwa [UInt32.toNat_ofNat']
      · split <;> exact Traced.all_pure _

end Strings
end UefiBoot
