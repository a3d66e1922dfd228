import UefiBoot.Lib.Traced

/-!
# `Lib.CString` — strings that end at their first zero byte

A `CString` is what a `char*` points to: bytes without an end, one of which is zero. `content` is the list of bytes
before the first zero, and reading is logged with the index, so that "no byte behind the terminator is read" is a
property of the log (`Read.InBounds`).

Two strings agree up to their `fork`, the first index where they differ or end. All there is to compare is there:
the contents are equal when the bytes at the fork are (`content_eq_iff`), and ordered as these are
(`content_lt_iff`).
-/

namespace Lib

/-- The bytes from a pointer on, one of which is zero. -/
structure CString where
  byte       : Nat → UInt8
  terminated : ∃ n, byte n = 0

namespace CString

variable {a b s : CString} {i j : Nat}

def length (s : CString) : Nat := Nat.find s.terminated

/-- The bytes before the first zero. -/
def content (s : CString) : List UInt8 := (List.range s.length).map s.byte

/-- A string in memory. -/
def ofBytes (bytes : List UInt8) : CString where
  byte i := bytes.getD i 0
  terminated := ⟨bytes.length, by simp⟩

@[simp] theorem byte_length (s : CString) : s.byte s.length = 0 := Nat.find_spec s.terminated

theorem byte_ne_zero (h : i < s.length) : s.byte i ≠ 0 := Nat.find_min s.terminated h

theorem length_le (h : s.byte i = 0) : s.length ≤ i := Nat.find_min' s.terminated h

/-- A string with no zero before `i` is at least as long. -/
theorem le_length (h : ∀ k < i, s.byte k ≠ 0) : i ≤ s.length := by
  by_contra hlt
  exact h s.length (Nat.not_le.mp hlt) s.byte_length

@[simp] theorem length_content (s : CString) : s.content.length = s.length := by
  unfold content
  rw [List.length_map, List.length_range]

theorem getElem_content (h : i < s.content.length) : s.content[i] = s.byte i := by
  simp only [content, List.getElem_map, List.getElem_range]

theorem zero_not_mem_content (s : CString) : 0 ∉ s.content := by
  intro h
  obtain ⟨i, hi, heq⟩ := List.mem_map.mp h
  exact byte_ne_zero (List.mem_range.mp hi) heq

/-- What is left at the end. -/
theorem drop_length_content (s : CString) : s.content.drop s.length = [] := by
  rw [← length_content]
  exact List.drop_length

/-- What is left before the end. -/
theorem drop_content (h : i < s.length) : s.content.drop i = s.byte i :: s.content.drop (i + 1) := by
  have hi : i < s.content.length := by rwa [length_content]
  rw [List.drop_eq_getElem_cons hi, getElem_content]

/-- Behind a byte that is not the terminator there is another one. -/
theorem lt_length_of_ne_zero (hi : i ≤ s.length) (h : s.byte i ≠ 0) : i < s.length := by
  rcases Nat.eq_or_lt_of_le hi with rfl | hlt
  · exact absurd s.byte_length h
  · exact hlt

theorem content_ofBytes {bytes : List UInt8} (h : (0 : UInt8) ∉ bytes) : (ofBytes bytes).content = bytes := by
  have hbyte : ∀ i (hi : i < bytes.length), (ofBytes bytes).byte i = bytes[i] := by
    intro i hi
    show bytes.getD i 0 = bytes[i]
    rw [List.getD_eq_getElem?_getD, List.getElem?_eq_getElem hi, Option.getD_some]
  have hlength : (ofBytes bytes).length = bytes.length := by
    apply Nat.le_antisymm
    · apply length_le
      show bytes.getD bytes.length 0 = 0
      simp
    · apply le_length
      intro k hk
      rw [hbyte k hk]
      intro hzero
      exact h (hzero ▸ List.getElem_mem hk)
  apply List.ext_getElem
  · rw [length_content, hlength]
  · intro i hi hi'
    rw [getElem_content hi, hbyte i hi']

theorem length_ofBytes {bytes : List UInt8} (h : (0 : UInt8) ∉ bytes) : (ofBytes bytes).length = bytes.length := by
  rw [← length_content, content_ofBytes h]

/-! ## Reading -/

/-- A byte of a string is read. -/
structure Read where
  string : CString
  index  : Nat

/-- The byte is one of the string, or its terminator. -/
def Read.InBounds (r : Read) : Prop := r.index ≤ r.string.length

def read (s : CString) (i : Nat) : Traced Read UInt8 := do
  Traced.emit ⟨s, i⟩
  pure (s.byte i)

@[simp] theorem value_read (s : CString) (i : Nat) : (s.read i).value = s.byte i := rfl

@[simp] theorem all_read {P : Read → Prop} (s : CString) (i : Nat) : (s.read i).All P ↔ P ⟨s, i⟩ := by
  unfold read
  rw [Traced.all_bind, Traced.all_emit]
  exact ⟨fun h => h.1, fun h => ⟨h, Traced.all_pure _⟩⟩

/-! ## Comparing -/

/-- Where two strings fork: the first index at which they differ, or else end. -/
def fork (a b : CString) : Nat := Nat.find (p := fun i => a.byte i = 0 ∨ a.byte i ≠ b.byte i)
  (a.terminated.imp fun _ h => Or.inl h)

theorem fork_spec (a b : CString) : a.byte (fork a b) = 0 ∨ a.byte (fork a b) ≠ b.byte (fork a b) :=
  Nat.find_spec (p := fun i => a.byte i = 0 ∨ a.byte i ≠ b.byte i) _

theorem before_fork (h : i < fork a b) : a.byte i ≠ 0 ∧ a.byte i = b.byte i := by
  have hmin := Nat.find_min (p := fun i => a.byte i = 0 ∨ a.byte i ≠ b.byte i) _ h
  rw [not_or, not_not] at hmin
  exact hmin

theorem fork_eq (hbefore : ∀ k < j, a.byte k ≠ 0 ∧ a.byte k = b.byte k)
    (hat : a.byte j = 0 ∨ a.byte j ≠ b.byte j) : fork a b = j := by
  apply (Nat.find_eq_iff _).mpr
  refine ⟨hat, fun k hk hat' => ?_⟩
  obtain ⟨hne, heq⟩ := hbefore k hk
  exact hat'.elim hne fun h => h heq

theorem fork_le_left (a b : CString) : fork a b ≤ a.length := le_length fun _ hk => (before_fork hk).1

theorem fork_le_right (a b : CString) : fork a b ≤ b.length := by
  apply le_length
  intro k hk
  rw [← (before_fork hk).2]
  exact (before_fork hk).1

/-- Bytes that are equal at the fork are the terminators. -/
theorem fork_eq_length (h : a.byte (fork a b) = b.byte (fork a b)) : fork a b = a.length ∧ fork a b = b.length := by
  have hzero : a.byte (fork a b) = 0 := (fork_spec a b).resolve_right fun hne => hne h
  have hzero' : b.byte (fork a b) = 0 := h ▸ hzero
  exact ⟨Nat.le_antisymm (fork_le_left a b) (length_le hzero),
    Nat.le_antisymm (fork_le_right a b) (length_le hzero')⟩

/-- **Equality.** -/
theorem content_eq_iff : a.content = b.content ↔ a.byte (fork a b) = b.byte (fork a b) := by
  constructor
  · intro h
    have hlen : a.length = b.length := by rw [← length_content, h, length_content]
    rcases Nat.eq_or_lt_of_le (fork_le_left a b) with heq | hlt
    · rw [heq, byte_length, hlen, byte_length]
    · have hlta : fork a b < a.content.length := by rwa [length_content]
      have hltb : fork a b < b.content.length := by rwa [length_content, ← hlen]
      rw [← getElem_content hlta, ← getElem_content hltb]
      exact List.getElem_of_eq h hlta
  · intro h
    obtain ⟨hleft, hright⟩ := fork_eq_length h
    apply List.ext_getElem
    · rw [length_content, length_content, ← hleft, ← hright]
    · intro i hi hi'
      rw [getElem_content hi, getElem_content hi']
      rw [length_content, ← hleft] at hi
      exact (before_fork hi).2

/-- **Order.** -/
theorem content_lt_iff : a.content < b.content ↔ a.byte (fork a b) < b.byte (fork a b) := by
  rw [List.lt_iff_exists]
  constructor
  · rintro (⟨hstarts, hlt⟩ | ⟨i, hia, hib, hbefore, hlt⟩)
    · -- `a` ends first
      rw [length_content, length_content] at hlt
      have hfork : fork a b = a.length := by
        apply fork_eq
        · intro k hk
          have hka : k < a.content.length := by rwa [length_content]
          have hkb : k < b.content.length := by
            rw [length_content]
            omega
          refine ⟨byte_ne_zero hk, ?_⟩
          rw [← getElem_content hka, ← getElem_content hkb, List.getElem_of_eq hstarts hka, List.getElem_take]
        · exact Or.inl a.byte_length
      rw [hfork, byte_length]
      exact UInt8.pos_iff_ne_zero.mpr (byte_ne_zero hlt)
    · rw [getElem_content, getElem_content] at hlt
      have hfork : fork a b = i := by
        apply fork_eq
        · intro k hk
          have hka := hbefore k hk
          rw [getElem_content, getElem_content] at hka
          rw [length_content] at hia
          exact ⟨byte_ne_zero (by omega), hka⟩
        · exact Or.inr (UInt8.ne_of_lt hlt)
      rw [hfork]
      exact hlt
  · intro hlt
    have hne : b.byte (fork a b) ≠ 0 := by
      intro hzero
      rw [hzero] at hlt
      exact absurd hlt (by simp)
    have hltb : fork a b < b.length := by
      rcases Nat.eq_or_lt_of_le (fork_le_right a b) with heq | hlt'
      · exact absurd (heq ▸ b.byte_length) hne
      · exact hlt'
    rcases Nat.eq_or_lt_of_le (fork_le_left a b) with heq | hlta
    · -- the fork is the end of `a`
      refine Or.inl ⟨?_, by rw [length_content, length_content]; omega⟩
      apply List.ext_getElem
      · rw [List.length_take, length_content, length_content]
        omega
      · intro i hi hi'
        rw [length_content, ← heq] at hi
        rw [List.getElem_take, getElem_content, getElem_content]
        exact (before_fork hi).2
    · refine Or.inr ⟨fork a b, by rwa [length_content], by rwa [length_content], ?_, ?_⟩
      · intro k hk
        rw [getElem_content, getElem_content]
        exact (before_fork hk).2
      · rw [getElem_content, getElem_content]
        exact hlt

end CString
end Lib
