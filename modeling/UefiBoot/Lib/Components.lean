import UefiBoot.Lib.CString

/-!
# `Lib.Components` — paths as lists of components

A path is a list of symbols, and its components are what lies between the separators (`List.splitOn`). One path is
a prefix of another component by component exactly when the two are equal or the other goes on with a separator
where the first ends (`splitOn_isPrefix_iff`). For paths held as C strings, that is a question about the place where
they fork (`CString.content_eq_iff_fork`, `CString.content_append_isPrefix_iff`).
-/

namespace Lib

variable {α : Type*}

/-- Joining two lists of components. -/
theorem intercalate_append (x : α) {as bs : List (List α)} (ha : as ≠ []) (hb : bs ≠ []) :
    [x].intercalate (as ++ bs) = [x].intercalate as ++ x :: [x].intercalate bs := by
  induction as with
  | nil => exact absurd rfl ha
  | cons a as ih =>
      cases as with
      | nil =>
          rw [List.singleton_append, List.intercalate_cons_of_ne_nil hb, List.intercalate_singleton]
          simp
      | cons a' as =>
          have hrest : [x].intercalate (a' :: (as ++ bs)) = [x].intercalate (a' :: as) ++ x :: [x].intercalate bs :=
            ih (List.cons_ne_nil a' as)
          rw [List.cons_append, List.cons_append, List.intercalate_cons_cons, hrest, List.intercalate_cons_cons,
            List.append_assoc, List.append_assoc, List.append_assoc]

variable [BEq α] [LawfulBEq α]

/-- **Component by component.** -/
theorem splitOn_isPrefix_iff (sep : α) (p q : List α) :
    p.splitOn sep <+: q.splitOn sep ↔ p = q ∨ p ++ [sep] <+: q := by
  constructor
  · rintro ⟨rest, hrest⟩
    have hjoin : [sep].intercalate (p.splitOn sep ++ rest) = q := by rw [hrest, List.intercalate_splitOn]
    cases rest with
    | nil =>
        rw [List.append_nil, List.intercalate_splitOn] at hjoin
        exact Or.inl hjoin
    | cons r rest =>
        rw [intercalate_append sep (List.splitOn_ne_nil sep p) (by simp), List.intercalate_splitOn] at hjoin
        exact Or.inr ⟨[sep].intercalate (r :: rest), by rw [← hjoin]; simp⟩
  · rintro (rfl | ⟨rest, rfl⟩)
    · exact List.prefix_rfl
    · refine ⟨rest.splitOn sep, ?_⟩
      rw [List.append_assoc, List.singleton_append, List.splitOn_append_cons_self]

namespace CString

variable {p q : CString} {x : UInt8}

/-- Two strings are equal when the second ends where they fork, at the end of the first. -/
theorem content_eq_iff_fork : p.content = q.content ↔ fork p q = p.length ∧ q.byte p.length = 0 := by
  rw [content_eq_iff]
  constructor
  · intro h
    obtain ⟨hp, hq⟩ := fork_eq_length h
    exact ⟨hp, by rw [← hp, hq, byte_length]⟩
  · rintro ⟨hfork, hzero⟩
    rw [hfork, byte_length, hzero]

/-- The second string goes on with `x` when `x` is its byte at the end of the first. -/
theorem content_append_isPrefix_iff (hx : x ≠ 0) :
    p.content ++ [x] <+: q.content ↔ fork p q = p.length ∧ q.byte p.length = x := by
  rw [List.prefix_iff_getElem]
  constructor
  · rintro ⟨hlen, hget⟩
    rw [List.length_append, length_content, length_content, List.length_singleton] at hlen
    constructor
    · apply fork_eq
      · intro k hk
        have hsame := hget k (by rw [List.length_append, length_content]; omega)
        rw [List.getElem_append_left (by rwa [length_content]), getElem_content, getElem_content] at hsame
        exact ⟨byte_ne_zero hk, hsame⟩
      · exact Or.inl p.byte_length
    · have hlast := hget p.length (by rw [List.length_append, length_content]; simp)
      rw [List.getElem_append_right (by rw [length_content]), getElem_content] at hlast
      rw [← hlast]
      simp
  · rintro ⟨hfork, hbyte⟩
    have hlong : p.length < q.length := by
      have hle := fork_le_right p q
      rcases Nat.lt_or_eq_of_le (hfork ▸ hle) with hlt | heq
      · exact hlt
      · rw [heq, byte_length] at hbyte
        exact absurd hbyte.symm hx
    refine ⟨by rw [List.length_append, length_content, length_content, List.length_singleton]; omega, ?_⟩
    intro i hi
    rw [List.length_append, length_content, List.length_singleton] at hi
    rw [getElem_content]
    rcases Nat.lt_or_eq_of_le (Nat.le_of_lt_succ hi) with hlt | rfl
    · rw [List.getElem_append_left (by rwa [length_content]), getElem_content]
      exact (before_fork (by rwa [hfork])).2
    · rw [List.getElem_append_right (by rw [length_content]), hbyte]
      simp

end CString
end Lib
