import Mathlib.Tactic

/-!
# `Lib.Select` — searching the slots of a fixed table

Two scans. `firstSlot` returns the first slot that satisfies a test, as a lookup by key or a search for a
free slot does. `pickBest` walks candidates in order, keeps the best eligible one so far, and replaces it
only by a *strictly* better one, as a priority scheduler does; `pickBest_spec` says what is kept: the first
eligible element of maximal key, or nothing when no element is eligible. `cyclicAfter` is the order in which
a round-robin scan visits the slots.

Both scans are irreducible: a proof about a table of 128 slots must use their lemmas and never run them.
-/

namespace Lib

/-! ## The first slot that passes a test -/

/-- The first slot that satisfies `p`. -/
@[irreducible] def firstSlot {n : Nat} (p : Fin n → Bool) : Option (Fin n) := Fin.find? p

section FirstSlot

variable {n : Nat} {p : Fin n → Bool} {i : Fin n}

theorem firstSlot_eq_some_iff : firstSlot p = some i ↔ p i = true ∧ ∀ j < i, p j = false := by
  unfold firstSlot; exact Fin.find?_eq_some_iff

theorem firstSlot_eq_none_iff : firstSlot p = none ↔ ∀ i, p i = false := by
  unfold firstSlot; exact Fin.find?_eq_none_iff

theorem firstSlot_true (h : firstSlot p = some i) : p i = true := (firstSlot_eq_some_iff.mp h).1

theorem exists_firstSlot (h : p i = true) : ∃ j, firstSlot p = some j := by
  cases hf : firstSlot p with
  | some j => exact ⟨j, rfl⟩
  | none => rw [firstSlot_eq_none_iff.mp hf i] at h; exact absurd h (by simp)

/-- Two tests that agree up to the slot found. -/
theorem firstSlot_congr {q : Fin n → Bool} (h : firstSlot p = some i) (hq : ∀ j ≤ i, q j = p j) :
    firstSlot q = some i := by
  obtain ⟨hfound, hfirst⟩ := firstSlot_eq_some_iff.mp h
  refine firstSlot_eq_some_iff.mpr ⟨?_, fun j hj => ?_⟩
  · rw [hq i (le_refl i)]
    exact hfound
  · rw [hq j (le_of_lt hj)]
    exact hfirst j hj

/-- A slot that is the only one to pass the test is the one found. -/
theorem firstSlot_unique (h : p i = true) (huniq : ∀ j, p j = true → j = i) :
    firstSlot p = some i := by
  obtain ⟨j, hj⟩ := exists_firstSlot h
  rw [hj, huniq j (firstSlot_true hj)]

end FirstSlot

/-! ## Sums over a table -/

/-- Writing one slot of a table changes a sum over the table by the difference at that slot. -/
theorem sum_update {n : Nat} {β : Type*} (f : β → Nat) (table : Fin n → β) (i : Fin n) (x : β) :
    (∑ j, f (Function.update table i x j)) + f (table i) = (∑ j, f (table j)) + f x := by
  have hcomp : (fun j => f (Function.update table i x j)) = Function.update (fun j => f (table j)) i (f x) := by
    funext j
    by_cases hj : j = i
    · rw [hj, Function.update_self, Function.update_self]
    · rw [Function.update_of_ne hj, Function.update_of_ne hj]
  rw [hcomp, Finset.sum_update_of_mem (Finset.mem_univ i),
    ← Finset.add_sum_erase Finset.univ (fun j => f (table j)) (Finset.mem_univ i), Finset.sdiff_singleton_eq_erase]
  omega

/-! ## The best eligible element of a list -/

variable {α κ : Type*} [LinearOrder κ] (ok : α → Bool) (key : α → κ)

/-- One step of the scan: `candidate` replaces `selected` if it is eligible and strictly better. -/
def better (selected : Option α) (candidate : α) : Option α :=
  if ok candidate then
    match selected with
    | none   => some candidate
    | some s => if key s < key candidate then some candidate else some s
  else selected

/-- Scan `l` from the left and keep the best eligible element. -/
@[irreducible] def pickBest (l : List α) : Option α := l.foldl (better ok key) none

@[simp] theorem pickBest_nil : pickBest ok key [] = none := by simp [pickBest]

theorem pickBest_concat (l : List α) (x : α) :
    pickBest ok key (l ++ [x]) = better ok key (pickBest ok key l) x := by
  simp [pickBest]

/-- **What the scan keeps.** The kept element splits the list: eligible elements before it are strictly
    worse, eligible elements after it are no better. -/
theorem pickBest_spec (l : List α) :
    match pickBest ok key l with
    | none   => ∀ x ∈ l, ok x = false
    | some b => ok b = true ∧ ∃ pre post, l = pre ++ b :: post ∧
        (∀ x ∈ pre, ok x = true → key x < key b) ∧ (∀ x ∈ post, ok x = true → key x ≤ key b) := by
  induction l using List.reverseRecOn with
  | nil => simp
  | append_singleton l x ih =>
      rw [pickBest_concat]
      cases hsel : pickBest ok key l with
      | none =>
          rw [hsel] at ih
          by_cases hx : ok x = true
          · simp only [better, hx, if_true]
            refine ⟨trivial, l, [], rfl, fun y hy hoky => ?_, by simp⟩
            rw [ih y hy] at hoky; exact absurd hoky (by simp)
          · simp only [better, hx, Bool.false_eq_true, if_false]
            intro y hy
            rcases List.mem_append.mp hy with hy | hy
            · exact ih y hy
            · rw [List.mem_singleton.mp hy]; simpa using hx
      | some s =>
          rw [hsel] at ih
          obtain ⟨hoks, pre, post, hl, hpre, hpost⟩ := ih
          by_cases hx : ok x = true
          · by_cases hlt : key s < key x
            · -- `x` wins: everything before it was at most `key s`
              simp only [better, hx, if_true, hlt]
              refine ⟨trivial, l, [], rfl, fun y hy hoky => ?_, by simp⟩
              rw [hl] at hy
              rcases List.mem_append.mp hy with hy | hy
              · exact (hpre y hy hoky).trans hlt
              · rcases List.mem_cons.mp hy with rfl | hy
                · exact hlt
                · exact (hpost y hy hoky).trans_lt hlt
            · simp only [better, hx, if_true, hlt, if_false]
              refine ⟨hoks, pre, post ++ [x], by simp [hl], hpre, fun y hy hoky => ?_⟩
              rcases List.mem_append.mp hy with hy | hy
              · exact hpost y hy hoky
              · rw [List.mem_singleton.mp hy]; exact not_lt.mp hlt
          · simp only [better, hx, Bool.false_eq_true, if_false]
            refine ⟨hoks, pre, post ++ [x], by simp [hl], hpre, fun y hy hoky => ?_⟩
            rcases List.mem_append.mp hy with hy | hy
            · exact hpost y hy hoky
            · rw [List.mem_singleton.mp hy] at hoky; exact absurd hoky hx

variable {ok key}

theorem pickBest_eq_none_iff {l : List α} : pickBest ok key l = none ↔ ∀ x ∈ l, ok x = false := by
  have hspec := pickBest_spec ok key l
  constructor
  · intro h; rw [h] at hspec; exact hspec
  · intro h
    cases hb : pickBest ok key l with
    | none => rfl
    | some b =>
        rw [hb] at hspec
        obtain ⟨hok, pre, post, hl, -⟩ := hspec
        rw [h b (by simp [hl])] at hok; exact absurd hok (by simp)

theorem pickBest_eq_some {l : List α} {b : α} (h : pickBest ok key l = some b) :
    ok b = true ∧ ∃ pre post, l = pre ++ b :: post ∧
      (∀ x ∈ pre, ok x = true → key x < key b) ∧ (∀ x ∈ post, ok x = true → key x ≤ key b) := by
  have hspec := pickBest_spec ok key l
  rw [h] at hspec; exact hspec

theorem pickBest_ok {l : List α} {b : α} (h : pickBest ok key l = some b) : ok b = true :=
  (pickBest_eq_some h).1

theorem pickBest_mem {l : List α} {b : α} (h : pickBest ok key l = some b) : b ∈ l := by
  obtain ⟨-, pre, post, hl, -⟩ := pickBest_eq_some h
  simp [hl]

/-- The kept element has the largest key among the eligible ones. -/
theorem pickBest_max {l : List α} {b x : α} (h : pickBest ok key l = some b) (hx : x ∈ l)
    (hok : ok x = true) : key x ≤ key b := by
  obtain ⟨-, pre, post, hl, hpre, hpost⟩ := pickBest_eq_some h
  rw [hl] at hx
  rcases List.mem_append.mp hx with hx | hx
  · exact (hpre x hx hok).le
  · rcases List.mem_cons.mp hx with rfl | hx
    · exact le_rfl
    · exact hpost x hx hok

/-- An element that is scanned last is kept only if it beats every other eligible element. -/
theorem pickBest_last {l : List α} {b x : α} (h : pickBest ok key (l ++ [b]) = some b) (hx : x ∈ l)
    (hb : b ∉ l) (hok : ok x = true) : key x < key b := by
  obtain ⟨-, pre, post, hl, hpre, -⟩ := pickBest_eq_some h
  have hpost : post = [] := by
    rcases List.eq_nil_or_concat post with hnil | ⟨post', y, hy⟩
    · exact hnil
    · subst hy
      have hsplit : l = pre ++ b :: post' := by
        have : l ++ [b] = (pre ++ b :: post') ++ [y] := by simpa using hl
        exact (List.append_inj' this rfl).1
      exact absurd (by simp [hsplit]) hb
  subst hpost
  have hlp : l = pre := (List.append_inj' hl rfl).1
  exact hpre x (hlp ▸ hx) hok

/-! ## Cyclic order of a table's slots -/

/-- The slots of a table in cyclic order, starting just after `i` and ending with `i` itself. -/
def cyclicAfter {n : Nat} (i : Fin n) : List (Fin n) :=
  (List.range n).map fun k => ⟨(i.val + (k + 1)) % n, Nat.mod_lt _ i.pos⟩

/-- `cyclicAfter i` without its last slot: every slot but `i`. -/
def cyclicOthers {n : Nat} (i : Fin n) : List (Fin n) :=
  (List.range (n - 1)).map fun k => ⟨(i.val + (k + 1)) % n, Nat.mod_lt _ i.pos⟩

theorem cyclicAfter_eq {n : Nat} (i : Fin n) : cyclicAfter i = cyclicOthers i ++ [i] := by
  obtain ⟨m, rfl⟩ : ∃ m, n = m + 1 := ⟨n - 1, by have := i.pos; omega⟩
  unfold cyclicAfter cyclicOthers
  rw [List.range_succ, List.map_append]
  congr 1
  simp only [List.map_cons, List.map_nil, List.cons.injEq, and_true]
  apply Fin.ext
  show (i.val + (m + 1)) % (m + 1) = i.val
  rw [Nat.add_mod_right, Nat.mod_eq_of_lt i.isLt]

theorem mem_cyclicOthers {n : Nat} {i j : Fin n} : j ∈ cyclicOthers i ↔ j ≠ i := by
  unfold cyclicOthers
  rw [List.mem_map]
  have hi := i.isLt
  have hj := j.isLt
  constructor
  · rintro ⟨k, hk, rfl⟩ hji
    rw [List.mem_range] at hk
    have hval : (i.val + (k + 1)) % n = i.val := congrArg Fin.val hji
    by_cases hw : i.val + (k + 1) < n
    · rw [Nat.mod_eq_of_lt hw] at hval; omega
    · rw [Nat.mod_eq_sub_mod (by omega), Nat.mod_eq_of_lt (by omega)] at hval; omega
  · intro hne
    have hval : j.val ≠ i.val := fun h => hne (Fin.ext h)
    -- the offset from `i` to `j`, going round once if `j` comes first
    by_cases hlt : i.val < j.val
    · refine ⟨j.val - i.val - 1, List.mem_range.mpr (by omega), Fin.ext ?_⟩
      show (i.val + (j.val - i.val - 1 + 1)) % n = j.val
      rw [show i.val + (j.val - i.val - 1 + 1) = j.val by omega, Nat.mod_eq_of_lt hj]
    · refine ⟨j.val + n - i.val - 1, List.mem_range.mpr (by omega), Fin.ext ?_⟩
      show (i.val + (j.val + n - i.val - 1 + 1)) % n = j.val
      rw [show i.val + (j.val + n - i.val - 1 + 1) = j.val + n by omega, Nat.add_mod_right,
        Nat.mod_eq_of_lt hj]

theorem mem_cyclicAfter {n : Nat} (i j : Fin n) : j ∈ cyclicAfter i := by
  rw [cyclicAfter_eq, List.mem_append, mem_cyclicOthers]
  by_cases h : j = i
  · exact Or.inr (by simp [h])
  · exact Or.inl h

/-- **Table order.** The scan of a whole table picks the eligible slot with the largest key, the first of
    several. -/
theorem pickBest_finRange_iff {n : Nat} {κ : Type*} [LinearOrder κ] {ok : Fin n → Bool}
    {key : Fin n → κ} {b : Fin n} :
    pickBest ok key (List.finRange n) = some b ↔
      ok b = true ∧ (∀ x, ok x = true → key x ≤ key b) ∧ ∀ x, x < b → ok x = true → key x < key b := by
  have hfirst : ∀ c, pickBest ok key (List.finRange n) = some c →
      ok c = true ∧ (∀ x, ok x = true → key x ≤ key c) ∧
        ∀ x, x < c → ok x = true → key x < key c := by
    intro c hc
    obtain ⟨hok, pre, post, hl, hpre, -⟩ := pickBest_eq_some hc
    refine ⟨hok, fun x hx => pickBest_max hc (List.mem_finRange x) hx, fun x hxc hx => ?_⟩
    have hsorted : (pre ++ c :: post).Pairwise (· < ·) :=
      hl ▸ (List.sortedLT_finRange n).pairwise
    have hmem : x ∈ pre ++ c :: post := hl ▸ List.mem_finRange x
    rcases List.mem_append.mp hmem with hx' | hx'
    · exact hpre x hx' hx
    · -- a slot from `c` on is not before `c`
      rcases List.mem_cons.mp hx' with rfl | hx'
      · exact absurd hxc (lt_irrefl x)
      · have hcx := (List.pairwise_cons.mp (List.pairwise_append.mp hsorted).2.1).1 x hx'
        exact absurd hxc (not_lt.mpr hcx.le)
  refine ⟨hfirst b, ?_⟩
  rintro ⟨hok, hmax, hbefore⟩
  cases hp : pickBest ok key (List.finRange n) with
  | none =>
      have hnone := pickBest_eq_none_iff.mp hp b (List.mem_finRange b)
      rw [hok] at hnone; exact absurd hnone (by simp)
  | some c =>
      obtain ⟨hokc, hmaxc, hbeforec⟩ := hfirst c hp
      rcases lt_trichotomy b c with hlt | rfl | hlt
      · exact absurd (hbeforec b hlt hok) (not_lt.mpr (hmax c hokc))
      · rfl
      · exact absurd (hbefore c hlt hokc) (not_lt.mpr (hmaxc b hok))

/-- **Round robin.** The scan of the slots after `i` picks another slot than `i` exactly when some other
    eligible slot is at least as good as `i`, or `i` is not eligible. -/
theorem pickBest_cyclicAfter_ne {n : Nat} {κ : Type*} [LinearOrder κ] {ok : Fin n → Bool}
    {key : Fin n → κ} (i : Fin n) :
    (∃ b, pickBest ok key (cyclicAfter i) = some b ∧ b ≠ i) ↔
      ∃ j, j ≠ i ∧ ok j = true ∧ (ok i = true → key i ≤ key j) := by
  constructor
  · rintro ⟨b, hb, hne⟩
    exact ⟨b, hne, pickBest_ok hb, fun hi => pickBest_max hb (mem_cyclicAfter i i) hi⟩
  · rintro ⟨j, hne, hok, hkey⟩
    cases hb : pickBest ok key (cyclicAfter i) with
    | none =>
        have hnone := pickBest_eq_none_iff.mp hb j (mem_cyclicAfter i j)
        rw [hnone] at hok; exact absurd hok (by simp)
    | some b =>
        refine ⟨b, rfl, ?_⟩
        rintro rfl
        have hlt : key j < key b := by
          rw [cyclicAfter_eq] at hb
          exact pickBest_last hb (mem_cyclicOthers.mpr hne) (fun h => mem_cyclicOthers.mp h rfl) hok
        have hbok : ok b = true := pickBest_ok hb
        exact absurd (hkey hbok) (not_le.mpr hlt)

end Lib
