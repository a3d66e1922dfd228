import UefiBoot.Lib.Traced

/-!
# `Lib.Walk` — walks over records of varying length

A record says where the next one is: `next a` is the place behind the record at `a`, and `none` when there is no
well-formed record at `a`. The places visited from `a` on form a chain. `Longest` is the chain that cannot be
extended; every other chain from the same place is a prefix of it (`Chain.isPrefix`), and it exists when every step
brings a measure down (`exists_longest`).

`Traced.walk` is the loop over the records. With one turn more than there are records it returns what its body
makes of the longest chain, from left to right (`value_walk`), and what it logs are the events of the tests and
of the bodies along that chain (`all_walk`).
-/

namespace Lib
namespace Walk

variable {α σ : Type} {next : α → Option α} {a b : α} {as bs : List α}

/-- Records at the places `as`, one behind the other, from `a` to `b`. -/
inductive Chain (next : α → Option α) : α → List α → α → Prop
  | nil (a : α) : Chain next a [] a
  | cons {a b c : α} {as : List α} : next a = some b → Chain next b as c → Chain next a (a :: as) c

/-- The records from `a` on, as far as they are well formed. -/
def Longest (next : α → Option α) (a : α) (as : List α) : Prop :=
  ∃ b, Chain next a as b ∧ next b = none

theorem Longest.nil (h : next a = none) : Longest next a [] := ⟨a, Chain.nil a, h⟩

theorem Longest.cons (hnext : next a = some b) (h : Longest next b as) : Longest next a (a :: as) := by
  obtain ⟨c, hchain, hend⟩ := h
  exact ⟨c, Chain.cons hnext hchain, hend⟩

/-- Every chain is a prefix of the longest one. -/
theorem Chain.isPrefix {c : α} (h : Chain next a as c) (hlong : Longest next a bs) : as <+: bs := by
  induction h generalizing bs with
  | nil a => exact List.nil_prefix
  | cons hnext _ ih =>
      obtain ⟨d, hchain, hend⟩ := hlong
      cases hchain with
      | nil =>
          -- the longest chain cannot stop where there is a record
          rw [hnext] at hend
          exact absurd hend (by simp)
      | cons hnext' hrest =>
          rw [hnext] at hnext'
          cases hnext'
          exact (List.cons_prefix_cons).mpr ⟨rfl, ih ⟨d, hrest, hend⟩⟩

/-- There is one longest chain only. -/
theorem Longest.unique (h : Longest next a as) (h' : Longest next a bs) : as = bs := by
  have hforth : as <+: bs := Chain.isPrefix h.choose_spec.1 h'
  have hback : bs <+: as := Chain.isPrefix h'.choose_spec.1 h
  exact hforth.eq_of_length_le hback.length_le

/-- Steps that bring a measure down come to an end, after at most as many records as the measure says. -/
theorem exists_longest (measure : α → Nat) (hstep : ∀ a b, next a = some b → measure b < measure a) (a : α) :
    ∃ as, Longest next a as ∧ as.length ≤ measure a := by
  induction hn : measure a using Nat.strongRecOn generalizing a with
  | _ n ih =>
      cases hnext : next a with
      | none => exact ⟨[], Longest.nil hnext, Nat.zero_le n⟩
      | some b =>
          have hlt : measure b < n := hn ▸ hstep a b hnext
          obtain ⟨as, hlong, hlen⟩ := ih (measure b) hlt b rfl
          refine ⟨a :: as, Longest.cons hnext hlong, ?_⟩
          rw [List.length_cons]
          omega

/-! ## Counting up to a limit -/

/-- A counter that goes up with every record of a kind until it reaches its limit. -/
theorem foldl_counter (count : σ → Nat) (step : σ → α → σ) (p : α → Bool) (cap : Nat)
    (hstep : ∀ s a, count (step s a) = if p a = true ∧ count s < cap then count s + 1 else count s)
    (s : σ) (hs : count s ≤ cap) : count (as.foldl step s) = min cap (count s + as.countP p) := by
  induction as generalizing s with
  | nil =>
      rw [List.foldl_nil, List.countP_nil]
      omega
  | cons a as ih =>
      have hone := hstep s a
      rw [List.foldl_cons, ih (step s a) (by rw [hone]; split <;> omega), hone, List.countP_cons]
      by_cases hp : p a = true
      · by_cases hlt : count s < cap
        · rw [if_pos ⟨hp, hlt⟩, if_pos hp]
          omega
        · rw [if_neg fun h => hlt h.2, if_pos hp]
          omega
      · rw [if_neg fun h => hp h.1, if_neg hp]
        omega

end Walk

namespace Traced

open Walk

variable {ε α σ : Type} {P : ε → Prop} {test : α → Traced ε (Option α)} {body : σ → α → Traced ε σ} {a : α}
  {as : List α} {n : Nat}

/-- `while (…) { … }` over records, for at most `n` tests; `none` when these did not suffice. `test` finds the
    place behind the record at the cursor, `body` does what is done with the record. -/
def walk (test : α → Traced ε (Option α)) (body : σ → α → Traced ε σ) : Nat → α → σ → Traced ε (Option σ)
  | 0, _, _     => pure none
  | n + 1, a, s => do
      match ← test a with
      | none   => pure (some s)
      | some b => do
          let s' ← body s a
          walk test body n b s'

/-- **What a walk returns.** -/
theorem value_walk (h : Longest (fun a => (test a).value) a as) (hn : as.length < n) (s : σ) :
    (walk test body n a s).value = some (as.foldl (fun s a => (body s a).value) s) := by
  obtain ⟨c, hchain, hend⟩ := h
  induction hchain generalizing n s with
  | nil a =>
      obtain ⟨k, rfl⟩ := Nat.exists_eq_succ_of_ne_zero (Nat.pos_iff_ne_zero.mp hn)
      unfold walk
      have hstop : (test a).value = none := hend
      rw [value_bind, hstop]
      rfl
  | @cons a b c as hnext hrest ih =>
      rw [List.length_cons] at hn
      obtain ⟨k, rfl⟩ := Nat.exists_eq_succ_of_ne_zero (n := n) (by omega)
      unfold walk
      have hgo : (test a).value = some b := hnext
      rw [value_bind, hgo]
      dsimp only
      rw [value_bind, ih (by omega) (body s a).value hend]
      rfl

/-- **What a walk logs**: the tests up to the one that ends it, and the bodies of the records before. -/
theorem all_walk (htest : ∀ a, All P (test a))
    (hbody : ∀ a b s, (test a).value = some b → All P (body s a)) (a : α) (s : σ) :
    All P (walk test body n a s) := by
  induction n generalizing a s with
  | zero => exact all_pure none
  | succ n ih =>
      unfold walk
      rw [all_bind]
      refine ⟨htest a, ?_⟩
      cases hnext : (test a).value with
      | none => exact all_pure (some s)
      | some b =>
          dsimp only
          rw [all_bind]
          exact ⟨hbody a b s hnext, ih b (body s a).value⟩

end Traced
end Lib
