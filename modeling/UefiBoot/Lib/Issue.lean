import Mathlib.Tactic

/-!
# `Lib.Issue` — identifiers from a counter

A table gives each live entry an identifier taken from a 64-bit counter that goes up by one each time and comes
round to 0. Until a live entry is given the identifier 0, the identifiers of live entries are distinct and not 0;
`Issued` carries this, with the reason that they are below the counter.
-/

namespace Lib

variable {ι : Type*} {live live' : ι → Prop} {id id' : ι → UInt64} {next next' : UInt64}

structure Issued (live : ι → Prop) (id : ι → UInt64) (next : UInt64) : Prop where
  nonzero  : ∀ i, live i → id i ≠ 0
  distinct : ∀ i j, live i → live j → id i = id j → i = j
  below    : next ≠ 0 → ∀ i, live i → id i < next

theorem Issued.empty (h : ∀ i, ¬ live i) : Issued live id next := by
  refine ⟨fun i hi => absurd hi (h i), fun i j hi => absurd hi (h i), fun _ i hi => absurd hi (h i)⟩

/-- The counter names no live entry. -/
theorem Issued.fresh (h : Issued live id next) (hnz : next ≠ 0) {i : ι} (hi : live i) : id i ≠ next :=
  UInt64.ne_of_lt (h.below hnz i hi)

/-- The counter goes up, or round to 0. -/
theorem lt_add_one {n : UInt64} (h : n + 1 ≠ 0) : n < n + 1 := by
  have hone : (1 : UInt64).toNat = 1 := rfl
  have hlt := n.toNat_lt
  have hne : (n + 1).toNat ≠ 0 := fun hz => h (UInt64.toNat_inj.mp hz)
  rw [UInt64.lt_iff_toNat_lt]
  rw [UInt64.toNat_add] at hne ⊢
  omega

/-- No entry comes alive, and the counter does not go down. -/
theorem Issued.keeps (h : Issued live id next) (hnext : next' ≠ 0 → next ≠ 0 ∧ next ≤ next')
    (hold : ∀ i, live' i → live i ∧ id' i = id i) : Issued live' id' next' := by
  constructor
  · intro i hi
    obtain ⟨hlive, hid⟩ := hold i hi
    rw [hid]
    exact h.nonzero i hlive
  · intro i j hi hj heq
    obtain ⟨hlive, hid⟩ := hold i hi
    obtain ⟨hjlive, hjid⟩ := hold j hj
    exact h.distinct i j hlive hjlive (hid.symm.trans (heq.trans hjid))
  · intro hnz i hi
    obtain ⟨hlive, hid⟩ := hold i hi
    obtain ⟨hold, hle⟩ := hnext hnz
    rw [hid]
    exact UInt64.lt_of_lt_of_le (h.below hold i hlive) hle

/-- **One entry comes alive under the counter's number.** -/
theorem Issued.issue (h : Issued live id next) (hnz : next ≠ 0) (i : ι)
    (hnew : ∀ j, live' j → j = i ∧ id' j = next ∨ live j ∧ id' j = id j) : Issued live' id' (next + 1) := by
  constructor
  · intro j hj
    rcases hnew j hj with ⟨-, hid⟩ | ⟨hlive, hid⟩
    · rw [hid]
      exact hnz
    · rw [hid]
      exact h.nonzero j hlive
  · intro j k hj hk heq
    rcases hnew j hj with ⟨hji, hid⟩ | ⟨hlive, hid⟩ <;> rcases hnew k hk with ⟨hki, hkid⟩ | ⟨hklive, hkid⟩
    · exact hji.trans hki.symm
    · exact absurd (hkid.symm.trans (heq.symm.trans hid)) (h.fresh hnz hklive)
    · exact absurd (hid.symm.trans (heq.trans hkid)) (h.fresh hnz hlive)
    · exact h.distinct j k hlive hklive (hid.symm.trans (heq.trans hkid))
  · intro hnext j hj
    have hup := lt_add_one hnext
    rcases hnew j hj with ⟨-, hid⟩ | ⟨hlive, hid⟩
    · rw [hid]
      exact hup
    · rw [hid]
      exact UInt64.lt_trans (h.below hnz j hlive) hup

end Lib
