import Mathlib.Tactic

/-!
# `Lib.Serial` — serial numbers for the entries of a finite table

Entries of a table are taken one by one and never given back, each with the next number of a counter. The numbers
in use are distinct and below the counter (`Serial`), and the counter is the number of entries in use, so the size
of the table bounds it.
-/

namespace Lib

variable {ι : Type*} [Fintype ι] {serial : ι → Option Nat} {next : Nat}

/-- The entries of a table that are in use. -/
def inUse (serial : ι → Option Nat) : Finset ι := Finset.univ.filter fun i => (serial i).isSome

structure Serial (serial : ι → Option Nat) (next : Nat) : Prop where
  below    : ∀ i k, serial i = some k → k < next
  distinct : ∀ i j k, serial i = some k → serial j = some k → i = j
  count    : (inUse serial).card = next

theorem Serial.empty : Serial (fun _ : ι => none) 0 := by
  refine ⟨fun i k h => ?_, fun i j k h => ?_, ?_⟩
  · exact absurd h (by simp)
  · exact absurd h (by simp)
  · unfold inUse
    simp

/-- The counter does not pass the size of the table. -/
theorem Serial.le_card (h : Serial serial next) : next ≤ Fintype.card ι := by
  rw [← h.count]
  exact Finset.card_le_univ _

/-- **A free entry takes the next number.** -/
theorem Serial.take [DecidableEq ι] (h : Serial serial next) {i : ι} (hi : serial i = none) :
    Serial (Function.update serial i (some next)) (next + 1) := by
  have hother : ∀ {j}, j ≠ i → Function.update serial i (some next) j = serial j :=
    fun hj => Function.update_of_ne hj _ _
  have hself : Function.update serial i (some next) i = some next := Function.update_self _ _ _
  constructor
  · intro j k hk
    by_cases hj : j = i
    · rw [hj, hself] at hk
      have hkn : next = k := Option.some.inj hk
      omega
    · rw [hother hj] at hk
      exact Nat.lt_succ_of_lt (h.below j k hk)
  · intro j l k hj hl
    by_cases hji : j = i <;> by_cases hli : l = i
    · rw [hji, hli]
    · -- an old number is below the new one
      rw [hji, hself] at hj
      rw [hother hli] at hl
      have hlt := h.below l k hl
      have hkn : next = k := Option.some.inj hj
      omega
    · rw [hli, hself] at hl
      rw [hother hji] at hj
      have hlt := h.below j k hj
      have hkn : next = k := Option.some.inj hl
      omega
    · rw [hother hji] at hj
      rw [hother hli] at hl
      exact h.distinct j l k hj hl
  · have hset : inUse (Function.update serial i (some next)) = insert i (inUse serial) := by
      ext j
      unfold inUse
      rw [Finset.mem_insert, Finset.mem_filter, Finset.mem_filter]
      by_cases hj : j = i
      · rw [hj, hself]
        simp
      · rw [hother hj]
        simp [hj]
    have hnew : i ∉ inUse serial := by
      unfold inUse
      rw [Finset.mem_filter, hi]
      simp
    rw [hset, Finset.card_insert_of_notMem hnew, h.count]

end Lib
