import UefiBoot.Lib.Select

/-!
# `Lib.AppendTable` — tables that are filled from the front

A table with a counter: entries are written behind those that are there, and a lookup goes through them from the
front. An entry that is appended is found by a lookup exactly when the lookup found nothing before
(`lookup_append`): what is looked up first stays first.
-/

namespace Lib

/-- The slots of a table, and how many of them are in use. -/
structure AppendTable (n : Nat) (β : Type*) where
  slots : Fin n → β
  count : UInt32

namespace AppendTable

variable {n : Nat} {β : Type*} {t : AppendTable n β} {p q : β → Bool} {x : β}

/-- An entry behind the last one. -/
def append (t : AppendTable n β) (x : β) (h : t.count.toNat < n) : AppendTable n β where
  slots := Function.update t.slots ⟨t.count.toNat, h⟩ x
  count := t.count + 1

/-- The first entry in use that passes a test. -/
def find (t : AppendTable n β) (p : β → Bool) : Option (Fin n) :=
  firstSlot fun i => decide (i.val < t.count.toNat) && p (t.slots i)

/-- What is in it. -/
def lookup (t : AppendTable n β) (p : β → Bool) : Option β := (t.find p).map t.slots

theorem find_eq_some_iff {i : Fin n} :
    t.find p = some i ↔ i.val < t.count.toNat ∧ p (t.slots i) = true ∧
      ∀ j < i, p (t.slots j) = false := by
  unfold find
  rw [firstSlot_eq_some_iff, Bool.and_eq_true, decide_eq_true_iff, and_assoc]
  refine and_congr_right fun hi => and_congr_right fun _ => forall₂_congr fun j hj => ?_
  have hlt : j.val < t.count.toNat := lt_trans (Fin.lt_def.mp hj) hi
  rw [decide_eq_true hlt, Bool.true_and]

theorem find_eq_none_iff : t.find p = none ↔ ∀ i, i.val < t.count.toNat → p (t.slots i) = false := by
  unfold find
  rw [firstSlot_eq_none_iff]
  refine forall_congr' fun i => ?_
  by_cases hi : i.val < t.count.toNat
  · rw [decide_eq_true hi, Bool.true_and]
    exact ⟨fun h _ => h, fun h => h hi⟩
  · rw [decide_eq_false hi, Bool.false_and]
    exact ⟨fun _ h => absurd h hi, fun _ => rfl⟩

variable {h : t.count.toNat < n}

theorem toNat_count_append (hn : n < 2 ^ 32) : (t.append x h).count.toNat = t.count.toNat + 1 := by
  have hone : (1 : UInt32).toNat = 1 := rfl
  show (t.count + 1).toNat = _
  rw [UInt32.toNat_add, hone]
  omega

/-- The entries that were there stay where they are. -/
theorem slots_append_of_lt {i : Fin n} (hi : i.val < t.count.toNat) : (t.append x h).slots i = t.slots i :=
  Function.update_of_ne (fun heq => absurd (congrArg Fin.val heq) (Nat.ne_of_lt hi)) _ _

theorem slots_append_last : (t.append x h).slots ⟨t.count.toNat, h⟩ = x := Function.update_self ..

/-- **What was found before is still found**, and otherwise the new entry if it passes the test. -/
theorem lookup_append (hn : n < 2 ^ 32) :
    (t.append x h).lookup p = (t.lookup p).or (if p x = true then some x else none) := by
  have hcount := toNat_count_append (x := x) (h := h) hn
  unfold lookup
  cases hfind : t.find p with
  | some i =>
      obtain ⟨hi, hp, hbefore⟩ := find_eq_some_iff.mp hfind
      have hsame : (t.append x h).find p = some i := by
        apply find_eq_some_iff.mpr
        refine ⟨by omega, by rwa [slots_append_of_lt hi], fun j hj => ?_⟩
        rw [slots_append_of_lt (lt_trans (Fin.lt_def.mp hj) hi)]
        exact hbefore j hj
      rw [hsame, Option.map_some, Option.map_some, slots_append_of_lt hi, Option.some_or]
  | none =>
      have hnone := find_eq_none_iff.mp hfind
      rw [Option.map_none, Option.none_or]
      by_cases hp : p x = true
      · have hlast : (t.append x h).find p = some ⟨t.count.toNat, h⟩ := by
          apply find_eq_some_iff.mpr
          refine ⟨by rw [hcount]; exact Nat.lt_succ_self _, by rwa [slots_append_last], fun j hj => ?_⟩
          have hjlt : j.val < t.count.toNat := hj
          rw [slots_append_of_lt hjlt]
          exact hnone j hjlt
        rw [hlast, if_pos hp, Option.map_some, slots_append_last]
      · have hstill : (t.append x h).find p = none := by
          apply find_eq_none_iff.mpr
          intro i hi
          rcases Nat.lt_or_eq_of_le (Nat.le_of_lt_succ (hcount ▸ hi)) with hlt | heq
          · rw [slots_append_of_lt hlt]
            exact hnone i hlt
          · have hslot : i = ⟨t.count.toNat, h⟩ := Fin.ext heq
            rw [hslot, slots_append_last]
            simpa using hp
        rw [hstill, if_neg hp, Option.map_none]

/-- **Reading back what was appended**: the lookup finds an entry like the new one exactly when it found nothing
    before, or something like it. -/
theorem lookup_append_iff (hn : n < 2 ^ 32) (hp : p x = true) (like : β → Prop) (hlike : like x) :
    (∃ y, (t.append x h).lookup p = some y ∧ like y) ↔ ∀ y, t.lookup p = some y → like y := by
  rw [lookup_append hn, if_pos hp]
  cases hfind : t.lookup p with
  | none =>
      rw [Option.none_or]
      exact ⟨fun _ y hy => (by cases hy), fun _ => ⟨x, rfl, hlike⟩⟩
  | some y =>
      rw [Option.some_or]
      constructor
      · rintro ⟨z, hz, hlikez⟩ y' hy'
        cases hz
        cases hy'
        exact hlikez
      · exact fun hall => ⟨y, rfl, hall y rfl⟩

/-- A lookup that the new entry does not pass is not changed. -/
theorem lookup_append_other (hn : n < 2 ^ 32) (hp : p x = false) : (t.append x h).lookup p = t.lookup p := by
  rw [lookup_append hn, if_neg (by simp [hp]), Option.or_none]

end AppendTable
end Lib
