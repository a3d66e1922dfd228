import Mathlib.Tactic
import Mathlib.Data.Finmap

/-!
# `Lib.SlotTable` — a finite map kept in the slots of an array

A table of `n` slots, each free or holding a key and a value. While the keys in use differ (`Distinct`), the table
stands for a finite map of at most `n` keys, `toFinmap`. A key written into a free slot, over another key, or taken
out of its slot is then an insertion, a change of key or a deletion of that map.
-/

namespace Lib

/-- Slots that are free or hold a key and a value. -/
abbrev SlotTable (n : Nat) (κ ν : Type*) := Fin n → Option (κ × ν)

namespace SlotTable

variable {n : Nat} {κ ν : Type*} {t : SlotTable n κ ν} {i : Fin n} {k k' : κ} {x : ν}

/-- No key is in two slots. -/
def Distinct (t : SlotTable n κ ν) : Prop := ∀ i j k x y, t i = some (k, x) → t j = some (k, y) → i = j

/-- The slots in use, in order. -/
def entries (t : SlotTable n κ ν) : List (Σ _ : κ, ν) :=
  (List.finRange n).filterMap fun i => (t i).map fun e => ⟨e.1, e.2⟩

theorem mem_entries : (⟨k, x⟩ : Σ _ : κ, ν) ∈ t.entries ↔ ∃ i, t i = some (k, x) := by
  unfold entries
  rw [List.mem_filterMap]
  constructor
  · rintro ⟨i, -, hi⟩
    obtain ⟨⟨k₁, x₁⟩, he, heq⟩ := Option.map_eq_some_iff.mp hi
    cases heq
    exact ⟨i, he⟩
  · rintro ⟨i, hi⟩
    exact ⟨i, List.mem_finRange i, by rw [hi]; rfl⟩

theorem Distinct.nodupKeys (h : t.Distinct) : t.entries.NodupKeys := by
  unfold List.NodupKeys List.keys entries
  rw [List.map_filterMap]
  apply List.Nodup.filterMap _ (List.nodup_finRange n)
  intro i j key hi hj
  simp only [Option.map_map, Option.mem_def, Option.map_eq_some_iff, Function.comp_apply] at hi hj
  obtain ⟨⟨k₁, x₁⟩, hti, rfl⟩ := hi
  obtain ⟨⟨k₂, x₂⟩, htj, hkey⟩ := hj
  obtain rfl : k₂ = k₁ := hkey
  exact h i j k₂ x₁ x₂ hti htj

/-- **An empty slot stays out of it**: a table with one slot changed has no key twice, if the new one is nowhere
    else. -/
theorem Distinct.update (h : t.Distinct) (hk : ∀ j x, j ≠ i → t j ≠ some (k, x)) :
    Distinct (Function.update t i (some (k, x))) := by
  intro p q key y z hp hq
  rw [Function.update_apply] at hp hq
  split_ifs at hp hq with hpi hqi hqi
  · rw [hpi, hqi]
  · cases hp
    exact absurd hq (hk q z hqi)
  · cases hq
    exact absurd hp (hk p y hpi)
  · exact h p q key y z hp hq

theorem Distinct.clear (h : t.Distinct) (i : Fin n) : Distinct (Function.update t i none) := by
  intro p q key y z hp hq
  rw [Function.update_apply] at hp hq
  split_ifs at hp hq
  exact h p q key y z hp hq

variable [DecidableEq κ]

/-- The map that the table stands for. -/
def toFinmap (t : SlotTable n κ ν) : Finmap fun _ : κ => ν := t.entries.toFinmap

theorem lookup_toFinmap (h : t.Distinct) : t.toFinmap.lookup k = some x ↔ ∃ i, t i = some (k, x) := by
  unfold toFinmap
  rw [Finmap.dlookup_list_toFinmap]
  exact (List.mem_dlookup_iff h.nodupKeys).trans mem_entries

theorem mem_toFinmap (h : t.Distinct) : k ∈ t.toFinmap ↔ ∃ i x, t i = some (k, x) := by
  rw [Finmap.mem_iff, exists_comm]
  exact exists_congr fun x => lookup_toFinmap h

/-- Two maps agree if they map the same keys to the same values. -/
theorem finmap_ext {m m' : Finmap fun _ : κ => ν} (h : ∀ k x, m.lookup k = some x ↔ m'.lookup k = some x) : m = m' :=
  Finmap.ext_lookup fun k => Option.ext fun x => h k x

theorem lookup_insert_iff {m : Finmap fun _ : κ => ν} {key : κ} {value : ν} :
    (m.insert key value).lookup k = some x ↔ if k = key then value = x else m.lookup k = some x := by
  split_ifs with hk
  · rw [hk, Finmap.lookup_insert, Option.some.injEq]
  · rw [Finmap.lookup_insert_of_ne m hk]

theorem lookup_erase_iff {m : Finmap fun _ : κ => ν} {key : κ} :
    (m.erase key).lookup k = some x ↔ k ≠ key ∧ m.lookup k = some x := by
  by_cases hk : k = key
  · rw [hk, Finmap.lookup_erase]
    simp
  · rw [Finmap.lookup_erase_ne hk]
    simp [hk]

theorem toFinmap_free : toFinmap (fun _ => none : SlotTable n κ ν) = ∅ := by
  have hdistinct : Distinct (fun _ => none : SlotTable n κ ν) := by
    intro i j k x y hi
    cases hi
  apply finmap_ext
  intro k x
  rw [lookup_toFinmap hdistinct, Finmap.lookup_empty]
  simp

/-- A key written into a free slot is inserted. -/
theorem toFinmap_put (h : t.Distinct) (hfree : t i = none) (hk : k ∉ t.toFinmap) :
    toFinmap (Function.update t i (some (k, x))) = t.toFinmap.insert k x := by
  have hnone : ∀ j y, t j ≠ some (k, y) := fun j y hj => hk ((mem_toFinmap h).mpr ⟨j, y, hj⟩)
  apply finmap_ext
  intro key y
  rw [lookup_toFinmap (h.update fun j y _ => hnone j y), lookup_insert_iff, lookup_toFinmap h]
  constructor
  · rintro ⟨j, hj⟩
    rw [Function.update_apply] at hj
    split_ifs at hj with hji
    · cases hj
      rw [if_pos rfl]
    · rw [if_neg]
      · exact ⟨j, hj⟩
      · rintro rfl
        exact hnone j y hj
  · intro hy
    split_ifs at hy with hkey
    · exact ⟨i, by rw [Function.update_self, hkey, hy]⟩
    · obtain ⟨j, hj⟩ := hy
      refine ⟨j, ?_⟩
      rw [Function.update_of_ne, hj]
      rintro rfl
      rw [hfree] at hj
      cases hj

/-- A slot that is emptied takes its key out. -/
theorem toFinmap_clear (h : t.Distinct) (hi : t i = some (k, x)) :
    toFinmap (Function.update t i none) = t.toFinmap.erase k := by
  apply finmap_ext
  intro key y
  rw [lookup_toFinmap (h.clear i), lookup_erase_iff, lookup_toFinmap h]
  constructor
  · rintro ⟨j, hj⟩
    rw [Function.update_apply] at hj
    split_ifs at hj with hji
    refine ⟨?_, j, hj⟩
    rintro rfl
    exact hji (h j i key y x hj hi)
  · rintro ⟨hne, j, hj⟩
    refine ⟨j, ?_⟩
    rw [Function.update_of_ne, hj]
    rintro rfl
    rw [hi] at hj
    cases hj
    exact hne rfl

/-- A key written over another is a deletion and an insertion. -/
theorem toFinmap_rekey (h : t.Distinct) (hi : t i = some (k, x)) (hk : k' ∉ t.toFinmap) :
    toFinmap (Function.update t i (some (k', x))) = (t.toFinmap.erase k).insert k' x := by
  rw [← toFinmap_clear h hi, ← toFinmap_put (h.clear i) (Function.update_self ..), Function.update_idem]
  rw [toFinmap_clear h hi]
  exact fun hmem => hk ((Finmap.mem_erase.mp hmem).2)

/-! ## How many keys -/

theorem card_keys (h : t.Distinct) :
    t.toFinmap.keys.card = (Finset.univ.filter fun i => (t i).isSome = true).card := by
  symm
  apply Finset.card_bij fun i hi => ((t i).get (Finset.mem_filter.mp hi).2).1
  · intro i hi
    rw [Finmap.mem_keys, mem_toFinmap h]
    exact ⟨i, ((t i).get (Finset.mem_filter.mp hi).2).2, (Option.some_get _).symm⟩
  · intro i hi j hj hkey
    obtain ⟨⟨k₁, x₁⟩, hti⟩ := Option.isSome_iff_exists.mp (Finset.mem_filter.mp hi).2
    obtain ⟨⟨k₂, x₂⟩, htj⟩ := Option.isSome_iff_exists.mp (Finset.mem_filter.mp hj).2
    simp only [hti, htj, Option.get_some] at hkey
    subst hkey
    exact h i j k₁ x₁ x₂ hti htj
  · intro k hk
    obtain ⟨i, x, hi⟩ := (mem_toFinmap h).mp (Finmap.mem_keys.mp hk)
    refine ⟨i, Finset.mem_filter.mpr ⟨Finset.mem_univ i, by rw [hi]; rfl⟩, ?_⟩
    simp only [hi, Option.get_some]

/-- The map is full when no slot is free. -/
theorem card_keys_eq_iff (h : t.Distinct) : t.toFinmap.keys.card = n ↔ ∀ i, t i ≠ none := by
  have hall := Finset.card_filter_eq_iff (s := (Finset.univ : Finset (Fin n))) (p := fun i => (t i).isSome = true)
  rw [Finset.card_fin] at hall
  rw [card_keys h, hall]
  simp only [Finset.mem_univ, true_implies, Option.isSome_iff_ne_none]

end SlotTable

end Lib
