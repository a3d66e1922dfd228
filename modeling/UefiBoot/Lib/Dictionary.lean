import UefiBoot.Lib.SlotTable

/-!
# `Lib.Dictionary` — maps with room for so many keys

`Dictionary n κ ν` is a finite map of at most `n` keys. `set` writes over a key that is there and adds one that is
not while there is room; `get` looks a key up.

`Kept` says that the slots of a table and a counter keep a dictionary. Each of the three things a program does with
its slots is one of the things that `set` does: write over the slot that holds the key (`Kept.overwrite`), take a
free slot (`Kept.add`), or find neither (`Kept.refuse`).
-/

namespace Lib

/-- A finite map of at most `n` keys. -/
structure Dictionary (n : Nat) (κ ν : Type*) where
  entries : Finmap fun _ : κ => ν
  card_le : entries.keys.card ≤ n

namespace Dictionary

variable {n : Nat} {κ ν : Type*}

theorem ext {d d' : Dictionary n κ ν} (h : d.entries = d'.entries) : d = d' := by
  cases d
  cases d'
  cases h
  rfl

def empty : Dictionary n κ ν := ⟨∅, Nat.zero_le n⟩

variable [DecidableEq κ]

theorem card_insert_le (m : Finmap fun _ : κ => ν) (k : κ) (x : ν) (h : k ∈ m ∨ m.keys.card < n)
    (hle : m.keys.card ≤ n) : (m.insert k x).keys.card ≤ n := by
  have hkeys : (m.insert k x).keys = insert k m.keys := by
    ext key
    rw [Finmap.mem_keys, Finmap.mem_insert, Finset.mem_insert, Finmap.mem_keys]
  rw [hkeys]
  rcases h with hmem | hlt
  · rwa [Finset.insert_eq_of_mem (Finmap.mem_keys.mpr hmem)]
  · exact (Finset.card_insert_le k m.keys).trans hlt

def get (d : Dictionary n κ ν) (k : κ) : Option ν := d.entries.lookup k

/-- A value for a key: the old one is forgotten, and a new key needs room. -/
def set (d : Dictionary n κ ν) (k : κ) (x : ν) : Bool × Dictionary n κ ν :=
  if h : k ∈ d.entries ∨ d.entries.keys.card < n then
    (true, ⟨d.entries.insert k x, card_insert_le d.entries k x h d.card_le⟩)
  else
    (false, d)

theorem set_eq_false_iff {d : Dictionary n κ ν} {k : κ} {x : ν} :
    (d.set k x).1 = false ↔ k ∉ d.entries ∧ d.entries.keys.card = n := by
  have hle := d.card_le
  unfold set
  split
  · next h =>
      refine ⟨fun hf => absurd hf (by simp), fun hf => ?_⟩
      rcases h with hmem | hlt
      · exact absurd hmem hf.1
      · omega
  · next h =>
      rw [not_or] at h
      exact ⟨fun _ => ⟨h.1, by omega⟩, fun _ => rfl⟩

/-- The last value that was set is found, and other keys keep theirs. -/
theorem get_set {d : Dictionary n κ ν} {k key : κ} {x : ν} (h : (d.set k x).1 = true) :
    (d.set k x).2.get key = if key = k then some x else d.get key := by
  unfold set at h ⊢
  split at h
  · next hroom =>
      rw [dif_pos hroom]
      show (d.entries.insert k x).lookup key = if key = k then some x else d.entries.lookup key
      split
      · next hkey => rw [hkey, Finmap.lookup_insert]
      · next hkey => rw [Finmap.lookup_insert_of_ne _ hkey]
  · exact absurd h (by simp)

end Dictionary

namespace SlotTable

variable {n : Nat} {κ ν : Type*} [DecidableEq κ] {t : SlotTable n κ ν} {i : Fin n} {k : κ} {x y : ν}

omit [DecidableEq κ] in
/-- The key is in one slot only, so writing over that slot keeps the keys apart. -/
theorem Distinct.overwrite (h : t.Distinct) (hi : t i = some (k, y)) (x : ν) :
    Distinct (Function.update t i (some (k, x))) :=
  h.update fun j z hj hz => hj (h j i k z y hz hi)

theorem toFinmap_overwrite (h : t.Distinct) (hi : t i = some (k, y)) (x : ν) :
    toFinmap (Function.update t i (some (k, x))) = t.toFinmap.insert k x := by
  apply finmap_ext
  intro key z
  rw [lookup_toFinmap (h.overwrite hi x), lookup_insert_iff, lookup_toFinmap h]
  constructor
  · rintro ⟨j, hj⟩
    rw [Function.update_apply] at hj
    split_ifs at hj with hji
    · cases hj
      rw [if_pos rfl]
    · rw [if_neg]
      · exact ⟨j, hj⟩
      · rintro rfl
        exact hji (h j i key z y hj hi)
  · intro hz
    split_ifs at hz with hkey
    · exact ⟨i, by rw [Function.update_self, hkey, hz]⟩
    · obtain ⟨j, hj⟩ := hz
      refine ⟨j, ?_⟩
      rw [Function.update_of_ne, hj]
      rintro rfl
      rw [hi] at hj
      cases hj
      exact hkey rfl

/-- The slots and the counter of a program keep a dictionary. -/
structure Kept (t : SlotTable n κ ν) (count : UInt32) (d : Dictionary n κ ν) : Prop where
  distinct : t.Distinct
  entries  : d.entries = t.toFinmap
  count    : count.toNat = d.entries.keys.card

variable {count : UInt32} {d : Dictionary n κ ν}

theorem Kept.free : Kept (fun _ => none : SlotTable n κ ν) 0 Dictionary.empty where
  distinct := fun i j k x y hi => by cases hi
  entries  := toFinmap_free.symm
  count    := rfl

theorem Kept.get_some (h : Kept t count d) (hi : t i = some (k, x)) : d.get k = some x := by
  unfold Dictionary.get
  rw [h.entries, lookup_toFinmap h.distinct]
  exact ⟨i, hi⟩

theorem Kept.not_mem (h : Kept t count d) (hk : ∀ i x, t i ≠ some (k, x)) : k ∉ d.entries := by
  rw [h.entries, mem_toFinmap h.distinct]
  rintro ⟨i, x, hi⟩
  exact hk i x hi

theorem Kept.get_none (h : Kept t count d) (hk : ∀ i x, t i ≠ some (k, x)) : d.get k = none :=
  Finmap.lookup_eq_none.mpr (h.not_mem hk)

/-- The key is there, and its slot is written over. -/
theorem Kept.overwrite (h : Kept t count d) (hi : t i = some (k, y)) (x : ν) :
    (d.set k x).1 = true ∧ Kept (Function.update t i (some (k, x))) count (d.set k x).2 := by
  have hmem : k ∈ d.entries := Finmap.mem_of_lookup_eq_some (h.get_some hi)
  unfold Dictionary.set
  rw [dif_pos (Or.inl hmem)]
  refine ⟨rfl, h.distinct.overwrite hi x, ?_, ?_⟩
  · rw [toFinmap_overwrite h.distinct hi, ← h.entries]
  · show count.toNat = (d.entries.insert k x).keys.card
    have hkeys : (d.entries.insert k x).keys = d.entries.keys := by
      ext key
      rw [Finmap.mem_keys, Finmap.mem_insert, Finmap.mem_keys]
      exact ⟨fun hor => hor.elim (fun heq => heq ▸ hmem) id, Or.inr⟩
    rw [hkeys]
    exact h.count

/-- The key is new, and a free slot is taken for it. -/
theorem Kept.add (h : Kept t count d) (hn : n < 2 ^ 32) (hk : ∀ i x, t i ≠ some (k, x)) (hfree : t i = none) (x : ν) :
    (d.set k x).1 = true ∧ Kept (Function.update t i (some (k, x))) (count + 1) (d.set k x).2 := by
  have hmem : k ∉ d.entries := h.not_mem hk
  have hroom : d.entries.keys.card < n := by
    apply Nat.lt_of_le_of_ne d.card_le
    rw [h.entries]
    exact fun hfull => (card_keys_eq_iff h.distinct).mp hfull i hfree
  have hcount := h.count
  unfold Dictionary.set
  rw [dif_pos (Or.inr hroom)]
  refine ⟨rfl, h.distinct.update fun j y _ => hk j y, ?_, ?_⟩
  · rw [toFinmap_put h.distinct hfree (h.entries ▸ hmem), ← h.entries]
  · show (count + 1).toNat = (d.entries.insert k x).keys.card
    have hkeys : (d.entries.insert k x).keys = insert k d.entries.keys := by
      ext key
      rw [Finmap.mem_keys, Finmap.mem_insert, Finset.mem_insert, Finmap.mem_keys]
    have hone : (1 : UInt32).toNat = 1 := rfl
    rw [hkeys, Finset.card_insert_of_notMem (fun hin => hmem (Finmap.mem_keys.mp hin)), UInt32.toNat_add, hone]
    omega

/-- The key is new, and no slot is free. -/
theorem Kept.refuse (h : Kept t count d) (hk : ∀ i x, t i ≠ some (k, x)) (hfull : ∀ i, t i ≠ none) (x : ν) :
    d.set k x = (false, d) := by
  have hmem : k ∉ d.entries := h.not_mem hk
  have hcard : d.entries.keys.card = n := by
    rw [h.entries]
    exact (card_keys_eq_iff h.distinct).mpr hfull
  unfold Dictionary.set
  rw [dif_neg (by rw [hcard]; exact fun hor => hor.elim hmem (Nat.lt_irrefl n))]

end SlotTable
end Lib
