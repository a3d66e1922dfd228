import Mathlib.Data.Set.Function
import Mathlib.Tactic

/-!
# `Lib.Stores` — a list of stores to a memory

Stores are done one after another, the last one to an address counting. What matters of a list of stores is often less
than the order: that it stays inside a set of addresses, that it writes the values of another memory back, or that a
clipped list does inside what the whole one does.
-/

namespace Lib

variable {α β : Type*} [DecidableEq α] {m g : α → β} {ws : List (α × β)} {s : Set α}

/-- The stores of a list, in order. -/
def storeAll (m : α → β) (ws : List (α × β)) : α → β := ws.foldl (fun m w => Function.update m w.1 w.2) m

@[simp] theorem storeAll_nil (m : α → β) : storeAll m [] = m := rfl

@[simp] theorem storeAll_cons (m : α → β) (w : α × β) (ws : List (α × β)) :
    storeAll m (w :: ws) = storeAll (Function.update m w.1 w.2) ws := rfl

/-- Stores inside a set leave the rest alone. -/
theorem storeAll_eqOn_compl (h : ∀ w ∈ ws, w.1 ∈ s) : Set.EqOn (storeAll m ws) m sᶜ := by
  induction ws generalizing m with
  | nil => exact Set.eqOn_refl m sᶜ
  | cons w ws ih =>
      intro a ha
      rw [storeAll_cons, ih (fun w' hw' => h w' (List.mem_cons_of_mem w hw')) ha, Function.update_of_ne]
      rintro rfl
      exact ha (h w List.mem_cons_self)

theorem storeAll_of_not_mem {a : α} (h : a ∉ ws.map Prod.fst) : storeAll m ws a = m a :=
  storeAll_eqOn_compl (s := fun b => b ∈ ws.map Prod.fst) (fun _ hw => List.mem_map_of_mem hw) h

/-- Stores of the values of `g`. -/
theorem storeAll_of_mem (h : ∀ w ∈ ws, w.2 = g w.1) {a : α} (ha : a ∈ ws.map Prod.fst) : storeAll m ws a = g a := by
  induction ws generalizing m with
  | nil => cases ha
  | cons w ws ih =>
      rw [storeAll_cons]
      by_cases hmem : a ∈ ws.map Prod.fst
      · exact ih (fun w' hw' => h w' (List.mem_cons_of_mem w hw')) hmem
      · -- the store at the head is the last one to the address
        have hw : a = w.1 := (List.mem_cons.mp ha).resolve_right hmem
        rw [storeAll_of_not_mem hmem, hw, Function.update_self]
        exact h w List.mem_cons_self

/-- One value for each element of a list, each to an address of its own. -/
theorem storeAll_map {γ : Type*} {f : γ → α} {v : γ → β} {l : List γ} (hinj : Set.InjOn f fun x => x ∈ l) {x : γ}
    (hx : x ∈ l) : storeAll m (l.map fun x => (f x, v x)) (f x) = v x := by
  induction l generalizing m with
  | nil => cases hx
  | cons y l ih =>
      rw [List.map_cons, storeAll_cons]
      have htail : Set.InjOn f fun x => x ∈ l := hinj.mono fun z hz => List.mem_cons_of_mem y hz
      by_cases hmem : x ∈ l
      · exact ih htail hmem
      · have hxy : x = y := (List.mem_cons.mp hx).resolve_right hmem
        subst hxy
        rw [storeAll_of_not_mem, Function.update_self]
        -- no other element has the address
        intro hfst
        rw [List.map_map] at hfst
        obtain ⟨z, hz, hzx⟩ := List.mem_map.mp hfst
        have heq := hinj (List.mem_cons_of_mem x hz) List.mem_cons_self hzx
        exact hmem (heq ▸ hz)

/-- **Writing back**: stores of the values of `g` to all addresses where the memory differs give `g`. -/
theorem storeAll_restore (h : ∀ w ∈ ws, w.2 = g w.1) (hm : ∀ a, a ∉ ws.map Prod.fst → m a = g a) :
    storeAll m ws = g := by
  funext a
  by_cases ha : a ∈ ws.map Prod.fst
  · exact storeAll_of_mem h ha
  · rw [storeAll_of_not_mem ha, hm a ha]

/-- **Clipping**: the stores to some of the addresses do there what all of them do. -/
theorem storeAll_filter {p : α → Bool} {m' : α → β} {a : α} (ha : p a = true) (hm : m a = m' a) :
    storeAll m (ws.filter fun w => p w.1) a = storeAll m' ws a := by
  induction ws generalizing m m' with
  | nil => exact hm
  | cons w ws ih =>
      rw [List.filter_cons, storeAll_cons]
      split_ifs with hw
      · rw [storeAll_cons]
        apply ih
        rw [Function.update_apply, Function.update_apply, hm]
      · -- a store elsewhere does not count here
        apply ih
        rw [hm, Function.update_of_ne]
        rintro rfl
        exact hw ha

/-! ## The last store to an address -/

/-- What the last store to an address stores. -/
def lastStore (ws : List (α × β)) (a : α) : Option β := (ws.reverse.find? fun w => w.1 = a).map Prod.snd

theorem lastStore_append (ws ws' : List (α × β)) (a : α) :
    lastStore (ws ++ ws') a = (lastStore ws' a).or (lastStore ws a) := by
  unfold lastStore
  rw [List.reverse_append, List.find?_append, Option.map_or]

theorem lastStore_singleton (w : α × β) (a : α) : lastStore [w] a = if w.1 = a then some w.2 else none := by
  unfold lastStore
  rw [List.reverse_singleton, List.find?_singleton]
  by_cases h : w.1 = a
  · rw [if_pos (decide_eq_true h), if_pos h]
    rfl
  · rw [if_neg (by simpa using h), if_neg h]
    rfl

theorem lastStore_cons (w : α × β) (ws : List (α × β)) (a : α) :
    lastStore (w :: ws) a = (lastStore ws a).or (if w.1 = a then some w.2 else none) := by
  rw [← List.singleton_append, lastStore_append, lastStore_singleton]

theorem lastStore_eq_none_iff {a : α} : lastStore ws a = none ↔ ∀ w ∈ ws, w.1 ≠ a := by
  unfold lastStore
  rw [Option.map_eq_none_iff, List.find?_eq_none]
  simp only [List.mem_reverse, decide_eq_true_eq, ne_eq]

/-- **A list of stores, by address.** -/
theorem storeAll_apply (m : α → β) (ws : List (α × β)) (a : α) : storeAll m ws a = (lastStore ws a).getD (m a) := by
  induction ws generalizing m with
  | nil => rfl
  | cons w ws ih =>
      rw [storeAll_cons, ih, lastStore_cons, Function.update_apply]
      cases lastStore ws a with
      | some v => rfl
      | none =>
          by_cases h : w.1 = a
          · rw [if_pos h, if_pos h.symm]
            rfl
          · rw [if_neg h, if_neg (Ne.symm h)]
            rfl

end Lib
