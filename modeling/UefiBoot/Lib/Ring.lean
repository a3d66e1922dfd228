import Mathlib.Tactic

/-!
# `Lib.Ring` — a queue in a circular array

An array of `n` places with a head, a tail and a count holds the `count` elements from `head` on, going round at
the end. `ringContents` reads them as a list, oldest first. Writing at the tail appends (`ringContents_push`),
moving the head on takes the oldest off (`ringContents_pop`), and `RingOk` is what both keep.
-/

namespace Lib

variable {α : Type*} {n : Nat} [NeZero n] {queue : Fin n → α} {head tail count : Nat}

/-- The elements of the queue, oldest first. -/
def ringContents (queue : Fin n → α) (head count : Nat) : List α :=
  (List.range count).map fun k => queue (Fin.ofNat n (head + k))

/-- Head, tail and count fit together. -/
structure RingOk (n head tail count : Nat) : Prop where
  inRange  : head < n
  tailAt   : tail = (head + count) % n
  capacity : count ≤ n

@[simp] theorem ringContents_zero (queue : Fin n → α) (head : Nat) : ringContents queue head 0 = [] := rfl

@[simp] theorem length_ringContents (queue : Fin n → α) (head count : Nat) :
    (ringContents queue head count).length = count := by
  unfold ringContents
  rw [List.length_map, List.length_range]

theorem RingOk.empty (n : Nat) [NeZero n] : RingOk n 0 0 0 :=
  ⟨Nat.pos_of_ne_zero (NeZero.ne n), rfl, Nat.zero_le n⟩

omit [NeZero n] in
theorem RingOk.push (h : RingOk n head tail count) (hroom : count < n) :
    RingOk n head ((tail + 1) % n) (count + 1) := by
  refine ⟨h.inRange, ?_, hroom⟩
  rw [h.tailAt, Nat.mod_add_mod, Nat.add_assoc]

theorem RingOk.pop (h : RingOk n head tail count) (hne : count ≠ 0) :
    RingOk n ((head + 1) % n) tail (count - 1) := by
  refine ⟨Nat.mod_lt _ (Nat.pos_of_ne_zero (NeZero.ne n)), ?_, by have := h.capacity; omega⟩
  rw [h.tailAt, Nat.mod_add_mod]
  congr 1
  omega

/-- **Writing at the tail appends.** -/
theorem ringContents_push (h : RingOk n head tail count) (hroom : count < n) (value : α) :
    ringContents (fun k : Fin n => if k.val = tail then value else queue k) head (count + 1)
      = ringContents queue head count ++ [value] := by
  unfold ringContents
  rw [List.range_succ, List.map_append, List.map_singleton]
  congr 1
  · apply List.map_congr_left
    intro k hk
    have hlt : k < count := List.mem_range.mp hk
    -- the places of the elements already there are not the tail
    apply if_neg
    rw [Fin.val_ofNat, h.tailAt]
    intro heq
    have hmod : k ≡ count [MOD n] := Nat.ModEq.add_left_cancel' head heq
    have hkc := Nat.ModEq.eq_of_lt_of_lt hmod (by omega) hroom
    omega
  · rw [List.cons.injEq]
    refine ⟨if_pos ?_, rfl⟩
    rw [Fin.val_ofNat, h.tailAt]

/-- **Moving the head on takes the oldest element off.** -/
theorem ringContents_pop (hne : count ≠ 0) :
    ringContents queue head count
      = queue (Fin.ofNat n head) :: ringContents queue ((head + 1) % n) (count - 1) := by
  obtain ⟨rest, rfl⟩ := Nat.exists_eq_succ_of_ne_zero hne
  unfold ringContents
  rw [List.range_succ_eq_map, List.map_cons, List.map_map]
  congr 1
  apply List.map_congr_left
  intro k _
  show queue _ = queue _
  congr 1
  apply Fin.ext
  rw [Fin.val_ofNat, Fin.val_ofNat, Nat.mod_add_mod]
  congr 1
  omega

end Lib
