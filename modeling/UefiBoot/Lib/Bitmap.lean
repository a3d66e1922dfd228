import Mathlib.Tactic

/-!
# `Lib.Bitmap` — bits kept in bytes

Bit `i` of a bitmap is bit `i % 8` of byte `i / 8`, tested, set and cleared through the mask
`1 << (i % 8)` as C code does. `test_set` and `test_clear` say that an update changes the one bit it names;
every other lemma about a bitmap goes through them and never looks at a byte again. `clearCount` counts the
clear bits below a bound and follows the updates one by one.
-/

namespace Lib

/-- Byte `k` holds the bits `8 * k` to `8 * k + 7`. -/
abbrev Bitmap := Nat → UInt8

namespace Bitmap

/-- `1 << (i % 8)`. -/
def mask (i : Nat) : UInt8 := UInt8.ofNat (1 <<< (i % 8))

def test (b : Bitmap) (i : Nat) : Bool := b (i / 8) &&& mask i != 0

def set (b : Bitmap) (i : Nat) : Bitmap := Function.update b (i / 8) (b (i / 8) ||| mask i)

def clear (b : Bitmap) (i : Nat) : Bitmap := Function.update b (i / 8) (b (i / 8) &&& ~~~mask i)

/-! ## One bit -/

theorem toBitVec_mask (i : Nat) : (mask i).toBitVec = BitVec.twoPow 8 (i % 8) := by
  unfold mask BitVec.twoPow
  apply BitVec.eq_of_toNat_eq
  simp

/-- Testing a bit through its mask reads that bit of the byte. -/
theorem test_eq_getLsbD (b : Bitmap) (i : Nat) : b.test i = (b (i / 8)).toBitVec.getLsbD (i % 8) := by
  have hlt : i % 8 < 8 := Nat.mod_lt i (by omega)
  have hmask : (b (i / 8) &&& mask i).toBitVec
      = if (b (i / 8)).toBitVec.getLsbD (i % 8) then BitVec.twoPow 8 (i % 8) else 0#8 := by
    rw [UInt8.toBitVec_and, toBitVec_mask]
    exact BitVec.and_twoPow _ _
  have hpow : BitVec.twoPow 8 (i % 8) ≠ 0#8 := by
    intro h
    have hbit := congrArg (fun v => v.getLsbD (i % 8)) h
    simp [hlt] at hbit
  have hzero : b.test i = true ↔ (b (i / 8) &&& mask i).toBitVec ≠ 0#8 := by
    unfold test
    rw [bne_iff_ne, ne_eq, ← UInt8.toBitVec_inj]
    rfl
  rw [hmask] at hzero
  cases hbit : (b (i / 8)).toBitVec.getLsbD (i % 8) with
  | false => simpa [hbit] using hzero
  | true => simpa [hbit, hpow] using hzero

/-- **Setting** changes the one bit it names. -/
theorem test_set (b : Bitmap) (i j : Nat) : (b.set i).test j = if j = i then true else b.test j := by
  have hi : i % 8 < 8 := Nat.mod_lt i (by omega)
  rw [test_eq_getLsbD, test_eq_getLsbD]
  unfold set
  by_cases hbyte : j / 8 = i / 8
  · rw [hbyte, Function.update_self, UInt8.toBitVec_or, toBitVec_mask, BitVec.getLsbD_or,
      BitVec.getLsbD_twoPow]
    by_cases hij : j = i
    · simp [hij, hi]
    · have hne : i % 8 ≠ j % 8 := by omega
      simp [hij, hne]
  · rw [Function.update_of_ne hbyte, if_neg]
    rintro rfl; exact hbyte rfl

/-- **Clearing** changes the one bit it names. -/
theorem test_clear (b : Bitmap) (i j : Nat) :
    (b.clear i).test j = if j = i then false else b.test j := by
  have hi : i % 8 < 8 := Nat.mod_lt i (by omega)
  have hj : j % 8 < 8 := Nat.mod_lt j (by omega)
  rw [test_eq_getLsbD, test_eq_getLsbD]
  unfold clear
  by_cases hbyte : j / 8 = i / 8
  · rw [hbyte, Function.update_self, UInt8.toBitVec_and, UInt8.toBitVec_not, toBitVec_mask,
      BitVec.getLsbD_and, BitVec.getLsbD_not, BitVec.getLsbD_twoPow]
    by_cases hij : j = i
    · simp [hij, hi]
    · have hne : i % 8 ≠ j % 8 := by omega
      simp [hij, hne, hj]
  · rw [Function.update_of_ne hbyte, if_neg]
    rintro rfl; exact hbyte rfl

/-- The bits determine the bytes. -/
theorem ext {b c : Bitmap} (h : ∀ i, b.test i = c.test i) : b = c := by
  funext k
  apply UInt8.toBitVec_inj.mp
  apply BitVec.eq_of_getLsbD_eq
  intro i hi
  have hbit := h (8 * k + i)
  rw [test_eq_getLsbD, test_eq_getLsbD] at hbit
  rwa [show (8 * k + i) / 8 = k by omega, show (8 * k + i) % 8 = i by omega] at hbit

/-! ## Counting the clear bits -/

/-- How many of the first `n` bits are clear. -/
def clearCount (b : Bitmap) (n : Nat) : Nat := ((Finset.range n).filter fun i => b.test i = false).card

variable {b c : Bitmap} {n i : Nat}

theorem clearCount_le (b : Bitmap) (n : Nat) : b.clearCount n ≤ n := by
  calc b.clearCount n ≤ (Finset.range n).card := Finset.card_filter_le _ _
    _ = n := Finset.card_range n

/-- The count depends on the bits only. -/
theorem clearCount_congr (h : ∀ j < n, c.test j = b.test j) : c.clearCount n = b.clearCount n := by
  unfold clearCount
  congr 1
  apply Finset.filter_congr
  intro j hj
  rw [h j (Finset.mem_range.mp hj)]

theorem clearCount_pos (hi : i < n) (hclear : b.test i = false) : 0 < b.clearCount n := by
  apply Finset.card_pos.mpr
  exact ⟨i, Finset.mem_filter.mpr ⟨Finset.mem_range.mpr hi, hclear⟩⟩

theorem clearCount_lt (hi : i < n) (hset : b.test i = true) : b.clearCount n < n := by
  have hlt : b.clearCount n < (Finset.range n).card := by
    apply Finset.card_lt_card
    refine ⟨Finset.filter_subset _ _, fun hsub => ?_⟩
    have hmem := (Finset.mem_filter.mp (hsub (Finset.mem_range.mpr hi))).2
    rw [hset] at hmem; exact absurd hmem (by simp)
  rwa [Finset.card_range] at hlt

theorem clearCount_set (hi : i < n) (hclear : b.test i = false) :
    (b.set i).clearCount n + 1 = b.clearCount n := by
  have hmem : i ∈ (Finset.range n).filter fun j => b.test j = false :=
    Finset.mem_filter.mpr ⟨Finset.mem_range.mpr hi, hclear⟩
  have hset : ((Finset.range n).filter fun j => (b.set i).test j = false)
      = ((Finset.range n).filter fun j => b.test j = false).erase i := by
    ext j
    by_cases hj : j = i <;> simp [test_set, hj]
  unfold clearCount
  rw [hset]
  exact Finset.card_erase_add_one hmem

/-- Setting a block of `k` clear bits takes `k` off the count. -/
theorem clearCount_setBlock {r k : Nat} (hin : r + k ≤ n) (hclear : ∀ j, r ≤ j → j < r + k → b.test j = false)
    (hset : ∀ j < n, c.test j = if r ≤ j ∧ j < r + k then true else b.test j) :
    c.clearCount n + k = b.clearCount n := by
  have hsplit : ((Finset.range n).filter fun j => b.test j = false) =
      ((Finset.range n).filter fun j => c.test j = false) ∪ Finset.Ico r (r + k) := by
    ext j
    rw [Finset.mem_union, Finset.mem_filter, Finset.mem_filter, Finset.mem_range, Finset.mem_Ico]
    by_cases hblock : r ≤ j ∧ j < r + k
    · exact iff_of_true ⟨by omega, hclear j hblock.1 hblock.2⟩ (.inr hblock)
    · refine ⟨fun h => .inl ⟨h.1, ?_⟩, fun h => ?_⟩
      · rw [hset j h.1, if_neg hblock]
        exact h.2
      · obtain ⟨hj, hbit⟩ := h.resolve_right hblock
        rw [hset j hj, if_neg hblock] at hbit
        exact ⟨hj, hbit⟩
  have hdisjoint : Disjoint ((Finset.range n).filter fun j => c.test j = false) (Finset.Ico r (r + k)) := by
    rw [Finset.disjoint_left]
    intro j hj hblock
    obtain ⟨hjn, hbit⟩ := Finset.mem_filter.mp hj
    rw [hset j (Finset.mem_range.mp hjn), if_pos (Finset.mem_Ico.mp hblock)] at hbit
    exact absurd hbit (by simp)
  unfold clearCount
  rw [hsplit, Finset.card_union_of_disjoint hdisjoint, Nat.card_Ico, Nat.add_sub_cancel_left]

theorem clearCount_clear (hi : i < n) (hset : b.test i = true) :
    (b.clear i).clearCount n = b.clearCount n + 1 := by
  -- setting the bit again undoes the change
  have hbit : (b.clear i).test i = false := by rw [test_clear, if_pos rfl]
  rw [← clearCount_set hi hbit]
  congr 1
  apply clearCount_congr
  intro j _
  rw [test_set, test_clear]
  by_cases hj : j = i
  · rw [if_pos hj, hj, hset]
  · rw [if_neg hj, if_neg hj]

end Bitmap
end Lib
