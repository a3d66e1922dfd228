import Mathlib.Order.Bounds.Defs
import UefiBoot.Memory.Frames

/-!
# `Memory.AlignedFit` — `AllocateAligned` is a complete first fit

`Block` says in numbers what a call asks for: aligned free pages in managed memory. `allocateAligned_firstFit` puts
together what the scan finds (`Memory.FirstFit`), what marking the block does (`Takes`) and that the counter of free
pages is exact, so that the early test of the count never refuses a request that could be met.
-/

namespace UefiBoot
namespace PhysicalMemoryManager

/-- The `n` pages from `r` on are managed, free, and `r` is a multiple of the alignment. -/
structure Block (s : PhysicalMemoryManager) (n alignment r : Nat) : Prop where
  managed : r < kManagedPageCount
  aligned : alignment ∣ r
  free    : ∀ page, r ≤ page → page < r + n → page < kManagedPageCount ∧ s.isPageFree page = true

variable {s t : PhysicalMemoryManager} {pageCount alignmentPages : UInt64} {n r : Nat}

theorem Block.inside (h : s.Block n alignmentPages.toNat r) : r + n ≤ kManagedPageCount := by
  cases n with
  | zero => exact Nat.le_of_lt h.managed
  | succ n => exact (h.free (r + n) (Nat.le_add_right r n) (Nat.lt_succ_self _)).1

/-- The bit test of the scan is divisibility. -/
theorem block_iff {k : Nat} (hpow : alignmentPages.toNat = 2 ^ k) (hn : 0 < n) :
    s.Block n alignmentPages.toNat r ↔ r + n ≤ kManagedPageCount ∧ s.FreeRun alignmentPages n r := by
  have htest : r + n ≤ kManagedPageCount → (UInt64.ofNat r &&& (alignmentPages - 1) = 0 ↔ alignmentPages.toNat ∣ r) := by
    intro hin
    have hN := kManagedPageCount_eq
    rw [← UInt64.toNat_inj, Lib.toNat_and_pred hpow, UInt64.toNat_ofNat', Nat.mod_eq_of_lt (show r < 2 ^ 64 by omega)]
    exact Nat.dvd_iff_mod_eq_zero.symm
  constructor
  · intro h
    have hin := h.inside
    exact ⟨hin, (htest hin).mpr h.aligned, fun page hlo hhi => (h.free page hlo hhi).2⟩
  · rintro ⟨hin, hrun⟩
    refine ⟨by omega, (htest hin).mp hrun.aligned, fun page hlo hhi => ⟨by omega, hrun.free page hlo hhi⟩⟩

/-- Taking a block of free pages takes their number off the count. -/
theorem Takes.count (h : Takes s t r n) (hs : s.Exact) (ht : t.Exact) : t.mFreePages.toNat + n = s.mFreePages.toNat := by
  rw [hs.free, ht.free]
  refine Lib.Bitmap.clearCount_setBlock h.inside (fun page hlo hhi => ?_) fun page _ => ?_
  · simpa [isPageFree] using h.free page hlo hhi
  · have hpage := h.pages page
    unfold isPageFree at hpage
    split_ifs at hpage ⊢ with hblock
    · simpa using hpage
    · simpa using hpage

/-- **`AllocateAligned` is a complete first fit.** From exact counters with page 0 in use,
    * if the page count is not zero, the alignment is a power of two and some block can be had, the call returns the
      address of the lowest one, marks exactly its pages and takes their number off the count of free pages;
    * otherwise it returns 0 and changes nothing. -/
theorem allocateAligned_firstFit (h : s.Ready) (pageCount alignmentPages : UInt64) :
    let blocks := {r | pageCount ≠ 0 ∧ (∃ k, alignmentPages.toNat = 2 ^ k) ∧
      s.Block pageCount.toNat alignmentPages.toNat r}
    let result := s.allocateAligned pageCount alignmentPages
    (∀ r, IsLeast blocks r →
      result.1 ≠ 0 ∧ result.1.toNat = 4096 * r ∧
      (∀ page, result.2.isPageFree page = if r ≤ page ∧ page < r + pageCount.toNat then false else s.isPageFree page) ∧
      result.2.mFreePages.toNat + pageCount.toNat = s.mFreePages.toNat) ∧
    (blocks = ∅ → result = (0, s)) := by
  intro blocks result
  rcases allocateAligned_cases s pageCount alignmentPages with ⟨hnone, hres⟩ | ⟨first, hsome, hn, haddress, htakes⟩
  · refine ⟨fun r hleast => ?_, fun _ => hres⟩
    -- the counters are exact, so a block that is there is found
    obtain ⟨hcount, ⟨k, hpow⟩, hblock⟩ := hleast.1
    obtain ⟨halign, htest⟩ := Lib.and_pred_eq_zero_iff.mpr ⟨k, hpow⟩
    have hpos : 0 < pageCount.toNat := Nat.pos_of_ne_zero fun hz => hcount (UInt64.toNat_inj.mp hz)
    obtain ⟨hin, hrun⟩ := (block_iff hpow hpos).mp hblock
    obtain ⟨first, hfirst⟩ := allocateAligned_complete h.exact hcount halign htest hin hrun
    rw [hnone] at hfirst
    exact absurd hfirst (by simp)
  · have hcount : pageCount ≠ 0 := by
      rintro rfl
      exact absurd hn (by decide)
    have hpow : ∃ k, alignmentPages.toNat = 2 ^ k := by
      apply Lib.and_pred_eq_zero_iff.mp
      unfold findBlock at hsome
      split_ifs at hsome with hbad hodd
      exact ⟨fun hz => hodd (.inl hz), by_contra fun hne => hodd (.inr hne)⟩
    obtain ⟨k, hk⟩ := hpow
    obtain ⟨-, hin, hrun, hmin⟩ := findBlock_some hsome
    have hleast : IsLeast blocks first := by
      refine ⟨⟨hcount, ⟨k, hk⟩, (block_iff hk hn).mpr ⟨hin, hrun⟩⟩, fun r hr => ?_⟩
      by_contra hlt
      exact hmin r (Nat.lt_of_not_le hlt) ((block_iff hk hn).mp hr.2.2).2
    refine ⟨fun r hr => ?_, fun hempty => ?_⟩
    · obtain rfl := hr.unique hleast
      have hmanaged : r < kManagedPageCount := by omega
      have hpos : r ≠ 0 := by
        rintro rfl
        have hfree := htakes.free 0 (Nat.le_refl 0) (by omega)
        rw [h.zeroUsed] at hfree
        exact absurd hfree (by simp)
      refine ⟨?_, ?_, htakes.pages, htakes.count h.exact (h.exact.step (.allocateAligned pageCount alignmentPages))⟩
      · show (s.allocateAligned pageCount alignmentPages).1 ≠ 0
        rw [haddress]
        exact frameOf_ne_zero hmanaged hpos
      · show (s.allocateAligned pageCount alignmentPages).1.toNat = _
        rw [haddress, toNat_frameOf hmanaged, Nat.mul_comm]
    · have hmem : first ∈ blocks := hleast.1
      rw [hempty] at hmem
      exact absurd hmem (Set.notMem_empty first)

/-- The pages 5 to 14 and 18 to 20 are free. -/
def patchy : PhysicalMemoryManager :=
  Lib.run step (allUsed ⟨fun _ => 0, 0, 0, 0⟩) [.freeContiguous 0x5000 10, .freeContiguous 0x12000 3]

/-- Four pages at a multiple of four: the pages 8 to 11. -/
theorem allocateAligned_firstFit_four :
    (patchy.allocateAligned 4 4).1.toNat = 4096 * 8 ∧ (patchy.allocateAligned 4 4).2.mFreePages.toNat + 4 = 13 := by
  have hready : patchy.Ready :=
    ⟨Lib.run_invariant (fun _ op h => h.step op) (exact_allUsed _) _, by decide +kernel⟩
  have hfree : ∀ page, 8 ≤ page → page < 12 → page < kManagedPageCount ∧ patchy.isPageFree page = true := by
    intro page hlo hhi
    interval_cases page <;> decide +kernel
  have hused : patchy.isPageFree 0 = false ∧ patchy.isPageFree 4 = false := by decide +kernel
  have hleast : IsLeast {r | (4 : UInt64) ≠ 0 ∧ (∃ k, (4 : UInt64).toNat = 2 ^ k) ∧
      patchy.Block (4 : UInt64).toNat (4 : UInt64).toNat r} 8 := by
    refine ⟨⟨by decide, ⟨2, rfl⟩, (hfree 8 (by decide) (by decide)).1, ⟨2, rfl⟩, hfree⟩, fun r hr => ?_⟩
    obtain ⟨-, -, hblock⟩ := hr
    by_contra hlt
    have haligned : 4 ∣ r := hblock.aligned
    have hfirst := (hblock.free r (Nat.le_refl r) (Nat.lt_add_of_pos_right (by decide))).2
    obtain rfl | rfl : r = 0 ∨ r = 4 := by omega
    · exact absurd (hfirst.symm.trans hused.1) (by simp)
    · exact absurd (hfirst.symm.trans hused.2) (by simp)
  obtain ⟨-, haddress, -, hcount⟩ := (allocateAligned_firstFit hready 4 4).1 8 hleast
  exact ⟨haddress, hcount.trans (by decide +kernel)⟩

end PhysicalMemoryManager
end UefiBoot
