import UefiBoot.Lib.Run
import UefiBoot.Memory.Heap
import UefiBoot.Memory.Frames

/-!
# `Memory.HeapBlocks` — the blocks that `KernelHeap::Allocate` hands out

`Allocate` aligns the bump pointer, adds the size and compares the sum with the end of the heap. The sum is
a 64-bit word: a size near `2 ^ 64` takes it past zero, the comparison passes, and the bump pointer moves
back. `blocks_sound_iff` says that this is the only way the heap can go wrong: over any requests with
power-of-two alignments, the blocks are aligned, inside the heap and disjoint, and the pointer never moves
back, exactly when no request wraps round into the heap.
-/

namespace UefiBoot
namespace KernelHeap

/-- `KernelHeap::Init`. -/
def init (h : KernelHeap) (pmm : PhysicalMemoryManager) : Bool × KernelHeap × PhysicalMemoryManager :=
  if (pmm.allocateContiguous kHeapInitialPages).1 = 0 then
    (false, h, (pmm.allocateContiguous kHeapInitialPages).2)
  else
    (true, atBase (pmm.allocateContiguous kHeapInitialPages).1, (pmm.allocateContiguous kHeapInitialPages).2)

/-- A successful `Init` gives the heap a block of managed memory. -/
theorem init_inBlock {h : KernelHeap} {pmm : PhysicalMemoryManager} (hinit : (h.init pmm).1 = true) :
    (h.init pmm).2.1.InBlock := by
  have hN := kManagedPageCount_eq
  have hpages : kHeapInitialPages.toNat = 128 := rfl
  unfold init at hinit ⊢
  split at hinit
  · exact absurd hinit (by simp)
  · rename_i hbase
    rw [if_neg hbase]
    have hcases := PhysicalMemoryManager.allocateAligned_cases pmm kHeapInitialPages 1
    rcases hcases with ⟨-, hfail⟩ | ⟨first, -, -, haddr, htakes⟩
    · exact absurd (congrArg Prod.fst hfail) hbase
    · have hin := htakes.inside
      have hto : (pmm.allocateContiguous kHeapInitialPages).1.toNat = first * 4096 := by
        show (pmm.allocateAligned kHeapInitialPages 1).1.toNat = _
        rw [haddr, toNat_frameOf (by omega)]
      have hne : first * 4096 ≠ 0 := by
        intro hz
        apply hbase
        apply UInt64.toNat_inj.mp
        rw [hto, hz]
        rfl
      have hend : ((pmm.allocateContiguous kHeapInitialPages).1 + kHeapInitialPages * kPageSize).toNat
          = first * 4096 + 128 * 4096 := by
        have hsize : (kHeapInitialPages * kPageSize).toNat = 128 * 4096 := rfl
        rw [UInt64.toNat_add, hto, hsize]
        omega
      have hlimit : kManagedMemoryLimit.toNat = 2 ^ 32 := rfl
      refine ⟨?_, ?_, ?_, ?_⟩
      · rw [UInt64.lt_iff_toNat_lt]
        show 0 < (pmm.allocateContiguous kHeapInitialPages).1.toNat
        omega
      · exact UInt64.le_refl _
      · rw [UInt64.le_iff_toNat_le]
        show (pmm.allocateContiguous kHeapInitialPages).1.toNat ≤ UInt64.toNat (_ + _)
        omega
      · rw [UInt64.le_iff_toNat_le]
        show UInt64.toNat (_ + _) ≤ _
        omega

/-- A request for `size` bytes at a power-of-two alignment. -/
structure Request where
  size      : UInt64
  alignment : UInt64
  pow2      : ∃ k, alignment.toNat = 2 ^ k

/-- The heap with the blocks it has handed out and the value `m_Current` had before the last request. -/
structure Use where
  heap   : KernelHeap
  blocks : List (UInt64 × Request) := []
  before : UInt64

/-- Nothing handed out yet. -/
def Use.start (h : KernelHeap) : Use := { heap := h, before := h.mCurrent }

/-- `Allocate` on one request. -/
def Use.serve (u : Use) (r : Request) : Use :=
  { heap := (u.heap.allocate r.size r.alignment).2
    blocks := if (u.heap.allocate r.size r.alignment).1 = 0 then u.blocks
      else ((u.heap.allocate r.size r.alignment).1, r) :: u.blocks
    before := u.heap.mCurrent }

/-- The blocks as ranges of integers: they do not overlap. -/
def Apart (b c : UInt64 × Request) : Prop :=
  b.1.toNat + b.2.size.toNat ≤ c.1.toNat ∨ c.1.toNat + c.2.size.toNat ≤ b.1.toNat

/-- **Every block is aligned and inside the heap, no two overlap, and the last request did not move the bump
    pointer back.** -/
structure Use.Sound (u : Use) : Prop where
  aligned : ∀ b ∈ u.blocks, b.1.toNat % b.2.alignment.toNat = 0
  inside  : ∀ b ∈ u.blocks, u.heap.mStart ≤ b.1 ∧ b.1.toNat + b.2.size.toNat ≤ u.heap.mEnd.toNat
  apart   : u.blocks.Pairwise Apart
  forward : u.before ≤ u.heap.mCurrent

/-- The request does not wrap round into the heap: the aligned pointer plus the size stays below `2 ^ 64`, or
    what is left of the sum is past the end of the heap. -/
def Use.NoWrap (u : Use) (r : Request) : Prop :=
  r.size = 0 ∨ (Lib.alignUp u.heap.mCurrent r.alignment).toNat + r.size.toNat < 2 ^ 64 ∨
  u.heap.mEnd < Lib.alignUp u.heap.mCurrent r.alignment + r.size

/-- What the safe requests keep: the blocks lie below the bump pointer. -/
structure Use.Below (u : Use) : Prop extends Use.Sound u where
  inBlock : u.heap.InBlock
  below   : ∀ b ∈ u.blocks, b.1.toNat + b.2.size.toNat ≤ u.heap.mCurrent.toNat

/-- A power of two is at most `2 ^ 63`, so aligning an address of managed memory does not wrap. -/
theorem Request.alignment_le (r : Request) : 0 < r.alignment.toNat ∧ r.alignment.toNat ≤ 2 ^ 63 := by
  obtain ⟨k, hk⟩ := r.pow2
  have hlt := r.alignment.toNat_lt
  have hk64 : k < 64 := by
    by_contra hge
    have := Nat.pow_le_pow_right (n := 2) (by omega) (show 64 ≤ k by omega)
    omega
  have hle := Nat.pow_le_pow_right (n := 2) (by omega) (show k ≤ 63 by omega)
  have hpos := Nat.two_pow_pos k
  omega

section Serve

variable {u : Use} {r : Request}

/-- The aligned bump pointer of a heap in its block. -/
theorem aligned_bounds (hb : u.heap.InBlock) (r : Request) :
    (Lib.alignUp u.heap.mCurrent r.alignment).toNat % r.alignment.toNat = 0 ∧
    u.heap.mCurrent.toNat ≤ (Lib.alignUp u.heap.mCurrent r.alignment).toNat ∧
    Lib.alignUp u.heap.mCurrent r.alignment ≠ 0 := by
  obtain ⟨hpos, hlo, hhi, hlim⟩ := hb
  rw [UInt64.lt_iff_toNat_lt] at hpos
  rw [UInt64.le_iff_toNat_le] at hlo hhi hlim
  have hpos' : 0 < u.heap.mStart.toNat := hpos
  have hlim' : u.heap.mEnd.toNat ≤ 2 ^ 32 := hlim
  obtain ⟨hal, hal'⟩ := r.alignment_le
  obtain ⟨k, hk⟩ := r.pow2
  have hup := Lib.toNat_alignUp_bounds (v := u.heap.mCurrent) hk (by omega)
  refine ⟨Lib.toNat_alignDown_mod hk, hup.1, fun hz => ?_⟩
  have hval := congrArg UInt64.toNat hz
  have hzero : (0 : UInt64).toNat = 0 := rfl
  omega

/-- `Allocate` by cases, over the aligned bump pointer. -/
theorem allocate_cases (h : KernelHeap) (r : Request) :
    h.allocate r.size r.alignment =
      if r.size = 0 ∨ h.mEnd < Lib.alignUp h.mCurrent r.alignment + r.size then (0, h)
      else (Lib.alignUp h.mCurrent r.alignment,
        { h with mCurrent := Lib.alignUp h.mCurrent r.alignment + r.size }) := by
  have hne : r.alignment ≠ 0 := by
    intro hz
    have := r.alignment_le.1
    rw [hz] at this
    exact absurd this (by decide)
  have halign : (h.mCurrent + r.alignment - 1) &&& ~~~(r.alignment - 1) = Lib.alignUp h.mCurrent r.alignment :=
    rfl
  unfold allocate
  simp only [halign, hne, or_false, gt_iff_lt]
  by_cases hsize : r.size = 0
  · simp only [hsize, if_true, true_or]
  · simp only [hsize, if_false, false_or]

/-- A request that gets no block. -/
theorem serve_null (hnull : r.size = 0 ∨ u.heap.mEnd < Lib.alignUp u.heap.mCurrent r.alignment + r.size) :
    u.serve r = { u with before := u.heap.mCurrent } := by
  unfold Use.serve
  rw [allocate_cases, if_pos hnull]
  rfl

/-- A request that gets a block. -/
theorem serve_block (hb : u.heap.InBlock)
    (hfit : ¬ (r.size = 0 ∨ u.heap.mEnd < Lib.alignUp u.heap.mCurrent r.alignment + r.size)) :
    u.serve r =
      { heap := { u.heap with mCurrent := Lib.alignUp u.heap.mCurrent r.alignment + r.size }
        blocks := (Lib.alignUp u.heap.mCurrent r.alignment, r) :: u.blocks
        before := u.heap.mCurrent } := by
  unfold Use.serve
  rw [allocate_cases, if_neg hfit]
  simp only [if_neg (aligned_bounds hb r).2.2]

/-- **Step lemma.** A request that does not wrap keeps the blocks sound and below the bump pointer. -/
theorem Use.Below.serve (h : u.Below) (hsafe : u.NoWrap r) : (u.serve r).Below := by
  by_cases hnull : r.size = 0 ∨ u.heap.mEnd < Lib.alignUp u.heap.mCurrent r.alignment + r.size
  · rw [serve_null hnull]
    exact ⟨⟨h.aligned, h.inside, h.apart, UInt64.le_refl _⟩, h.inBlock, h.below⟩
  · rw [serve_block h.inBlock hnull]
    obtain ⟨hmod, hge, -⟩ := aligned_bounds h.inBlock r
    obtain ⟨hpos, hlo, hhi, hlim⟩ := h.inBlock
    have hfit : (Lib.alignUp u.heap.mCurrent r.alignment).toNat + r.size.toNat < 2 ^ 64 := by
      rcases hsafe with hz | hlt | hpast
      · exact absurd (Or.inl hz) hnull
      · exact hlt
      · exact absurd (Or.inr hpast) hnull
    have hsum : (Lib.alignUp u.heap.mCurrent r.alignment + r.size).toNat
        = (Lib.alignUp u.heap.mCurrent r.alignment).toNat + r.size.toNat := by
      rw [UInt64.toNat_add]
      omega
    have hend : (Lib.alignUp u.heap.mCurrent r.alignment).toNat + r.size.toNat ≤ u.heap.mEnd.toNat := by
      have hle := UInt64.not_lt.mp fun hlt => hnull (Or.inr hlt)
      rw [UInt64.le_iff_toNat_le, hsum] at hle
      exact hle
    rw [UInt64.le_iff_toNat_le] at hlo
    constructor
    · constructor
      · intro b hb
        rcases List.mem_cons.mp hb with rfl | hb
        · exact hmod
        · exact h.aligned b hb
      · intro b hb
        rcases List.mem_cons.mp hb with rfl | hb
        · refine ⟨?_, hend⟩
          rw [UInt64.le_iff_toNat_le]
          exact hlo.trans hge
        · exact h.inside b hb
      · rw [List.pairwise_cons]
        refine ⟨fun b hb => Or.inr ?_, h.apart⟩
        exact (h.below b hb).trans hge
      · rw [UInt64.le_iff_toNat_le]
        show u.heap.mCurrent.toNat ≤ UInt64.toNat (_ + _)
        omega
    · refine ⟨hpos, ?_, ?_, hlim⟩
      · rw [UInt64.le_iff_toNat_le]
        show u.heap.mStart.toNat ≤ UInt64.toNat (_ + _)
        omega
      · rw [UInt64.le_iff_toNat_le]
        show UInt64.toNat (_ + _) ≤ u.heap.mEnd.toNat
        omega
    · intro b hb
      show b.1.toNat + b.2.size.toNat ≤ UInt64.toNat (_ + _)
      rcases List.mem_cons.mp hb with rfl | hb
      · exact hsum.ge
      · have := h.below b hb
        omega

/-- A request that wraps round into the heap is handed a block that reaches past its end. -/
theorem Use.Below.safe (h : u.Below) (hsound : (u.serve r).Sound) : u.NoWrap r := by
  by_contra hwrap
  unfold Use.NoWrap at hwrap
  push Not at hwrap
  obtain ⟨hsize, hbig, hle⟩ := hwrap
  have hnull : ¬ (r.size = 0 ∨ u.heap.mEnd < Lib.alignUp u.heap.mCurrent r.alignment + r.size) := by
    rintro (hz | hlt)
    · exact hsize hz
    · exact hle hlt
  rw [serve_block h.inBlock hnull] at hsound
  have hin := (hsound.inside _ (List.mem_cons_self ..)).2
  have hend := u.heap.mEnd.toNat_lt
  have hin' : (Lib.alignUp u.heap.mCurrent r.alignment).toNat + r.size.toNat ≤ u.heap.mEnd.toNat := hin
  omega

end Serve

/-- **When the heap is sound.** After a successful `Init`, in every state of a run of requests the blocks
    are aligned, inside the heap and disjoint and the bump pointer has not moved back, exactly when no
    request wraps round into the heap. -/
theorem blocks_sound_iff (h : KernelHeap) (pmm : PhysicalMemoryManager) (hinit : (h.init pmm).1 = true)
    (rs : List Request) :
    Lib.Throughout Use.serve Use.Sound (Use.start (h.init pmm).2.1) rs ↔
      Lib.Along Use.serve Use.NoWrap (Use.start (h.init pmm).2.1) rs := by
  apply Lib.throughout_iff_of_safe (B := Use.Below)
  · intro u r hu hsafe
    exact hu.serve hsafe
  · intro u hu
    exact hu.toSound
  · intro u r hu hsound
    exact hu.safe hsound
  · constructor
    · constructor
      · intro b hb
        exact absurd hb List.not_mem_nil
      · intro b hb
        exact absurd hb List.not_mem_nil
      · exact .nil
      · exact UInt64.le_refl _
    · exact init_inBlock hinit
    · intro b hb
      exact absurd hb List.not_mem_nil

/-- An allocator whose only free pages are the 128 from 1 MiB on. -/
def oneHeapFree : PhysicalMemoryManager :=
  { bitmap := fun i => if 32 ≤ i ∧ i < 48 then 0 else 0xFF
    mTotalPages := 384, mFreePages := 128, mUsedPages := 0xFFF80 }

/-- A page and then 24 bytes, at their alignments. -/
theorem blocks_sound_iff_twoRequests :
    (KernelHeap.init {} oneHeapFree).1 = true ∧
    Lib.Throughout Use.serve Use.Sound (Use.start (KernelHeap.init {} oneHeapFree).2.1)
      [⟨4096, 4096, 12, rfl⟩, ⟨24, 16, 4, rfl⟩] := by
  have hinit : (KernelHeap.init {} oneHeapFree).1 = true := by decide +kernel
  refine ⟨hinit, (blocks_sound_iff {} oneHeapFree hinit _).mpr ⟨?_, ?_, trivial⟩⟩
  · right; left
    decide +kernel
  · right; left
    decide +kernel

/-- The first request of a fresh heap asks for `2 ^ 64 - 16` bytes and gets them. -/
theorem huge_request_wraps :
    (KernelHeap.init {} oneHeapFree).1 = true ∧
    ¬ Lib.Throughout Use.serve Use.Sound (Use.start (KernelHeap.init {} oneHeapFree).2.1)
      [⟨0xFFFFFFFFFFFFFFF0, 16, 4, rfl⟩] := by
  refine ⟨by decide +kernel, fun h => ?_⟩
  have hforward : ¬ (Use.start (KernelHeap.init {} oneHeapFree).2.1).heap.mCurrent ≤
      ((Use.start (KernelHeap.init {} oneHeapFree).2.1).serve
        ⟨0xFFFFFFFFFFFFFFF0, 16, 4, rfl⟩).heap.mCurrent := by decide +kernel
  exact hforward h.last.forward

end KernelHeap
end UefiBoot
