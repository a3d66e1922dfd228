import UefiBoot.Lib.Align
import UefiBoot.Memory.Layout

/-!
# `Memory.Heap` — `KernelHeap`, the bump allocator behind `KernelAllocate`

`Init` reserves one contiguous block of frames and `Allocate` only ever moves `m_Current` forward in it.
The scheduler takes every thread stack from here (`kThreadStackSize` bytes each), so the size of the
block bounds how many threads one boot can create; `allocate_bounds` is the fact that bound rests on.
-/

namespace UefiBoot

structure KernelHeap where
  mStart   : UInt64 := 0
  mCurrent : UInt64 := 0
  mEnd     : UInt64 := 0
  deriving DecidableEq, Repr

namespace KernelHeap

/-- `KernelHeap::Init` once `pmm.AllocateContiguous(kHeapInitialPages)` has returned `heapBase ≠ 0`. -/
def atBase (heapBase : UInt64) : KernelHeap :=
  { mStart := heapBase, mCurrent := heapBase, mEnd := heapBase + kHeapInitialPages * kPageSize }

/-- `KernelHeap::Allocate`: the address (0 for `nullptr`) and the heap afterwards. -/
def allocate (h : KernelHeap) (size alignment : UInt64) : UInt64 × KernelHeap :=
  if size = 0 ∨ alignment = 0 then (0, h)
  else
    let aligned := (h.mCurrent + alignment - 1) &&& ~~~(alignment - 1)
    if aligned + size > h.mEnd then (0, h)
    else (aligned, { h with mCurrent := aligned + size })

/-- The block lies in the memory the page allocator manages and the bump pointer inside the block. -/
def InBlock (h : KernelHeap) : Prop :=
  0 < h.mStart ∧ h.mStart ≤ h.mCurrent ∧ h.mCurrent ≤ h.mEnd ∧ h.mEnd ≤ kManagedMemoryLimit

instance (h : KernelHeap) : Decidable h.InBlock := by unfold InBlock; infer_instance

/-- `allocate` either returns null and changes nothing, or returns a block and takes at least `size` bytes
    off the heap. For sizes and alignments that cannot wrap from inside managed memory. -/
theorem allocate_bounds {h : KernelHeap} (hb : h.InBlock) (size alignment : UInt64) {k : Nat}
    (ha : alignment.toNat = 2 ^ k) (hsize : size.toNat < 2 ^ 32) (halign : alignment.toNat < 2 ^ 32) :
    h.allocate size alignment = (0, h) ∨
    ((h.allocate size alignment).1 ≠ 0 ∧ (h.allocate size alignment).2.InBlock ∧
      (h.allocate size alignment).2.mStart = h.mStart ∧ (h.allocate size alignment).2.mEnd = h.mEnd ∧
      h.mCurrent.toNat + size.toNat ≤ (h.allocate size alignment).2.mCurrent.toNat) := by
  obtain ⟨hpos, hlo, hhi, hlim⟩ := hb
  rw [UInt64.lt_iff_toNat_lt] at hpos
  rw [UInt64.le_iff_toNat_le] at hlo hhi hlim
  have hpos' : 0 < h.mStart.toNat := hpos
  have hlim' : h.mEnd.toNat ≤ 2 ^ 32 := hlim
  have hup := Lib.toNat_alignUp_bounds (v := h.mCurrent) ha (by omega)
  unfold allocate
  split
  · exact Or.inl rfl
  · dsimp only
    have haligned : (h.mCurrent + alignment - 1) &&& ~~~(alignment - 1) = Lib.alignUp h.mCurrent alignment := rfl
    rw [haligned]
    have hsum : (Lib.alignUp h.mCurrent alignment + size).toNat
        = (Lib.alignUp h.mCurrent alignment).toNat + size.toNat := by
      rw [UInt64.toNat_add]; omega
    split
    · exact Or.inl rfl
    · rename_i hfit
      rw [gt_iff_lt, UInt64.lt_iff_toNat_lt, hsum] at hfit
      refine Or.inr ⟨fun hz => ?_, ⟨hpos, ?_, ?_, hlim⟩, rfl, rfl, ?_⟩
      · have hz' : (Lib.alignUp h.mCurrent alignment).toNat = 0 := congrArg UInt64.toNat hz
        omega
      · rw [UInt64.le_iff_toNat_le]; dsimp only; rw [hsum]; omega
      · rw [UInt64.le_iff_toNat_le]; dsimp only; rw [hsum]; omega
      · dsimp only; rw [hsum]; omega

end KernelHeap
end UefiBoot
