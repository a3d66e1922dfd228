import Mathlib.Tactic

/-!
# `Memory.Layout` — the sizes the memory managers share

The constants of `kernel.cpp`. Those that size a table are `Nat`, as the table is a function on `Fin`;
those that enter address arithmetic are 64-bit words.
-/

namespace UefiBoot

def kEfiConventionalMemory : UInt32 := 7
def kPageSize : UInt64 := 4096
def kManagedMemoryLimit : UInt64 := 0x100000000
def kHeapInitialPages : UInt64 := 128
abbrev kCowTrackedPages : Nat := 128
abbrev kSharedSegmentCount : Nat := 8
abbrev kSharedSegmentMaxPages : Nat := 4
abbrev kSlabCacheCount : Nat := 4
def kHugePageSize : UInt64 := 2 * 1024 * 1024
def kHugePagePages : UInt64 := kHugePageSize / kPageSize
abbrev kNumaNodeCount : Nat := 4
abbrev kMemoryMappingCount : Nat := 16
abbrev kMappingMaxPages : Nat := 16
abbrev kSwapSlotCount : Nat := 16
abbrev kPageCacheEntryCount : Nat := 16

/-- Irreducible, so that no proof counts to a million. -/
@[irreducible] def kManagedPageCount : Nat := (kManagedMemoryLimit / kPageSize).toNat

theorem kManagedPageCount_eq : kManagedPageCount = 2 ^ 20 := by unfold kManagedPageCount; rfl

@[simp] theorem toNat_kPageSize : kPageSize.toNat = 4096 := rfl

end UefiBoot
