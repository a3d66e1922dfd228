import UefiBoot.Lib.Run
import UefiBoot.Memory.CopyOnWrite
import UefiBoot.Memory.HeapBlocks
import UefiBoot.Memory.InitMap
import UefiBoot.Memory.MappingFrames
import UefiBoot.Memory.Paging
import UefiBoot.Memory.SharedMemory
import UefiBoot.Memory.Slab
import UefiBoot.Memory.Swap

/-!
# `Memory.Ownership` — no frame has two owners

All managers take their frames from one allocator. The ledger of the system has a place for every entry of every
manager that can record a frame, for every page of the heap, and for every page that a direct caller of the allocator
holds. An operation moves frames in its own part of the ledger, which is a move in the whole (`Steps.left`,
`Steps.right`), and the rest of what a manager keeps does not depend on the allocator.

`kernelMemoryInit` goes up to the probe and the self test, which `Memory.SelfTest` adds.
-/

namespace UefiBoot

/-! ## Huge pages and NUMA nodes -/

structure HugePageManager where
  mPhysicalMemory : Bool := false

namespace HugePageManager

def init (_m : HugePageManager) : HugePageManager := { mPhysicalMemory := true }

def allocate (m : HugePageManager) (pmm : PhysicalMemoryManager) : UInt64 × PhysicalMemoryManager :=
  if m.mPhysicalMemory then pmm.allocateAligned kHugePagePages kHugePagePages else (0, pmm)

def free (m : HugePageManager) (physical : UInt64) (pmm : PhysicalMemoryManager) : PhysicalMemoryManager :=
  if m.mPhysicalMemory ∧ physical ≠ 0 ∧ physical &&& (kHugePageSize - 1) = 0 then
    pmm.freeContiguous physical kHugePagePages
  else pmm

end HugePageManager

/-- `NumaManager::Node`. -/
structure NumaNode where
  id         : UInt32 := 0
  totalPages : UInt64 := 0
  freePages  : UInt64 := 0
  online     : Bool := false

/-- An index into `mNodes` is below `mNodeCount`, which `Init` sets to 1. -/
structure NumaManager where
  mPhysicalMemory : Bool := false
  mNodes          : Nat → NumaNode := fun _ => {}
  mNodeCount      : UInt32 := 0

namespace NumaManager

def init (_m : NumaManager) (pmm : PhysicalMemoryManager) : NumaManager :=
  { mPhysicalMemory := true
    mNodes := fun i => if i = 0 then ⟨0, pmm.mTotalPages, pmm.mFreePages, true⟩ else {}
    mNodeCount := 1 }

def setFreePages (m : NumaManager) (node : UInt32) (freePages : UInt64) : NumaManager :=
  { m with mNodes := Function.update m.mNodes node.toNat { m.mNodes node.toNat with freePages } }

def allocatePage (m : NumaManager) (preferredNode : UInt32) (pmm : PhysicalMemoryManager) :
    UInt64 × NumaManager × PhysicalMemoryManager :=
  if !m.mPhysicalMemory ∨ preferredNode ≥ m.mNodeCount ∨ !(m.mNodes preferredNode.toNat).online then (0, m, pmm)
  else
    let (page, pmm) := pmm.allocatePage
    let freePages := (m.mNodes preferredNode.toNat).freePages
    (page, if page ≠ 0 ∧ freePages ≠ 0 then m.setFreePages preferredNode (freePages - 1) else m, pmm)

def freePage (m : NumaManager) (node : UInt32) (physical : UInt64) (pmm : PhysicalMemoryManager) :
    NumaManager × PhysicalMemoryManager :=
  if !m.mPhysicalMemory ∨ physical = 0 ∨ node ≥ m.mNodeCount then (m, pmm)
  else (m.setFreePages node ((m.mNodes node.toNat).freePages + 1), pmm.freePage physical)

end NumaManager

/-! ## The system -/

/-- The managers and physical memory, and for each direct caller of the allocator the pages that it holds. -/
structure MemorySystem where
  phys      : Physical
  heap      : KernelHeap := {}
  cow       : CopyOnWriteManager := {}
  shared    : SharedMemoryManager := {}
  slab      : SlabAllocator := {}
  hugePages : HugePageManager := {}
  numa      : NumaManager := {}
  swap      : SwapManager := {}
  cache     : PageCache := {}
  maps      : MemoryMappingManager := {}
  direct    : Nat → Nat → Bool := fun _ _ => false

namespace MemorySystem

/-- `KernelMemoryInit` up to its probe and its self test. -/
def kernelMemoryInit (s : MemorySystem) (image : KernelImage) (boot : BootInfo) : Option MemorySystem :=
  let (ok, pmm) := s.phys.pmm.init image boot s.phys.bytes
  if !ok then none
  else
    let (bytes, _) := VirtualMemoryManager.initIdentityMap4GiB image s.phys.bytes
    let (ok, heap, pmm) := s.heap.init pmm
    if !ok then none
    else
      let (ok, slab, phys) := s.slab.init.prime { pmm, bytes }
      if !ok then none
      else
        some
          { phys, heap, slab
            cow := s.cow.init
            shared := s.shared.init
            hugePages := s.hugePages.init
            numa := s.numa.init pmm
            swap := s.swap.init
            cache := s.cache.init
            maps := s.maps.init
            direct := fun _ _ => false }

/-- The mappings with what their two pointers lead to. -/
def mapped (s : MemorySystem) : Mapped := ⟨s.maps, s.cache, s.phys⟩

def withMapped (s : MemorySystem) (t : Mapped) : MemorySystem :=
  { s with maps := t.maps, cache := t.cache, phys := t.phys }

inductive Action where
  | kernelAllocate (size alignment : UInt64)
  | cowAllocatePage
  | cowClonePage (physical : UInt64)
  | cowResolveWrite (physical : UInt64)
  | cowReleasePage (physical : UInt64)
  | sharedCreate (pageCount : UInt64)
  | sharedAttach (id : UInt64)
  | sharedRelease (id : UInt64)
  | slabAllocate (size : UInt64)
  | slabFree (object size : UInt64)
  | swapOut (physical : UInt64)
  | swapIn (slot : UInt32) (destination : UInt64)
  | map (fileId length : UInt64) (writable demandPaged : Bool)
  | handlePageFault (address : UInt64) (write : Bool)
  | unmap (address : UInt64)
  | evict (fileId pageOffset : UInt64)
  | store (address : UInt64) (value : UInt8)
  | allocateAligned (caller : Nat) (pageCount alignmentPages : UInt64)
  | freePage (caller : Nat) (address : UInt64)
  | freeContiguous (caller : Nat) (address pageCount : UInt64)
  | hugeAllocate (caller : Nat)
  | hugeFree (caller : Nat) (physical : UInt64)
  | numaAllocatePage (caller : Nat) (node : UInt32)
  | numaFreePage (caller : Nat) (node : UInt32) (physical : UInt64)
  deriving DecidableEq, Repr

/-- The caller has `pageCount` pages from the address that it got, unless that is 0. -/
def takeBlock (s : MemorySystem) (caller : Nat) (answer : UInt64 × PhysicalMemoryManager) (pageCount : UInt64) :
    MemorySystem :=
  { s with
    phys := { s.phys with pmm := answer.2 }
    direct := Function.update s.direct caller fun page => s.direct caller page ||
      (answer.1 != 0 && decide (pageOf answer.1 ≤ page) && decide (page < pageOf answer.1 + pageCount.toNat)) }

/-- The caller gives back pages that it holds itself; it makes no other call. -/
def giveBack (s : MemorySystem) (caller : Nat) (pages : List Nat) (pmm : PhysicalMemoryManager) : MemorySystem :=
  if pages.all (s.direct caller) then
    { s with
      phys := { s.phys with pmm }
      direct := Function.update s.direct caller fun page => s.direct caller page && decide (page ∉ pages) }
  else s

/-- The pages that `FreeContiguous` marks. -/
def freedPages (address pageCount : UInt64) : List Nat :=
  if address &&& (kPageSize - 1) = 0 ∧ pageCount ≠ 0 then markedPages (address / kPageSize) pageCount else []

/-- One call. -/
def step (s : MemorySystem) : Action → MemorySystem
  | .kernelAllocate size alignment => { s with heap := (s.heap.allocate size alignment).2 }
  | .cowAllocatePage => { s with cow := (s.cow.allocatePage s.phys).2.1, phys := (s.cow.allocatePage s.phys).2.2 }
  | .cowClonePage physical => { s with cow := (s.cow.clonePage physical).2 }
  | .cowResolveWrite physical =>
    { s with cow := (s.cow.resolveWrite physical s.phys).2.1, phys := (s.cow.resolveWrite physical s.phys).2.2 }
  | .cowReleasePage physical =>
    { s with cow := (s.cow.releasePage physical s.phys).1, phys := (s.cow.releasePage physical s.phys).2 }
  | .sharedCreate pageCount =>
    { s with shared := (s.shared.create pageCount s.phys).2.1, phys := (s.shared.create pageCount s.phys).2.2 }
  | .sharedAttach id => { s with shared := (s.shared.attach id).2 }
  | .sharedRelease id =>
    { s with shared := (s.shared.release id s.phys).1, phys := (s.shared.release id s.phys).2 }
  | .slabAllocate size =>
    { s with slab := (s.slab.allocate size s.phys).2.1, phys := (s.slab.allocate size s.phys).2.2 }
  | .slabFree object size =>
    { s with slab := (s.slab.free object size s.phys).2.1, phys := (s.slab.free object size s.phys).2.2 }
  | .swapOut physical =>
    { s with swap := (s.swap.swapOut physical s.phys).2.1, phys := (s.swap.swapOut physical s.phys).2.2 }
  | .swapIn slot destination =>
    { s with swap := (s.swap.swapIn slot destination s.phys).2.1,
             phys := (s.swap.swapIn slot destination s.phys).2.2 }
  | .map fileId length writable demandPaged =>
    s.withMapped (s.mapped.map fileId length writable demandPaged).2
  | .handlePageFault address write => s.withMapped (s.mapped.handlePageFault address write).2
  | .unmap address => s.withMapped (s.mapped.unmap address).2
  | .evict fileId pageOffset =>
    { s with
      cache := (s.cache.evict fileId pageOffset s.phys).2.1
      phys := (s.cache.evict fileId pageOffset s.phys).2.2 }
  | .store address value => { s with phys := { s.phys with bytes := Function.update s.phys.bytes address value } }
  | .allocateAligned caller pageCount alignmentPages =>
    s.takeBlock caller (s.phys.pmm.allocateAligned pageCount alignmentPages) pageCount
  | .freePage caller address => s.giveBack caller (markedPages (address / kPageSize) 1) (s.phys.pmm.freePage address)
  | .freeContiguous caller address pageCount =>
    s.giveBack caller (freedPages address pageCount) (s.phys.pmm.freeContiguous address pageCount)
  | .hugeAllocate caller => s.takeBlock caller (s.hugePages.allocate s.phys.pmm) kHugePagePages
  | .hugeFree caller physical =>
    s.giveBack caller
      (if s.hugePages.mPhysicalMemory ∧ physical ≠ 0 ∧ physical &&& (kHugePageSize - 1) = 0 then
        freedPages physical kHugePagePages else [])
      (s.hugePages.free physical s.phys.pmm)
  | .numaAllocatePage caller node =>
    { s with numa := (s.numa.allocatePage node s.phys.pmm).2.1 }.takeBlock caller
      ((s.numa.allocatePage node s.phys.pmm).1, (s.numa.allocatePage node s.phys.pmm).2.2) 1
  | .numaFreePage caller node physical =>
    if !s.numa.mPhysicalMemory ∨ physical = 0 ∨ node ≥ s.numa.mNodeCount then s
    else
      { s with numa := (s.numa.freePage node physical s.phys.pmm).1 }.giveBack caller
        (markedPages (physical / kPageSize) 1) (s.numa.freePage node physical s.phys.pmm).2

/-! ## Who owns what -/

/-- Every place that can record a frame: the entries of the five managers and of the page cache, the pages of the
    heap, and the pages of each direct caller. -/
abbrev Place : Type :=
  Fin kCowTrackedPages ⊕ (Fin kSharedSegmentCount × Fin kSharedSegmentMaxPages) ⊕ Fin kSlabCacheCount ⊕
    Fin kSwapSlotCount ⊕ ((Fin kMemoryMappingCount × Nat) ⊕ Fin kPageCacheEntryCount) ⊕ Nat ⊕ (Nat × Nat)

/-- The frames of a set of pages, each in the place of its page. -/
def holdsPages (held : Nat → Bool) (page : Nat) : Option UInt64 := if held page then some (frameOf page) else none

/-- The frames of the pages that each caller holds. -/
def holdsDirect (direct : Nat → Nat → Bool) (q : Nat × Nat) : Option UInt64 := holdsPages (direct q.1) q.2

/-- The pages from `mStart` to `mEnd`. -/
def heapPages (heap : KernelHeap) (page : Nat) : Bool :=
  decide (heap.mStart.toNat / 4096 ≤ page) && decide (page < heap.mEnd.toNat / 4096)

def holds (s : MemorySystem) : Place → Option UInt64 :=
  Sum.elim (fun i => (s.cow.mPages i).frame) <|
  Sum.elim (fun q => (s.shared.mSegments q.1).frame q.2) <|
  Sum.elim (fun i => (s.slab.mCaches i).frame) <|
  Sum.elim (fun i => (s.swap.mSlots i).frame) <|
  Sum.elim (Sum.elim s.maps.holds fun e => (s.cache.mEntries e).frame) <|
  Sum.elim (holdsPages (heapPages s.heap)) (holdsDirect s.direct)

/-- **No frame has two owners**, and every owned frame is in use. -/
structure OneOwner (s : MemorySystem) : Prop where
  unique : ∀ p q a, s.holds p = some a → s.holds q = some a → p = q
  used   : ∀ p a, s.holds p = some a → IsFrame a ∧ s.phys.pmm.isPageFree (pageOf a) = false

def ledger (s : MemorySystem) : Lib.Ledger Place UInt64 := Lib.Ledger.mk s.holds s.phys.pmm.Taken

/-- The invariant: the ledger, and what each manager keeps for itself. -/
structure Good (s : MemorySystem) : Prop where
  ready    : s.phys.pmm.Ready
  sound    : s.ledger.Sound 0
  positive : ∀ i, (s.cow.mPages i).active = true → (s.cow.mPages i).references ≠ 0
  idle     : ∀ i, (s.shared.mSegments i).active = false → s.shared.mSegments i = {}
  whole    : ∀ i, (s.shared.mSegments i).active = true → SharedSegment.Whole (s.shared.mSegments i)
  keys     : s.cache.KeysDistinct
  bounded  : Mapped.Bounded s.maps

variable {s : MemorySystem}

theorem Good.oneOwner (h : Good s) : OneOwner s :=
  ⟨fun _ _ _ => h.sound.unique, fun _ _ hp => h.sound.taken hp⟩

/-! ### The managers -/

section Parts

variable {phys : Physical}

theorem Good.cowInv (h : Good s) : CopyOnWriteManager.Inv s.cow s.phys := ⟨h.ready, h.sound.left, h.positive⟩

/-- A call of `CopyOnWriteManager` changes nothing, or has an effect. -/
theorem Good.withCow (h : Good s) {cow : CopyOnWriteManager} (hcall : cow = s.cow ∧ phys = s.phys ∨
    ∃ change, CopyOnWriteManager.Effect s.cow s.phys change cow phys) : Good { s with cow, phys } := by
  rcases hcall with ⟨rfl, rfl⟩ | ⟨change, heff⟩
  · exact h
  · have hinv := heff.inv h.cowInv
    have hsteps := (heff.steps h.cowInv.sound).left h.sound
    exact ⟨hinv.ready, hsteps.sound h.sound, hinv.positive, h.idle, h.whole, h.keys, h.bounded⟩

theorem Good.sharedInv (h : Good s) : SharedMemoryManager.Inv s.shared s.phys :=
  ⟨h.ready, h.sound.right.left, h.idle, h.whole⟩

theorem Good.withShared (h : Good s) {shared : SharedMemoryManager} (hcall : shared = s.shared ∧ phys = s.phys ∨
    ∃ change, SharedMemoryManager.Effect s.shared s.phys change shared phys) : Good { s with shared, phys } := by
  rcases hcall with ⟨rfl, rfl⟩ | ⟨change, heff⟩
  · exact h
  · have hinv := heff.inv h.sharedInv
    have hsteps := ((heff.steps h.sharedInv).left h.sound.right).right h.sound
    exact ⟨hinv.ready, hsteps.sound h.sound, h.positive, hinv.idle, hinv.whole, h.keys, h.bounded⟩

theorem Good.withSlab (h : Good s) {slab : SlabAllocator} (hready : phys.pmm.Ready)
    (hsteps : Lib.Ledger.Steps (s.slab.ledger s.phys) (slab.ledger phys)) : Good { s with slab, phys } :=
  ⟨hready, (((hsteps.left h.sound.right.right).right h.sound.right).right h.sound).sound h.sound, h.positive, h.idle,
    h.whole, h.keys, h.bounded⟩

theorem Good.swapInv (h : Good s) : SwapManager.Inv s.swap s.phys := ⟨h.ready, h.sound.right.right.right.left⟩

theorem Good.withSwap (h : Good s) {swap : SwapManager} (hcall : swap = s.swap ∧ phys = s.phys ∨
    ∃ change, SwapManager.Effect s.swap s.phys change swap phys) : Good { s with swap, phys } := by
  rcases hcall with ⟨rfl, rfl⟩ | ⟨change, heff⟩
  · exact h
  · have hinv := heff.inv h.swapInv
    have hsteps := ((((heff.steps h.swapInv.sound).left h.sound.right.right.right).right h.sound.right.right).right
      h.sound.right).right h.sound
    exact ⟨hinv.ready, hsteps.sound h.sound, h.positive, h.idle, h.whole, h.keys, h.bounded⟩

theorem Good.owned (h : Good s) : Mapped.Owned s.mapped :=
  ⟨h.ready, h.sound.right.right.right.right.left, h.keys, h.bounded⟩

theorem Good.withMapped (h : Good s) {t : Mapped} (hmoves : Mapped.Moves s.mapped t) : Good (s.withMapped t) :=
  ⟨hmoves.owned.ready,
    (((((hmoves.steps.left h.sound.right.right.right.right).right h.sound.right.right.right).right
      h.sound.right.right).right h.sound.right).right h.sound).sound h.sound,
    h.positive, h.idle, h.whole, hmoves.owned.keys, hmoves.owned.bounded⟩

theorem Good.withNuma (h : Good s) (numa : NumaManager) : Good { s with numa } :=
  ⟨h.ready, h.sound, h.positive, h.idle, h.whole, h.keys, h.bounded⟩

/-- Direct callers move frames. -/
theorem Good.withDirect (h : Good s) {direct : Nat → Nat → Bool} {pmm : PhysicalMemoryManager} (hready : pmm.Ready)
    (hsteps : Lib.Ledger.Steps (Lib.Ledger.mk (holdsDirect s.direct) s.phys.pmm.Taken)
      (Lib.Ledger.mk (holdsDirect direct) pmm.Taken)) : Good { s with direct, phys := { s.phys with pmm } } :=
  ⟨hready,
    ((((((hsteps.right h.sound.right.right.right.right.right).right h.sound.right.right.right.right).right
      h.sound.right.right.right).right h.sound.right.right).right h.sound.right).right h.sound).sound h.sound,
    h.positive, h.idle, h.whole, h.keys, h.bounded⟩

theorem Good.directSound (h : Good s) : (Lib.Ledger.mk (holdsDirect s.direct) s.phys.pmm.Taken).Sound 0 :=
  h.sound.right.right.right.right.right.right

end Parts

/-! ### Direct callers -/

section Direct

open PhysicalMemoryManager

variable {pmm : PhysicalMemoryManager} {caller first n : Nat}

/-- A block of free pages goes to places named by a page. -/
theorem taken_block {P : Type*} {holds holds' : P → Option UInt64} (place : Nat → P)
    (htakes : Takes s.phys.pmm pmm first n)
    (hholds : ∀ p a, holds' p = some a → holds p = some a ∨
      ∃ page, p = place page ∧ first ≤ page ∧ page < first + n ∧ a = frameOf page) :
    Lib.Ledger.Step (Lib.Ledger.mk holds s.phys.pmm.Taken) (Lib.Ledger.mk holds' pmm.Taken) := by
  refine .grant {a | IsFrame a ∧ first ≤ pageOf a ∧ pageOf a < first + n} (fun a => place (pageOf a)) ?_ ?_ ?_
  · rintro a ⟨-, hlo, hhi⟩
    exact not_taken_of_free (htakes.free _ hlo hhi)
  · intro p a hp
    rcases hholds p a hp with hold | ⟨page, hplace, hlo, hhi, rfl⟩
    · exact Or.inl hold
    · have hin : page < kManagedPageCount := lt_of_lt_of_le hhi htakes.inside
      have hpage := pageOf_frameOf hin
      exact Or.inr ⟨⟨isFrame_frameOf hin, hpage.symm ▸ hlo, hpage.symm ▸ hhi⟩, hpage.symm ▸ hplace⟩
  · intro a
    show pmm.Taken a ↔ (IsFrame a ∧ first ≤ pageOf a ∧ pageOf a < first + n) ∨ s.phys.pmm.Taken a
    unfold Taken
    rw [htakes.pages]
    by_cases hin : first ≤ pageOf a ∧ pageOf a < first + n
    · rw [if_pos hin]
      exact ⟨fun h => Or.inl ⟨h.1, hin⟩, fun h => ⟨h.elim And.left And.left, rfl⟩⟩
    · rw [if_neg hin]
      exact ⟨Or.inr, fun h => h.elim (fun h => absurd h.2 hin) id⟩

/-- **A direct release** of pages that the caller holds. -/
theorem Good.giveBack (h : Good s) (caller : Nat) {pages : List Nat} (hexact : pmm.Exact)
    (hpages : ∀ page, pmm.isPageFree page = if page ∈ pages then true else s.phys.pmm.isPageFree page) :
    Good (s.giveBack caller pages pmm) := by
  unfold MemorySystem.giveBack
  split
  case isFalse => exact h
  case isTrue hall =>
    have hheld : ∀ page ∈ pages, holdsDirect s.direct (caller, page) = some (frameOf page) := by
      intro page hmem
      unfold holdsDirect holdsPages
      exact if_pos (List.all_eq_true.mp hall page hmem)
    -- frame 0 is nobody's
    have hzero : 0 ∉ pages := fun hmem => h.directSound.unheld (hheld 0 hmem) rfl
    have hready : pmm.Ready := by
      refine ⟨hexact, ?_⟩
      rw [hpages, if_neg hzero]
      exact h.ready.zeroUsed
    apply h.withDirect hready
    apply Relation.ReflTransGen.single
    refine .revoke {a | IsFrame a ∧ pageOf a ∈ pages} ?_ ?_ ?_
    · rintro a ⟨hframe, hmem⟩
      refine ⟨(caller, pageOf a), ?_⟩
      rw [hframe.eq_frameOf, pageOf_frameOf hframe.2]
      exact hheld _ hmem
    · rintro ⟨c, page⟩ a ha
      have hold : holdsDirect s.direct (c, page) = some a ∧ (c = caller → page ∉ pages) := by
        unfold holdsDirect holdsPages at ha ⊢
        dsimp only at ha ⊢
        by_cases hc : c = caller
        · subst hc
          rw [Function.update_self] at ha
          split at ha
          · rename_i hkept
            simp only [Bool.and_eq_true, decide_eq_true_eq] at hkept
            exact ⟨(if_pos hkept.1).trans ha, fun _ => hkept.2⟩
          · exact absurd ha (by simp)
        · rw [Function.update_of_ne hc] at ha
          exact ⟨ha, fun hself => absurd hself hc⟩
      refine ⟨hold.1, ?_⟩
      rintro ⟨hframe, hmem⟩
      -- the caller holds that frame as well, so the two places are one
      have hsame := hheld _ hmem
      rw [← hframe.eq_frameOf] at hsame
      have hplace := h.directSound.unique hold.1 hsame
      rw [Prod.mk.injEq] at hplace
      exact hold.2 hplace.1 (hplace.2 ▸ hmem)
    · intro a
      show pmm.Taken a ↔ s.phys.pmm.Taken a ∧ ¬ (IsFrame a ∧ pageOf a ∈ pages)
      unfold Taken
      rw [hpages]
      by_cases hmem : pageOf a ∈ pages
      · rw [if_pos hmem]
        exact ⟨fun h => absurd h.2 (by simp), fun h => absurd ⟨h.1.1, hmem⟩ h.2⟩
      · rw [if_neg hmem]
        exact ⟨fun h => ⟨h, fun hfreed => hmem hfreed.2⟩, And.left⟩

/-- A caller that got no block has no page more, and who frees no page keeps all. -/
theorem Good.takeNothing (h : Good s) (caller : Nat) (pageCount : UInt64) :
    Good (s.takeBlock caller (0, s.phys.pmm) pageCount) := by
  unfold MemorySystem.takeBlock
  apply h.withDirect h.ready
  have hsame : (fun page => s.direct caller page || ((0 : UInt64) != 0 && decide (pageOf 0 ≤ page) &&
      decide (page < pageOf 0 + pageCount.toNat))) = s.direct caller := by
    funext page
    simp
  rw [hsame, Function.update_eq_self]

theorem Good.giveNothing (h : Good s) (caller : Nat) : Good (s.giveBack caller [] s.phys.pmm) := by
  apply h.giveBack caller h.ready.exact
  intro page
  rw [if_neg List.not_mem_nil]

/-- **A direct allocation** fails, or its pages go to the caller. -/
theorem Good.takeBlock (h : Good s) (caller : Nat) (pageCount alignmentPages : UInt64) :
    Good (s.takeBlock caller (s.phys.pmm.allocateAligned pageCount alignmentPages) pageCount) := by
  rcases allocateAligned_cases s.phys.pmm pageCount alignmentPages with ⟨-, hfail⟩ | ⟨first, -, hn, haddr, htakes⟩
  · rw [hfail]
    exact h.takeNothing caller pageCount
  · unfold MemorySystem.takeBlock
    apply h.withDirect (h.ready.allocateAligned pageCount alignmentPages)
    have hin : first < kManagedPageCount := by
      have := htakes.inside
      omega
    apply Relation.ReflTransGen.single
    apply taken_block (fun page => (caller, page)) htakes
    rintro ⟨c, page⟩ a ha
    unfold holdsDirect holdsPages at ha ⊢
    dsimp only at ha ⊢
    by_cases hc : c = caller
    · subst hc
      rw [Function.update_self, haddr, pageOf_frameOf hin] at ha
      by_cases hheld : s.direct c page = true
      · rw [if_pos hheld]
        rw [hheld, Bool.true_or, if_pos rfl] at ha
        exact Or.inl ha
      · right
        rw [Bool.not_eq_true] at hheld
        rw [hheld, Bool.false_or] at ha
        split at ha
        · rename_i hblock
          simp only [Bool.and_eq_true, decide_eq_true_eq] at hblock
          exact ⟨page, rfl, hblock.1.2, hblock.2, (Option.some.inj ha).symm⟩
        · exact absurd ha (by simp)
    · rw [Function.update_of_ne hc] at ha
      exact Or.inl ha

/-- The two release functions of the allocator free the pages that they mark. -/
theorem Good.freePage (h : Good s) (caller : Nat) (address : UInt64) :
    Good (s.giveBack caller (markedPages (address / kPageSize) 1) (s.phys.pmm.freePage address)) :=
  h.giveBack caller (h.ready.exact.step (.freePage address)) fun _ => isPageFree_markPages

theorem Good.freeContiguous (h : Good s) (caller : Nat) (address pageCount : UInt64) :
    Good (s.giveBack caller (freedPages address pageCount) (s.phys.pmm.freeContiguous address pageCount)) := by
  apply h.giveBack caller (h.ready.exact.step (.freeContiguous address pageCount))
  intro page
  show (s.phys.pmm.freeContiguous address pageCount).isPageFree page = _
  unfold freedPages PhysicalMemoryManager.freeContiguous
  split
  · exact isPageFree_markPages
  · rw [if_neg List.not_mem_nil]

end Direct

/-! ## Runs -/

/-- **Step lemma.** -/
theorem Good.step (h : Good s) (a : Action) : Good (s.step a) := by
  have hready := h.ready
  cases a with
  | kernelAllocate size alignment =>
      -- `Allocate` moves `mCurrent` and nothing else
      have hkept : (s.heap.allocate size alignment).2.mStart = s.heap.mStart ∧
          (s.heap.allocate size alignment).2.mEnd = s.heap.mEnd := by
        unfold KernelHeap.allocate
        split
        · exact ⟨rfl, rfl⟩
        · dsimp only
          split <;> exact ⟨rfl, rfl⟩
      have hpages : heapPages (s.heap.allocate size alignment).2 = heapPages s.heap := by
        unfold heapPages
        rw [hkept.1, hkept.2]
      have hledger : (s.step (.kernelAllocate size alignment)).ledger = s.ledger := by
        unfold ledger holds MemorySystem.step
        dsimp only
        rw [hpages]
      refine ⟨h.ready, ?_, h.positive, h.idle, h.whole, h.keys, h.bounded⟩
      rw [hledger]
      exact h.sound
  | cowAllocatePage =>
      apply h.withCow
      rcases CopyOnWriteManager.allocatePage_effect hready s.cow with hsame | ⟨-, heff⟩
      · rw [hsame]
        exact Or.inl ⟨rfl, rfl⟩
      · exact Or.inr ⟨_, heff⟩
  | cowClonePage physical =>
      apply h.withCow
      rcases CopyOnWriteManager.clonePage_effect s.cow s.phys physical with hsame | ⟨-, heff⟩
      · rw [hsame]
        exact Or.inl ⟨rfl, rfl⟩
      · exact Or.inr ⟨_, heff⟩
  | cowResolveWrite physical =>
      apply h.withCow
      rcases CopyOnWriteManager.resolveWrite_effect hready s.cow physical with
        hsame | ⟨-, -, -, hsame⟩ | ⟨i, -, -, heff⟩
      · rw [hsame]
        exact Or.inl ⟨rfl, rfl⟩
      · rw [hsame]
        exact Or.inl ⟨rfl, rfl⟩
      · exact Or.inr ⟨_, heff⟩
  | cowReleasePage physical =>
      apply h.withCow
      rcases CopyOnWriteManager.releasePage_effect h.cowInv physical with
        ⟨-, hsame⟩ | ⟨i, -, ⟨-, heff⟩ | ⟨-, heff⟩⟩
      · rw [hsame]
        exact Or.inl ⟨rfl, rfl⟩
      · exact Or.inr ⟨_, heff⟩
      · exact Or.inr ⟨_, heff⟩
  | sharedCreate pageCount =>
      apply h.withShared
      rcases SharedMemoryManager.create_effect h.sharedInv pageCount with hsame | ⟨-, heff⟩ | ⟨i, -, heff⟩
      · rw [hsame]
        exact Or.inl ⟨rfl, rfl⟩
      · exact Or.inr ⟨_, heff⟩
      · exact Or.inr ⟨_, heff⟩
  | sharedAttach id =>
      apply h.withShared
      rcases SharedMemoryManager.attach_effect s.shared s.phys id with hsame | ⟨i, -, -, heff⟩
      · rw [hsame]
        exact Or.inl ⟨rfl, rfl⟩
      · exact Or.inr ⟨_, heff⟩
  | sharedRelease id =>
      apply h.withShared
      rcases SharedMemoryManager.release_effect h.sharedInv id with
        ⟨-, hsame⟩ | ⟨i, -, ⟨-, heff⟩ | ⟨-, heff⟩⟩
      · rw [hsame]
        exact Or.inl ⟨rfl, rfl⟩
      · exact Or.inr ⟨_, heff⟩
      · exact Or.inr ⟨_, heff⟩
  | slabAllocate size =>
      obtain ⟨hready', hsteps⟩ := SlabAllocator.allocate_frames hready s.slab size
      exact h.withSlab hready' hsteps
  | slabFree object size =>
      obtain ⟨hready', hsteps⟩ := SlabAllocator.free_frames hready s.slab object size
      exact h.withSlab hready' hsteps
  | swapOut physical =>
      apply h.withSwap
      rcases SwapManager.swapOut_effect hready s.swap physical with hsame | ⟨i, backing, -, heff⟩
      · rw [hsame]
        exact Or.inl ⟨rfl, rfl⟩
      · exact Or.inr ⟨_, heff⟩
  | swapIn slot destination =>
      apply h.withSwap
      rcases SwapManager.swapIn_effect h.swapInv slot destination with hsame | ⟨i, -, -, heff⟩
      · rw [hsame]
        exact Or.inl ⟨rfl, rfl⟩
      · exact Or.inr ⟨_, heff⟩
  | map fileId length writable demandPaged => exact h.withMapped (h.owned.map fileId length writable demandPaged)
  | handlePageFault address write => exact h.withMapped (h.owned.handlePageFault address write)
  | unmap address => exact h.withMapped (h.owned.unmap address)
  | evict fileId pageOffset => exact h.withMapped (h.owned.evict fileId pageOffset)
  | store address value => exact ⟨h.ready, h.sound, h.positive, h.idle, h.whole, h.keys, h.bounded⟩
  | allocateAligned caller pageCount alignmentPages => exact h.takeBlock caller pageCount alignmentPages
  | freePage caller address => exact h.freePage caller address
  | freeContiguous caller address pageCount => exact h.freeContiguous caller address pageCount
  | hugeAllocate caller =>
      unfold MemorySystem.step HugePageManager.allocate
      dsimp only
      split
      · exact h.takeBlock caller kHugePagePages kHugePagePages
      · exact h.takeNothing caller kHugePagePages
  | hugeFree caller physical =>
      unfold MemorySystem.step HugePageManager.free
      dsimp only
      split
      · exact h.freeContiguous caller physical kHugePagePages
      · exact h.giveNothing caller
  | numaAllocatePage caller node =>
      unfold MemorySystem.step NumaManager.allocatePage
      dsimp only
      split
      · exact (h.withNuma _).takeNothing caller 1
      · exact (h.withNuma _).takeBlock caller 1 1
  | numaFreePage caller node physical =>
      unfold MemorySystem.step NumaManager.freePage
      dsimp only
      split
      · exact h
      · exact (h.withNuma _).freePage caller physical

/-! ## The start -/

section Start

open PhysicalMemoryManager

variable {image : KernelImage} {boot : BootInfo} {t : MemorySystem}

/-- Every manager after its `Init`, and a heap without memory. -/
def fresh (s : MemorySystem) (phys : Physical) : MemorySystem :=
  { phys
    cow := s.cow.init
    shared := s.shared.init
    slab := s.slab.init
    hugePages := s.hugePages.init
    swap := s.swap.init
    cache := s.cache.init
    maps := s.maps.init }

theorem good_fresh (s : MemorySystem) (phys : Physical) (hready : phys.pmm.Ready) : Good (s.fresh phys) := by
  have hnone : ∀ p, (s.fresh phys).ledger.holds p = none := by
    rintro (i | q | i | i | (q | e) | page | q)
    · rfl
    · rfl
    · rfl
    · rfl
    · rfl
    · rfl
    · show holdsPages (heapPages (s.fresh phys).heap) page = none
      unfold holdsPages heapPages fresh
      simp
    · rfl
  constructor
  · exact hready
  · exact .empty hnone hready.taken_zero
  · intro i hi
    exact absurd hi Bool.false_ne_true
  · intro i hi
    rfl
  · intro i hi
    exact absurd hi Bool.false_ne_true
  · exact (PageCache.inv_init s.cache hready).distinct
  · intro i hi
    exact absurd hi Bool.false_ne_true

/-- A block of free pages becomes the heap. -/
theorem Good.withHeap (h : Good s) {heap : KernelHeap} {pmm : PhysicalMemoryManager} {first n : Nat}
    (hready : pmm.Ready) (htakes : Takes s.phys.pmm pmm first n)
    (hheap : ∀ page, heapPages heap page = true → first ≤ page ∧ page < first + n) :
    Good { s with heap, phys := { s.phys with pmm } } := by
  refine ⟨hready, ?_, h.positive, h.idle, h.whole, h.keys, h.bounded⟩
  refine Lib.Ledger.Step.sound (taken_block (fun page => .inr (.inr (.inr (.inr (.inr (.inl page)))))) htakes ?_)
    h.sound
  rintro (i | q | i | i | q | page | q) a ha
  · exact Or.inl ha
  · exact Or.inl ha
  · exact Or.inl ha
  · exact Or.inl ha
  · exact Or.inl ha
  · right
    have hheld : holdsPages (heapPages heap) page = some a := ha
    unfold holdsPages at hheld
    split at hheld
    · rename_i hmem
      obtain ⟨hlo, hhi⟩ := hheap page hmem
      exact ⟨page, rfl, hlo, hhi, (Option.some.inj hheld).symm⟩
    · exact absurd hheld (by simp)
  · exact Or.inl ha

/-- The pages of a heap of 128 pages. -/
theorem heapPages_atBase {first page : Nat} (hin : first + 128 ≤ kManagedPageCount)
    (h : heapPages (KernelHeap.atBase (frameOf first)) page = true) : first ≤ page ∧ page < first + 128 := by
  have hN := kManagedPageCount_eq
  have hstart : (frameOf first).toNat = first * 4096 := toNat_frameOf (by omega)
  have hend : (frameOf first + kHeapInitialPages * kPageSize).toNat = (first + 128) * 4096 := by
    have hsize : (kHeapInitialPages * kPageSize).toNat = 128 * 4096 := rfl
    rw [UInt64.toNat_add, hstart, hsize]
    omega
  unfold heapPages KernelHeap.atBase at h
  rw [Bool.and_eq_true, decide_eq_true_eq, decide_eq_true_eq, hstart, hend, Nat.mul_div_cancel _ (by omega),
    Nat.mul_div_cancel _ (by omega)] at h
  exact h

/-- **`KernelHeap::Init`**, when it succeeds, takes the block of the heap. -/
theorem heap_init_takes (heap : KernelHeap) {pmm : PhysicalMemoryManager} (hready : pmm.Ready)
    (hinit : (heap.init pmm).1 = true) :
    (heap.init pmm).2.2.Ready ∧
    ∃ first, (heap.init pmm).2.1 = KernelHeap.atBase (frameOf first) ∧ Takes pmm (heap.init pmm).2.2 first 128 := by
  unfold KernelHeap.init PhysicalMemoryManager.allocateContiguous at hinit ⊢
  split at hinit
  · exact absurd hinit Bool.false_ne_true
  · rename_i hnz
    rw [if_neg hnz]
    rcases allocateAligned_cases pmm kHeapInitialPages 1 with ⟨-, hfail⟩ | ⟨first, -, -, haddr, htakes⟩
    · exact absurd (congrArg Prod.fst hfail) hnz
    · rw [haddr]
      exact ⟨hready.allocateAligned kHeapInitialPages 1, first, rfl, htakes⟩

/-- **After `KernelMemoryInit`** the invariant holds. -/
theorem good_init (hinit : s.kernelMemoryInit image boot = some t) : Good t := by
  unfold kernelMemoryInit at hinit
  have hready : (s.phys.pmm.init image boot s.phys.bytes).1 = true →
      (s.phys.pmm.init image boot s.phys.bytes).2.Ready := by
    intro hok
    apply ready_init
    by_contra hrefused
    unfold PhysicalMemoryManager.init at hok
    rw [if_pos] at hok
    · exact absurd hok Bool.false_ne_true
    · unfold PhysicalMemoryManager.Accepts at hrefused
      by_cases hnull : boot.memory.buffer = 0
      · exact Or.inl hnull
      · exact Or.inr (UInt64.not_le.mp fun hsize => hrefused ⟨hnull, hsize⟩)
  generalize s.phys.pmm.init image boot s.phys.bytes = first at hinit hready
  obtain ⟨ok, pmm⟩ := first
  cases ok with
  | false => exact absurd hinit (by simp)
  | true =>
      dsimp only at hinit hready
      rw [if_neg (by simp)] at hinit
      generalize (VirtualMemoryManager.initIdentityMap4GiB image s.phys.bytes).1 = bytes at hinit
      have hstart := good_fresh s { pmm, bytes } (hready rfl)
      have hheap := heap_init_takes s.heap (hready rfl)
      generalize s.heap.init pmm = block at hinit hheap
      obtain ⟨ok, heap, pmm'⟩ := block
      cases ok with
      | false => exact absurd hinit (by simp)
      | true =>
          dsimp only at hinit hheap
          rw [if_neg (by simp)] at hinit
          obtain ⟨hready', first, rfl, htakes⟩ := hheap rfl
          have hgood := hstart.withHeap hready' htakes fun page => heapPages_atBase htakes.inside
          obtain ⟨hinv, -, hsteps⟩ := SlabAllocator.inv_primeLoop
            (SlabAllocator.inv_init s.slab hgood.ready) (List.finRange kSlabCacheCount)
          have hslab := (hgood.withSlab hinv.ready hsteps).withNuma (s.numa.init pmm')
          change Good { s.fresh { pmm, bytes } with
            heap := KernelHeap.atBase (frameOf first), numa := s.numa.init pmm'
            slab := (s.slab.init.prime { pmm := pmm', bytes }).2.1
            phys := (s.slab.init.prime { pmm := pmm', bytes }).2.2 } at hslab
          generalize s.slab.init.prime { pmm := pmm', bytes } = primed at hinit hslab
          obtain ⟨ok, slab, phys⟩ := primed
          cases ok with
          | false => exact absurd hinit (by simp)
          | true =>
              dsimp only at hinit
              rw [if_neg (by simp)] at hinit
              obtain rfl := Option.some.inj hinit
              exact hslab

/-- `Prime` succeeds while there is a page for each cache. -/
theorem primeLoop_ok {m : SlabAllocator} {p : Physical} {caches : List (Fin kSlabCacheCount)} (hready : p.pmm.Ready)
    (hroom : p.pmm.Room caches.length) (hpmm : m.mPhysicalMemory = true) (hnodup : caches.Nodup)
    (hempty : ∀ i ∈ caches, (m.mCaches i).page = 0) : (m.primeLoop p caches).1 = true := by
  induction caches generalizing m p with
  | nil => rfl
  | cons i caches ih =>
      obtain ⟨hfirst, hnodup⟩ := List.nodup_cons.mp hnodup
      unfold SlabAllocator.primeLoop
      rcases SlabAllocator.growCache_cases hready m i with ⟨-, hwhy⟩ | ⟨hok, heff⟩
      · exact absurd (hwhy hpmm (hempty i List.mem_cons_self)) (hroom.allocatePage hready)
      · generalize m.growCache i p = r at hok heff ⊢
        obtain ⟨ok, m₁, p₁⟩ := r
        obtain rfl : ok = true := hok
        have hpmm' := heff.mPhysicalMemory
        generalize hpage : p.pmm.allocatePage.1 = page at heff
        cases heff with
        | grown i page hcache hgrants hbytes =>
            refine ih hgrants.ready (hroom.grants hgrants) (hpmm'.trans hpmm) hnodup fun q hq => ?_
            have hne : q ≠ i := by
              rintro rfl
              exact hfirst hq
            show (Function.update m.mCaches i _ q).page = 0
            rw [Function.update_of_ne hne]
            exact hempty q (List.mem_cons_of_mem _ hq)

/-- **`KernelMemoryInit` succeeds** when the memory map leaves a block for the heap and four pages more. -/
theorem kernelMemoryInit_some (hb : PhysicalMemoryManager.Accepts boot) {first : Nat}
    (hin : first + 128 ≤ kManagedPageCount)
    (hrun : (s.phys.pmm.init image boot s.phys.bytes).2.FreeRun 1 128 first)
    (hroom : (s.phys.pmm.init image boot s.phys.bytes).2.Room (4 + 128)) :
    ∃ t, s.kernelMemoryInit image boot = some t := by
  have hready := ready_init s.phys.pmm image s.phys.bytes hb
  have hok : (s.phys.pmm.init image boot s.phys.bytes).1 = true := (init_true_iff hb).mpr
    ⟨first, by omega, hrun.free first (by omega) (by omega)⟩
  unfold kernelMemoryInit
  generalize s.phys.pmm.init image boot s.phys.bytes = made at hready hok hrun hroom ⊢
  obtain ⟨ok, pmm⟩ := made
  obtain rfl : ok = true := hok
  dsimp only at hready hrun hroom ⊢
  rw [if_neg (by simp)]
  generalize (VirtualMemoryManager.initIdentityMap4GiB image s.phys.bytes).1 = bytes
  -- the heap
  have hheap : (s.heap.init pmm).1 = true ∧ (s.heap.init pmm).2.2.Ready ∧ (s.heap.init pmm).2.2.Room 4 := by
    have hfound : ∃ block, pmm.findBlock kHeapInitialPages 1 = some block :=
      allocateAligned_complete hready.exact (by decide) (by decide) (by decide) hin hrun
    obtain ⟨block, hfind⟩ := hfound
    rcases allocateAligned_cases pmm kHeapInitialPages 1 with ⟨hnone, -⟩ | ⟨block', -, -, haddr, htakes⟩
    · rw [hfind] at hnone
      exact absurd hnone (by simp)
    · have hnz : (pmm.allocateAligned kHeapInitialPages 1).1 ≠ 0 := by
        rw [haddr]
        have hblock := htakes.inside
        have hpages : kHeapInitialPages.toNat = 128 := rfl
        apply frameOf_ne_zero (by omega)
        rintro rfl
        have hzero := htakes.free 0 (le_refl _) (by omega)
        rw [hready.zeroUsed] at hzero
        exact absurd hzero (by simp)
      have hsome : s.heap.init pmm = (true, KernelHeap.atBase (pmm.allocateAligned kHeapInitialPages 1).1,
          (pmm.allocateAligned kHeapInitialPages 1).2) := if_neg hnz
      rw [hsome]
      exact ⟨rfl, hready.allocateAligned _ _, hroom.takes htakes⟩
  generalize s.heap.init pmm = block at hheap ⊢
  obtain ⟨ok, heap, pmm'⟩ := block
  obtain ⟨hok, hready', hroom'⟩ := hheap
  obtain rfl : ok = true := hok
  dsimp only at hready' hroom' ⊢
  rw [if_neg (by simp)]
  -- the slab caches
  have hprime : (s.slab.init.prime { pmm := pmm', bytes }).1 = true :=
    primeLoop_ok hready' hroom' rfl (List.nodup_finRange _) fun _ _ => rfl
  generalize s.slab.init.prime { pmm := pmm', bytes } = primed at hprime ⊢
  obtain ⟨ok, slab, phys⟩ := primed
  obtain rfl : ok = true := hprime
  exact ⟨_, rfl⟩

/-- One descriptor: 256 conventional pages at 16 MiB. -/
def mebibyteMap : Lib.Bytes :=
  fun a => if a = 0x90000 then 7 else if a = 0x9000B then 1 else if a = 0x90019 then 1 else 0

theorem isPageFree_mebibyte (s : PhysicalMemoryManager) {page : Nat} (hlo : 4096 ≤ page) (hhi : page < 4352) :
    (s.init smallImage smallBoot mebibyteMap).2.isPageFree page = true := by
  have hN := kManagedPageCount_eq
  -- every reserved range ends below page 4096
  have hends : (reservedRanges smallImage smallBoot).all (fun r =>
      decide ((Lib.alignDown r.1 kPageSize / kPageSize +
        (Lib.alignUp (r.1 + r.2) kPageSize - Lib.alignDown r.1 kPageSize) / kPageSize).toNat ≤ 4096)) = true := by
    decide +kernel
  have hout : ∀ r ∈ reservedRanges smallImage smallBoot, Outside page r := fun r hr =>
    Or.inr ((of_decide_eq_true (List.all_eq_true.mp hends r hr)).trans hlo)
  have hdescs : descriptors smallBoot mebibyteMap = [⟨7, 0x1000000, 256⟩] := by decide +kernel
  rw [isPageFree_init_of_outside (by decide) hout, hdescs, List.foldl_cons, List.foldl_nil]
  have hpage : page ∈ markedPages (0x1000000 / kPageSize) ((0x1100000 - 0x1000000) / kPageSize) :=
    mem_markedPages.mpr ⟨hlo, hhi, by omega⟩
  exact isPageFree_conventional s.allUsed rfl rfl rfl (by decide) (by decide) hpage

end Start

end MemorySystem
end UefiBoot
