import UefiBoot.Memory.AlignedFit
import UefiBoot.Memory.Lends
import UefiBoot.Memory.Ownership
import UefiBoot.Memory.SlabRuns

/-!
# `Memory.SelfTest` — `KernelMemoryInit` with its probe and its self test

`KernelMemorySelfTest` goes through the managers in turn. Each part takes frames, looks whether the manager does what
it should, and gives them back; it returns false at the first thing that is not as it should be. `kernelMemorySelfTest`
is the function with a definition for each of its parts.

A part that has room for what it takes returns true, leaves its manager as it was, and lends nothing when it ends
(`Memory.Lends`). Only the first part asks for more than one page at a time, a block of 2 MiB, and room for it is room
for all others. So the whole initialisation, once it has come to the test, depends on that block alone.
-/

namespace UefiBoot

/-! ## The parts of the test -/

def HugePageManager.selfTest (m : HugePageManager) (pmm : PhysicalMemoryManager) : Bool × PhysicalMemoryManager :=
  let (hugePage, pmm) := m.allocate pmm
  if hugePage = 0 ∨ hugePage &&& (kHugePageSize - 1) ≠ 0 then (false, pmm) else (true, m.free hugePage pmm)

def NumaManager.selfTest (m : NumaManager) (pmm : PhysicalMemoryManager) :
    Bool × NumaManager × PhysicalMemoryManager :=
  let (localPage, m, pmm) := m.allocatePage 0 pmm
  if localPage = 0 ∨ m.mNodeCount = 0 then (false, m, pmm)
  else (true, m.freePage 0 localPage pmm)

/-- The anonymous mapping. -/
def Mapped.selfTestAnonymous (s : Mapped) : Bool × Mapped :=
  let (anonymousMap, s) := s.map 0 (kPageSize * 2) true true
  if anonymousMap = 0 then (false, s)
  else
    let (page, s) := s.handlePageFault anonymousMap true
    if page = 0 then (false, s) else s.unmap anonymousMap

/-- The mapping of a file. -/
def Mapped.selfTestFile (s : Mapped) : Bool × Mapped :=
  let (fileMap, s) := s.map 7 kPageSize true true
  let (cachedPage, s) := s.handlePageFault fileMap true
  if fileMap = 0 ∨ cachedPage = 0 then (false, s)
  else
    let (unmapped, s) := s.unmap fileMap
    if !unmapped then (false, s)
    else
      let (evicted, cache, phys) := s.cache.evict 7 0 s.phys
      (evicted, { s with cache, phys })

/-- `reinterpret_cast<uint8_t*>(physical)[0] = value`. -/
def Physical.store (p : Physical) (physical : UInt64) (value : UInt8) : Physical :=
  { p with bytes := Function.update p.bytes physical value }

def SwapManager.selfTest (m : SwapManager) (p : Physical) : Bool × SwapManager × Physical :=
  let (swapSource, p) := p.allocatePage
  let (swapDestination, p) := p.allocatePage
  if swapSource = 0 ∨ swapDestination = 0 then (false, m, p)
  else
    let (swapSlot, m, p) := m.swapOut swapSource (p.store swapSource 0x6D)
    if swapSlot < 0 then (false, m, p)
    else
      let (ok, m, p) := m.swapIn swapSlot.toUInt32 swapDestination p
      if !ok ∨ p.bytes swapDestination ≠ 0x6D then (false, m, p)
      else (true, m, (p.freePage swapSource).freePage swapDestination)

def CopyOnWriteManager.selfTest (m : CopyOnWriteManager) (p : Physical) : Bool × CopyOnWriteManager × Physical :=
  let (cowOriginal, m, p) := m.allocatePage p
  if cowOriginal = 0 then (false, m, p)
  else
    let p := p.store cowOriginal 0x5A
    let (cloned, m) := m.clonePage cowOriginal
    if !cloned ∨ m.referenceCount cowOriginal ≠ 2 then (false, m, p)
    else
      let (cowPrivate, m, p) := m.resolveWrite cowOriginal p
      if cowPrivate = 0 ∨ cowPrivate = cowOriginal then (false, m, p)
      else
        let p := p.store cowPrivate 0xA5
        if p.bytes cowOriginal ≠ 0x5A ∨ p.bytes cowPrivate ≠ 0xA5 ∨ m.referenceCount cowOriginal ≠ 1 ∨
            m.referenceCount cowPrivate ≠ 1 then (false, m, p)
        else
          let (m, p) := m.releasePage cowOriginal p
          (true, m.releasePage cowPrivate p)

/-- An index into `pages` is below `kSharedSegmentMaxPages`, because no segment has more pages. -/
def SharedMemoryManager.page (m : SharedMemoryManager) (id index : UInt64) : UInt64 :=
  match m.findSegment id with
  | none   => 0
  | some i =>
    if index ≥ (m.mSegments i).pageCount then 0
    else if hindex : index.toNat < kSharedSegmentMaxPages then (m.mSegments i).pages ⟨index.toNat, hindex⟩
    else 0

def SharedMemoryManager.referenceCount (m : SharedMemoryManager) (id : UInt64) : UInt16 :=
  match m.findSegment id with
  | none   => 0
  | some i => (m.mSegments i).references

def SharedMemoryManager.selfTest (m : SharedMemoryManager) (p : Physical) : Bool × SharedMemoryManager × Physical :=
  let (sharedSegment, m, p) := m.create 2 p
  if sharedSegment = 0 then (false, m, p)
  else
    let (attached, m) := m.attach sharedSegment
    if !attached ∨ m.referenceCount sharedSegment ≠ 2 then (false, m, p)
    else
      let sharedPage := m.page sharedSegment 0
      if sharedPage = 0 then (false, m, p)
      else
        let p := p.store sharedPage 0xC3
        if p.bytes (m.page sharedSegment 0) ≠ 0xC3 then (false, m, p)
        else
          let (m, p) := m.release sharedSegment p
          (true, m.release sharedSegment p)

def SlabAllocator.selfTest (m : SlabAllocator) (p : Physical) : Bool × SlabAllocator × Physical :=
  let (slabA, m, p) := m.allocate 24 p
  let (slabB, m, p) := m.allocate 128 p
  if slabA = 0 ∨ slabB = 0 then (false, m, p)
  else
    let (freed, m, p) := m.free slabA 24 p
    if !freed then (false, m, p) else m.free slabB 128 p

def CopyOnWriteManager.activePages (m : CopyOnWriteManager) : Nat :=
  ((List.finRange kCowTrackedPages).filter fun i => (m.mPages i).active).length

def SharedMemoryManager.activeSegments (m : SharedMemoryManager) : Nat :=
  ((List.finRange kSharedSegmentCount).filter fun i => (m.mSegments i).active).length

namespace MemorySystem

/-- Each part runs when those before it have returned true. -/
def kernelMemorySelfTest (s : MemorySystem) : Bool × MemorySystem :=
  let (ok, pmm) := s.hugePages.selfTest s.phys.pmm
  let s := { s with phys := { s.phys with pmm } }
  if !ok then (false, s)
  else
  let (ok, numa, pmm) := s.numa.selfTest s.phys.pmm
  let s := { s with numa, phys := { s.phys with pmm } }
  if !ok then (false, s)
  else
  let (ok, mapped) := s.mapped.selfTestAnonymous
  let s := s.withMapped mapped
  if !ok then (false, s)
  else
  let (ok, mapped) := s.mapped.selfTestFile
  let s := s.withMapped mapped
  if !ok then (false, s)
  else
  let (ok, swap, phys) := s.swap.selfTest s.phys
  let s := { s with swap, phys }
  if !ok then (false, s)
  else
  let (ok, cow, phys) := s.cow.selfTest s.phys
  let s := { s with cow, phys }
  if !ok then (false, s)
  else
  let (ok, shared, phys) := s.shared.selfTest s.phys
  let s := { s with shared, phys }
  if !ok then (false, s)
  else
  let (ok, slab, phys) := s.slab.selfTest s.phys
  let s := { s with slab, phys }
  if !ok then (false, s)
  else (decide (s.cow.activePages = 0) && decide (s.shared.activeSegments = 0), s)

/-- `KernelMemoryInit`, the probe and the self test after the rest. -/
def kernelMemoryInitTested (s : MemorySystem) (image : KernelImage) (boot : BootInfo) : Option MemorySystem :=
  match s.kernelMemoryInit image boot with
  | none   => none
  | some s =>
    let (probe, heap) := s.heap.allocate 64 16
    if probe = 0 then none
    else
      let (ok, s) := kernelMemorySelfTest { s with heap }
      if ok then some s else none

end MemorySystem

/-! ## Huge pages and NUMA nodes -/

namespace HugePageManager

open PhysicalMemoryManager

variable {m : HugePageManager} {pmm : PhysicalMemoryManager} {r : Nat}

theorem block_iff_run : pmm.Block 512 512 r ↔ r + 512 ≤ kManagedPageCount ∧ pmm.FreeRun kHugePagePages 512 r :=
  @block_iff pmm kHugePagePages 512 r 9 rfl (by omega)

/-- The start of a huge page. -/
theorem frameOf_aligned (hin : r < kManagedPageCount) (hr : 512 ∣ r) : frameOf r &&& (kHugePageSize - 1) = 0 := by
  apply UInt64.toNat_inj.mp
  rw [Lib.toNat_and_pred (k := 21) (a := kHugePageSize) rfl, toNat_frameOf hin]
  have hsize : kHugePageSize.toNat = 2097152 := rfl
  have hzero : (0 : UInt64).toNat = 0 := rfl
  rw [hsize, hzero]
  omega

/-- **The block of the test** is taken and comes back, if there is one. -/
theorem selfTest_eq (h : pmm.Ready) (hset : m.mPhysicalMemory = true) :
    (m.selfTest pmm).2 = pmm ∧ ((m.selfTest pmm).1 = true ↔ ∃ r, pmm.Block 512 512 r) := by
  have hcount : kHugePagePages.toNat = 512 := rfl
  have hcall : m.allocate pmm = pmm.allocateAligned kHugePagePages kHugePagePages := if_pos hset
  unfold selfTest
  rw [hcall]
  rcases allocateAligned_cases pmm kHugePagePages kHugePagePages with ⟨hnone, hres⟩ | ⟨first, hfind, -, haddr, htakes⟩
  · rw [hres]
    refine ⟨rfl, iff_of_false Bool.false_ne_true ?_⟩
    rintro ⟨r, hblock⟩
    obtain ⟨hin, hrun⟩ := block_iff_run.mp hblock
    have hfound : ∃ first, pmm.findBlock kHugePagePages kHugePagePages = some first :=
      allocateAligned_complete h.exact (by decide) (by decide) (by decide) hin hrun
    obtain ⟨first, hfind⟩ := hfound
    rw [hnone] at hfind
    exact absurd hfind (by simp)
  · obtain ⟨-, hin, hrun, -⟩ := findBlock_some hfind
    have hblock := block_iff_run.mpr ⟨hin, hrun⟩
    have hmanaged := hblock.managed
    have hnz : frameOf first ≠ 0 := by
      apply frameOf_ne_zero hmanaged
      -- page 0 is always used
      rintro rfl
      have hfree := (hblock.free 0 (le_refl _) (by omega)).2
      rw [h.zeroUsed] at hfree
      exact absurd hfree (by simp)
    have haligned := frameOf_aligned hmanaged hblock.aligned
    have hready := h.allocateAligned kHugePagePages kHugePagePages
    generalize pmm.allocateAligned kHugePagePages kHugePagePages = answer at haddr htakes hready
    obtain ⟨hugePage, lent⟩ := answer
    obtain rfl : hugePage = frameOf first := haddr
    dsimp only at htakes ⊢
    rw [if_neg (by simp [hnz, haligned])]
    refine ⟨?_, iff_of_true rfl ⟨first, hblock⟩⟩
    show m.free (frameOf first) lent = pmm
    unfold HugePageManager.free
    rw [if_pos ⟨hset, hnz, haligned⟩]
    exact htakes.undo h.exact hready.exact (by decide) rfl

end HugePageManager

theorem NumaManager.selfTest_eq {m : NumaManager} {pmm : PhysicalMemoryManager} (h : pmm.Ready) (hroom : pmm.Room 1)
    (hset : m.mPhysicalMemory = true) (hcount : m.mNodeCount = 1) (honline : (m.mNodes 0).online = true)
    (hpages : (m.mNodes 0).freePages ≠ 0) : m.selfTest pmm = (true, m, pmm) := by
  have hnz : pmm.allocatePage.1 ≠ 0 := hroom.allocatePage (n := 0) h
  have hgrants := ((PhysicalMemoryManager.GrantsAll.nil h).grant
    (PhysicalMemoryManager.allocatePage_grants h hnz)).revoke List.mem_cons_self
  rw [List.erase_cons_head] at hgrants
  have hback := hgrants.eq h
  -- the count of the node goes down and up again
  have hnode : (m.setFreePages 0 ((m.mNodes 0).freePages - 1)).setFreePages 0
      (((m.setFreePages 0 ((m.mNodes 0).freePages - 1)).mNodes 0).freePages + 1) = m := by
    have hzero : (0 : UInt32).toNat = 0 := rfl
    unfold NumaManager.setFreePages
    rw [hzero]
    dsimp only
    rw [Function.update_self, UInt64.sub_add_cancel, Function.update_idem, Function.update_eq_self]
  have htake : m.allocatePage 0 pmm =
      (pmm.allocatePage.1, m.setFreePages 0 ((m.mNodes 0).freePages - 1), pmm.allocatePage.2) := by
    unfold NumaManager.allocatePage
    rw [if_neg (by simp [hset, hcount, honline])]
    exact Prod.ext rfl (Prod.ext (if_pos ⟨hnz, hpages⟩) rfl)
  unfold NumaManager.selfTest
  rw [htake]
  dsimp only
  rw [if_neg (by simp [hnz, NumaManager.setFreePages, hcount])]
  unfold NumaManager.freePage
  rw [if_neg (by simp [hnz, NumaManager.setFreePages, hset, hcount])]
  exact Prod.ext rfl (Prod.ext hnode hback)

/-! ## Mappings -/

namespace Mapped

variable {s : Mapped} {next : UInt64} {i : Fin kMemoryMappingCount}

/-- No mapping is active, and the next one starts at `next`. -/
structure Idle (m : MemoryMappingManager) (next : UInt64) : Prop where
  address  : m.mNextAddress = next
  inactive : ∀ i, (m.mMappings i).active = false

/-- A page-aligned address, not null and not too near the end of the addresses. -/
structure IsStart (next : UInt64) : Prop where
  aligned : next.toNat % 4096 = 0
  nonzero : next ≠ 0
  below   : next.toNat < 2 ^ 63

/-- **`Map`** with pages on demand, when no mapping is active. -/
theorem Idle.map (h : Idle s.maps next) (hnext : IsStart next) (fileId : UInt64) {length pages : UInt64}
    (hpages : (length + kPageSize - 1) / kPageSize = pages) (hcount : 0 < pages.toNat ∧ pages.toNat ≤ kMappingMaxPages) :
    ∃ i, s.map fileId length true true = (next, { s with maps := s.maps.openMapping i pages fileId true true }) ∧
      (s.maps.openMapping i pages fileId true true).find next = some i := by
  obtain ⟨haligned, hnz, hbelow⟩ := hnext
  obtain ⟨rfl, hinactive⟩ := h
  have hfound : ∃ i, s.maps.findInactive = some i := Lib.exists_firstSlot (i := 0) (by rw [hinactive 0]; rfl)
  obtain ⟨i, hfind⟩ := hfound
  have hzero : pages ≠ 0 := by
    rintro rfl
    exact absurd hcount.1 (by decide)
  have hmax : pages.toNat ≤ 16 := hcount.2
  refine ⟨i, ?_, ?_⟩
  · unfold Mapped.map
    rw [hpages, if_neg (by simp [hzero, hcount.2]), hfind]
    rfl
  · have hlayout : s.maps.Layout :=
      ⟨haligned, fun q hq => absurd hq (by simp [hinactive q]), fun q r hq => absurd hq (by simp [hinactive q])⟩
    have hopen := hlayout.openMapping i hcount (by omega) fileId true true
    have hmapping : (s.maps.openMapping i pages fileId true true).mMappings i =
        { address := s.maps.mNextAddress, pageCount := pages, fileId, writable := true, demandPaged := true,
          active := true } := Function.update_self ..
    have hself := hopen.find_address (i := i) (by rw [hmapping])
    rw [hmapping] at hself
    exact hself

/-- Once its mapping is over, the table is idle again. -/
theorem Idle.closed (h : Idle s.maps next) (i : Fin kMemoryMappingCount) (pages fileId : UInt64) {mapping : Mapping}
    (hmapping : mapping.active = false) :
    Idle ((s.maps.openMapping i pages fileId true true).setMapping i mapping) (next + pages * kPageSize) := by
  refine ⟨congrArg (· + pages * kPageSize) h.address, fun q => ?_⟩
  rw [MemoryMappingManager.setMapping_apply]
  by_cases hq : q = i
  · rw [if_pos hq]
    exact hmapping
  · rw [if_neg hq]
    show (Function.update s.maps.mMappings i _ q).active = false
    rw [Function.update_of_ne hq]
    exact h.inactive q

/-- **A write to the first page** of a mapping that has no pages yet. -/
theorem handlePageFault_first {mapping : Mapping} (hfind : s.maps.find mapping.address = some i)
    (hmapping : s.maps.mMappings i = mapping) (hwritable : mapping.writable = true) (hempty : mapping.pages 0 = 0)
    {a : UInt64} {t : Mapped} (hfill : s.materialize mapping 0 = (a, t)) (hmaps : t.maps = s.maps) :
    s.handlePageFault mapping.address true =
      (a, { t with
        maps := s.maps.setMapping i (mapping.setPage 0 a)
        cache := if mapping.fileId ≠ 0 then t.cache.markDirty a else t.cache }) := by
  have hindex : mapping.pageIndex mapping.address = 0 := by
    unfold Mapping.pageIndex
    rw [UInt64.sub_self]
    rfl
  have hpage : s.fillPage i 0 = { t with maps := s.maps.setMapping i (mapping.setPage 0 a) } := by
    unfold fillPage
    rw [hmapping]
    dsimp only
    rw [hfill, hmaps]
  have hat : ((s.maps.setMapping i (mapping.setPage 0 a)).mMappings i).pages 0 = a := by
    rw [MemoryMappingManager.setMapping_apply, if_pos rfl, Mapping.setPage_apply, if_pos rfl]
  have hfile : ((s.maps.setMapping i (mapping.setPage 0 a)).mMappings i).fileId = mapping.fileId := by
    rw [MemoryMappingManager.setMapping_apply, if_pos rfl]
    rfl
  unfold handlePageFault
  rw [hfind]
  dsimp only
  rw [hmapping, hwritable, hindex, hempty, if_neg (by simp), if_pos rfl, hpage]
  dsimp only
  rw [hat, hfile]
  by_cases hzero : mapping.fileId = 0
  · simp [hzero]
  · simp [hzero]

/-- **`Unmap`** of a mapping at its own address. -/
theorem unmap_at {mapping : Mapping} (hfind : s.maps.find mapping.address = some i)
    (hmapping : s.maps.mMappings i = mapping) :
    s.unmap mapping.address =
      (true,
        { maps := s.maps.setMapping i { mapping with active := false }
          cache := ((List.range mapping.pageCount.toNat).foldl (releasePage mapping) (s.cache, s.phys)).1
          phys := ((List.range mapping.pageCount.toNat).foldl (releasePage mapping) (s.cache, s.phys)).2 }) := by
  unfold unmap
  rw [hfind]
  dsimp only
  rw [hmapping, if_neg (by simp)]

/-- Writing the page array of a mapping does not change where it is found. -/
theorem find_setPage {m : MemoryMappingManager} {address a : UInt64} (page : Nat) :
    (m.setMapping i ((m.mMappings i).setPage page a)).find address = m.find address := by
  unfold MemoryMappingManager.find
  congr 1
  funext q
  rw [MemoryMappingManager.setMapping_apply]
  split
  · rename_i hq
    rw [hq]
    rfl
  · rfl

theorem setMapping_idem (m : MemoryMappingManager) (i : Fin kMemoryMappingCount) (mapping mapping' : Mapping) :
    (m.setMapping i mapping).setMapping i mapping' = m.setMapping i mapping' := by
  unfold MemoryMappingManager.setMapping
  dsimp only
  rw [Function.update_idem]

/-- The loop of `Unmap` when only the first page has been filled. -/
theorem foldl_releasePage_first (mapping : Mapping) {a : UInt64} (hnz : a ≠ 0) (hfirst : mapping.pages 0 = a)
    (hrest : ∀ page, page ≠ 0 → mapping.pages page = 0) (hcount : 0 < mapping.pageCount.toNat) (c : PageCache)
    (p : Physical) :
    (List.range mapping.pageCount.toNat).foldl (releasePage mapping) (c, p) =
      if mapping.fileId ≠ 0 then ((c.release a).2, p) else (c, p.freePage a) := by
  have hskip : ∀ (pages : List Nat) (t : PageCache × Physical), (∀ page ∈ pages, page ≠ 0) →
      pages.foldl (releasePage mapping) t = t := by
    -- induction on the pages after the first, all of which are null
    intro pages
    induction pages with
    | nil => exact fun _ _ => rfl
    | cons page pages ih =>
        intro t hpages
        rw [List.foldl_cons, ih _ fun q hq => hpages q (List.mem_cons_of_mem _ hq)]
        exact if_pos (hrest page (hpages page List.mem_cons_self))
  obtain ⟨n, hn⟩ := Nat.exists_eq_add_of_lt hcount
  rw [hn, Nat.zero_add, List.range_succ_eq_map, List.foldl_cons, hskip]
  · unfold releasePage
    rw [hfirst, if_neg hnz]
  · intro page hpage
    obtain ⟨q, -, rfl⟩ := List.mem_map.mp hpage
    exact Nat.succ_ne_zero q

/-- **A mapping that is made, written to in its first page and ended.** What the page is filled with, and what
    becomes of it, is up to the cache or to the allocator. -/
theorem Idle.firstPage (h : Idle s.maps next) (hnext : IsStart next) {fileId length pages a : UInt64} {cache : PageCache}
    {phys : Physical} (hpages : (length + kPageSize - 1) / kPageSize = pages)
    (hcount : 0 < pages.toNat ∧ pages.toNat ≤ kMappingMaxPages) (hnz : a ≠ 0)
    (hfill : ∀ maps (mapping : Mapping), mapping.fileId = fileId →
      materialize ⟨maps, s.cache, s.phys⟩ mapping 0 = (a, ⟨maps, cache, phys⟩)) :
    ∃ opened filled closed, s.map fileId length true true = (next, { s with maps := opened }) ∧
      handlePageFault { s with maps := opened } next true =
        (a, ⟨filled, if fileId ≠ 0 then cache.markDirty a else cache, phys⟩) ∧
      (∀ c p, unmap ⟨filled, c, p⟩ next =
        (true, ⟨closed, (if fileId ≠ 0 then ((c.release a).2, p) else (c, p.freePage a)).1,
          (if fileId ≠ 0 then ((c.release a).2, p) else (c, p.freePage a)).2⟩)) ∧
      Idle closed (next + pages * kPageSize) := by
  obtain ⟨i, hmap, hfind⟩ := h.map hnext fileId hpages hcount
  obtain ⟨mapping, hmapping⟩ : ∃ mapping : Mapping,
      mapping = ⟨s.maps.mNextAddress, pages, fileId, true, true, true, fun _ => 0⟩ := ⟨_, rfl⟩
  have haddress : mapping.address = next := by rw [hmapping, ← h.address]
  have hfile : mapping.fileId = fileId := by rw [hmapping]
  have hopen : (s.maps.openMapping i pages fileId true true).mMappings i = mapping := by
    rw [hmapping]
    exact Function.update_self ..
  have hclosed : Idle ((s.maps.openMapping i pages fileId true true).setMapping i
      { mapping.setPage 0 a with active := false }) (next + pages * kPageSize) := h.closed i pages fileId rfl
  -- from here on only the entry of the mapping matters
  generalize s.maps.openMapping i pages fileId true true = opened at hmap hfind hopen hclosed
  refine ⟨opened, opened.setMapping i (mapping.setPage 0 a), _, hmap, ?_, fun c p => ?_, hclosed⟩
  · rw [← haddress] at hfind ⊢
    have hfault := handlePageFault_first (s := ⟨opened, s.cache, s.phys⟩) hfind hopen (by rw [hmapping])
      (by rw [hmapping]) (hfill opened mapping hfile) rfl
    rw [hfile] at hfault
    exact hfault
  · have hfind' : (opened.setMapping i (mapping.setPage 0 a)).find (mapping.setPage 0 a).address = some i := by
      rw [← hopen, find_setPage, hopen]
      exact haddress ▸ hfind
    have hfilled : (opened.setMapping i (mapping.setPage 0 a)).mMappings i = mapping.setPage 0 a :=
      Function.update_self ..
    have hunmap := unmap_at (s := ⟨opened.setMapping i (mapping.setPage 0 a), c, p⟩) hfind' hfilled
    have hloop := foldl_releasePage_first (mapping.setPage 0 a) hnz
      ((Mapping.setPage_apply ..).trans (if_pos rfl))
      (fun page hpage => by rw [Mapping.setPage_apply, if_neg hpage, hmapping]) (by rw [hmapping]; exact hcount.1) c p
    have hfile' : (mapping.setPage 0 a).fileId = fileId := hfile
    rw [hfile'] at hloop
    rw [hloop, setMapping_idem] at hunmap
    rw [← haddress]
    exact hunmap

/-- **The anonymous mapping** is filled with a page, which comes back with its end. -/
theorem selfTestAnonymous_eq (h : Idle s.maps next) (hnext : IsStart next) (hready : s.phys.pmm.Ready)
    (hroom : s.phys.pmm.Room 1) :
    ∃ maps phys, s.selfTestAnonymous = (true, ⟨maps, s.cache, phys⟩) ∧ Idle maps (next + 2 * kPageSize) ∧
      s.phys.Lends phys [] := by
  have hpages : (kPageSize * 2 + kPageSize - 1) / kPageSize = 2 := by decide
  obtain ⟨a, phys, hcall, -, hlent⟩ := (Physical.Lends.refl hready).allocatePage hroom
  have hnz := hlent.nonzero List.mem_cons_self
  have hfill : ∀ maps (mapping : Mapping), mapping.fileId = 0 →
      materialize ⟨maps, s.cache, s.phys⟩ mapping 0 = (a, ⟨maps, s.cache, phys.clearPage a⟩) := by
    intro maps mapping hfile
    unfold materialize
    rw [if_neg (by rw [hfile]; simp)]
    dsimp only
    rw [hcall]
    dsimp only
    rw [if_pos hnz]
  obtain ⟨opened, filled, closed, hmap, hfault, hunmap, hidle⟩ := h.firstPage hnext hpages (by decide) hnz hfill
  refine ⟨closed, (phys.clearPage a).freePage a, ?_, hidle, ?_⟩
  · unfold selfTestAnonymous
    rw [hmap]
    dsimp only
    rw [if_neg hnext.nonzero, hfault]
    dsimp only
    rw [if_neg hnz, hunmap]
    rfl
  · have hback := (hlent.clearPage List.mem_cons_self).freePage List.mem_cons_self
    rw [List.erase_cons_head] at hback
    exact hback

end Mapped

namespace PageCache

variable {p : Physical} {e : Fin kPageCacheEntryCount} {entry : CacheEntry}

/-- The cache with one entry. -/
def one (e : Fin kPageCacheEntryCount) (entry : CacheEntry) : PageCache := (init {}).setEntry e entry

theorem one_apply : (one e entry).mEntries e = entry := (setEntry_apply ..).trans (if_pos rfl)

theorem eq_of_active {q : Fin kPageCacheEntryCount} (h : ((one e entry).mEntries q).active = true) : q = e := by
  by_contra hne
  have hother : (one e entry).mEntries q = {} := (setEntry_apply ..).trans (if_neg hne)
  rw [hother] at h
  exact absurd h Bool.false_ne_true

theorem one_setEntry (entry' : CacheEntry) : (one e entry).setEntry e entry' = one e entry' := by
  unfold one setEntry
  dsimp only
  rw [Function.update_idem]

theorem one_markDirty (e : Fin kPageCacheEntryCount) (entry : CacheEntry) (hactive : entry.active = true) :
    (one e entry).markDirty entry.physical = one e { entry with dirty := true } := by
  unfold markDirty one
  congr 1
  funext q
  simp only [setEntry_apply]
  by_cases hq : q = e
  · subst hq
    simp only [if_true, hactive, beq_self_eq_true, Bool.and_self, Function.update_self]
  · rw [Function.update_of_ne hq, if_neg hq]
    rfl

/-- **`Release`** of the last reference. -/
theorem one_release (fileId pageOffset a : UInt64) :
    ((one e ⟨fileId, pageOffset, a, 1, true, true⟩).release a).2 = one e ⟨fileId, pageOffset, a, 0, true, true⟩ := by
  have hfound : (one e ⟨fileId, pageOffset, a, 1, true, true⟩).findReferenced a = some e := by
    apply Lib.firstSlot_unique
    · simp [one_apply]
    · intro q hq
      simp only [Bool.and_eq_true] at hq
      exact eq_of_active hq.1.1
  unfold release
  rw [hfound]
  dsimp only
  rw [one_apply, one_setEntry]
  have hlast : (1 : UInt16) - 1 = 0 := by decide
  show one e ⟨fileId, pageOffset, a, 1 - 1, true, true⟩ = _
  rw [hlast]

/-- **`Evict`** of a page that nobody refers to. -/
theorem one_evict (c : PageCache) (fileId pageOffset a : UInt64) (p : Physical) :
    (one e ⟨fileId, pageOffset, a, 0, true, true⟩).evict fileId pageOffset p = (true, c.init, p.freePage a) := by
  have hfound : (one e ⟨fileId, pageOffset, a, 0, true, true⟩).findEvictable fileId pageOffset = some e := by
    apply Lib.firstSlot_unique
    · simp [one_apply, CacheEntry.Caches]
    · intro q hq
      rw [Bool.and_eq_true, decide_eq_true_eq] at hq
      exact eq_of_active hq.1.1
  have hempty : one e {} = c.init :=
    congrArg (PageCache.mk true) (Function.update_eq_self e fun _ => ({} : CacheEntry))
  unfold evict
  rw [hfound]
  dsimp only
  rw [one_apply, one_setEntry, hempty]

/-- **A page of a file that is acquired, written to, released and evicted** leaves the cache empty. -/
theorem acquire_evict (c : PageCache) (hready : p.pmm.Ready) (hroom : p.pmm.Room 1) (fileId pageOffset : UInt64) :
    ∃ a filled phys phys', a ≠ 0 ∧ c.init.acquire fileId pageOffset p = (a, filled, phys) ∧
      ((filled.markDirty a).release a).2.evict fileId pageOffset phys = (true, c.init, phys') ∧ p.Lends phys' [] := by
  obtain ⟨a, phys, hcall, -, hlent⟩ := (Physical.Lends.refl hready).allocatePage hroom
  have hnz := hlent.nonzero List.mem_cons_self
  have hnone : c.init.findEntry fileId pageOffset = none :=
    Lib.firstSlot_eq_none_iff.mpr fun q => decide_eq_false fun hcaches => Bool.false_ne_true hcaches.1
  have hfree : ∃ e, c.init.findFreeEntry = some e := Lib.exists_firstSlot (i := 0) rfl
  obtain ⟨e, hfree⟩ := hfree
  have hacquire : c.init.acquire fileId pageOffset p =
      (a, one e ⟨fileId, pageOffset, a, 1, false, true⟩, phys.clearPage a) := by
    unfold acquire
    rw [hnone, hfree]
    dsimp only
    rw [if_pos (show c.init.mPhysicalMemory = true from rfl), hcall]
    dsimp only
    rw [if_neg hnz]
    rfl
  have hdirty := one_markDirty e ⟨fileId, pageOffset, a, 1, false, true⟩ rfl
  have hback := (hlent.clearPage List.mem_cons_self).freePage List.mem_cons_self
  rw [List.erase_cons_head] at hback
  refine ⟨a, _, _, _, hnz, hacquire, ?_, hback⟩
  rw [hdirty, one_release, one_evict]

end PageCache

/-- **The mapping of a file** is filled from the cache, which is empty again after the page has been evicted. -/
theorem Mapped.selfTestFile_eq {s : Mapped} {next : UInt64} (h : Idle s.maps next) (hnext : IsStart next)
    (hready : s.phys.pmm.Ready) (hroom : s.phys.pmm.Room 1) (hcache : s.cache = PageCache.init {}) :
    ∃ maps phys, s.selfTestFile = (true, ⟨maps, s.cache, phys⟩) ∧ Idle maps (next + 1 * kPageSize) ∧
      s.phys.Lends phys [] := by
  have hpages : (kPageSize + kPageSize - 1) / kPageSize = 1 := by decide
  obtain ⟨a, cache, phys, phys', hnz, hacquire, hevict, hback⟩ := PageCache.acquire_evict {} hready hroom 7 0
  rw [← hcache] at hacquire hevict
  have hfill : ∀ maps (mapping : Mapping), mapping.fileId = 7 →
      materialize ⟨maps, s.cache, s.phys⟩ mapping 0 = (a, ⟨maps, cache, phys⟩) := by
    intro maps mapping hfile
    unfold materialize
    rw [if_pos (by rw [hfile]; decide), hfile]
    have hcall : s.cache.acquire 7 (UInt64.ofNat 0) s.phys = (a, cache, phys) := hacquire
    dsimp only
    rw [hcall]
  obtain ⟨opened, filled, closed, hmap, hfault, hunmap, hidle⟩ := h.firstPage hnext hpages (by decide) hnz hfill
  refine ⟨closed, phys', ?_, hidle, hback⟩
  unfold selfTestFile
  rw [hmap]
  dsimp only
  rw [hfault]
  dsimp only
  rw [if_neg (by simp [hnext.nonzero, hnz]), hunmap]
  show (if !true = true then _ else _) = _
  rw [if_neg (by simp), if_pos (by decide), if_pos (by decide)]
  dsimp only
  rw [hevict]

/-! ## Swap -/

namespace Physical

variable {p : Physical} {a b : UInt64}

/-- The first byte of a page that has been copied. -/
theorem copyPage_start (ha : IsFrame a) (hb : IsFrame b) : (p.copyPage a b).bytes a = p.bytes b := by
  have hbyte : p.bytes.copy a b kPageSize.toNat (a + UInt64.ofNat 0) = p.bytes (b + UInt64.ofNat 0) :=
    copyPage_byte (forward_of_aligned ha.1 hb.1) (by omega)
  have hzero : UInt64.ofNat 0 = 0 := rfl
  rw [hzero, UInt64.add_zero, UInt64.add_zero] at hbyte
  exact hbyte

/-- A copy to another page. -/
theorem copyPage_start_of_ne (ha : IsFrame a) (hb : IsFrame b) (hne : b ≠ a) (source : UInt64) :
    (p.copyPage a source).bytes b = p.bytes b := by
  have hbyte : p.bytes.copy a source kPageSize.toNat (b + UInt64.ofNat 0) = p.bytes (b + UInt64.ofNat 0) :=
    copyPage_apart (hb.apart ha hne) (by omega)
  have hzero : UInt64.ofNat 0 = 0 := rfl
  rw [hzero, UInt64.add_zero] at hbyte
  exact hbyte

theorem store_self (value : UInt8) : (p.store a value).bytes a = value := Function.update_self ..

theorem store_of_ne (hne : b ≠ a) (value : UInt8) : (p.store a value).bytes b = p.bytes b :=
  Function.update_of_ne hne ..

end Physical

namespace SwapManager

variable {m : SwapManager} {p q : Physical} {physical backing : UInt64}

/-- **`SwapOut`** into the first slot. -/
theorem swapOut_first (m : SwapManager) (hphysical : physical ≠ 0) (hbacking : backing ≠ 0)
    (hcall : p.allocatePage = (backing, q)) :
    m.init.swapOut physical p = (0, m.init.setSlot 0 ⟨backing, true⟩, q.copyPage backing physical) := by
  have hslot : m.init.findUnused = some 0 := Lib.firstSlot_eq_some_iff.mpr ⟨rfl, fun j hj => absurd hj (Fin.not_lt_zero j)⟩
  unfold swapOut
  rw [if_neg (by simp [init, hphysical]), hslot]
  dsimp only
  rw [hcall]
  dsimp only
  rw [if_neg hbacking]
  rfl

/-- **`SwapIn`** from there. -/
theorem swapIn_first (m : SwapManager) (hphysical : physical ≠ 0) :
    (m.init.setSlot 0 ⟨backing, true⟩).swapIn (0 : Int32).toUInt32 physical p =
      (true, m.init, (p.copyPage physical backing).freePage backing) := by
  have hused : (m.init.setSlot 0 ⟨backing, true⟩).mSlots 0 = ⟨backing, true⟩ := (setSlot_apply ..).trans (if_pos rfl)
  have hempty : (m.init.setSlot 0 ⟨backing, true⟩).setSlot 0 {} = m.init := by
    unfold setSlot
    dsimp only
    rw [Function.update_idem]
    exact congrArg (SwapManager.mk true) (Function.update_eq_self 0 fun _ => ({} : SwapSlot))
  unfold swapIn
  rw [if_neg (by simp [init, setSlot]), dif_pos (by decide)]
  dsimp only
  show (if !((m.init.setSlot 0 ⟨backing, true⟩).mSlots 0).used = true ∨ physical = 0 then _ else _) = _
  rw [hused, if_neg (by simp [hphysical])]
  show (true, (m.init.setSlot 0 ⟨backing, true⟩).setSlot 0 {},
    (p.copyPage physical ((m.init.setSlot 0 ⟨backing, true⟩).mSlots 0).backing).freePage
      ((m.init.setSlot 0 ⟨backing, true⟩).mSlots 0).backing) = _
  rw [hused, hempty]

/-- **A page that is swapped out and in again** has its first byte in another place. -/
theorem selfTest_eq (m : SwapManager) (hready : p.pmm.Ready) (hroom : p.pmm.Room 3) :
    ∃ phys, m.init.selfTest p = (true, m.init, phys) ∧ p.Lends phys [] := by
  obtain ⟨a, p₁, hcalla, -, hlent⟩ := (Physical.Lends.refl hready).allocatePage (hroom.mono (by simp))
  obtain ⟨b, p₂, hcallb, -, hlent⟩ := hlent.allocatePage (hroom.mono (by simp))
  have hlent : p.Lends (p₂.store a 0x6D) [b, a] := hlent.store (by simp) 0x6D
  have hstored : (p₂.store a 0x6D).bytes a = 0x6D := Physical.store_self _
  generalize hp₃ : p₂.store a 0x6D = p₃ at hlent hstored
  obtain ⟨c, p₄, hcallc, hbytes, hlent⟩ := hlent.allocatePage (hroom.mono (by simp))
  have ha := hlent.isFrame (a := a) (by simp)
  have hb := hlent.isFrame (a := b) (by simp)
  have hc := hlent.isFrame (a := c) (by simp)
  have hnza := hlent.nonzero (a := a) (by simp)
  have hnzb := hlent.nonzero (a := b) (by simp)
  have hnzc := hlent.nonzero (a := c) (by simp)
  -- out
  have hout := swapOut_first m hnza hnzc hcallc
  have hcopy : (p₄.copyPage c a).bytes c = 0x6D := by rw [Physical.copyPage_start hc ha, hbytes, hstored]
  have hlent := hlent.copyPage (a := c) (by simp) a
  generalize p₄.copyPage c a = p₅ at hout hcopy hlent
  -- in
  have hin : (m.init.setSlot 0 ⟨c, true⟩).swapIn (0 : Int32).toUInt32 b p₅ =
      (true, m.init, (p₅.copyPage b c).freePage c) := swapIn_first m hnzb
  have hcopied : ((p₅.copyPage b c).freePage c).bytes b = 0x6D := by
    rw [Physical.freePage_bytes, Physical.copyPage_start hb hc, hcopy]
  have hlent := (hlent.copyPage (a := b) (by simp) c).freePage (a := c) (by simp)
  rw [List.erase_cons_head] at hlent
  generalize (p₅.copyPage b c).freePage c = p₆ at hin hcopied hlent
  refine ⟨_, ?_, hlent.freeBoth⟩
  unfold selfTest
  rw [hcalla]
  dsimp only
  rw [hcallb]
  dsimp only
  rw [if_neg (by simp [hnza, hnzb]), hp₃, hout]
  dsimp only
  rw [if_neg (by decide), hin]
  dsimp only
  rw [if_neg (by simp [hcopied])]

end SwapManager

/-! ## Copy on write -/

namespace CopyOnWriteManager

variable {p q : Physical} {x y z : CowPage} {physical : UInt64}

/-- The table with two entries. -/
def two (x y : CowPage) : CopyOnWriteManager := ((init {}).setPage 0 x).setPage 1 y

theorem setPage_apply (m : CopyOnWriteManager) (i q : Fin kCowTrackedPages) (page : CowPage) :
    (m.setPage i page).mPages q = if q = i then page else m.mPages q := Function.update_apply ..

theorem two_first : (two x y).mPages 0 = x := by
  unfold two
  rw [setPage_apply, if_neg (by decide), setPage_apply, if_pos rfl]

theorem two_second : (two x y).mPages 1 = y := by
  unfold two
  rw [setPage_apply, if_pos rfl]

theorem two_setFirst : (two x y).setPage 0 z = two z y := by
  unfold two setPage
  dsimp only
  rw [Function.update_comm (by decide), Function.update_idem]

theorem two_setSecond : (two x y).setPage 1 z = two x z := by
  unfold two setPage
  dsimp only
  rw [Function.update_idem]

theorem two_empty (m : CopyOnWriteManager) : two {} {} = m.init := by
  have hnone : ∀ i : Fin kCowTrackedPages, Function.update (fun _ => ({} : CowPage)) i {} = fun _ => {} :=
    fun i => Function.update_eq_self i _
  unfold two setPage init
  dsimp only
  rw [hnone, hnone]

theorem two_findFirst (hactive : x.active = true) : (two x y).findPage x.physical = some 0 := by
  refine Lib.firstSlot_eq_some_iff.mpr ⟨?_, fun j hj => absurd hj (Fin.not_lt_zero j)⟩
  rw [two_first, hactive, beq_self_eq_true]
  rfl

theorem two_findSecond (hactive : y.active = true) (hne : x.active = true → x.physical ≠ y.physical) :
    (two x y).findPage y.physical = some 1 := by
  refine Lib.firstSlot_eq_some_iff.mpr ⟨?_, fun j hj => ?_⟩
  · rw [two_second, hactive, beq_self_eq_true]
    rfl
  · obtain rfl := (Fin.lt_one_iff j).mp hj
    rw [two_first]
    simpa using hne

/-- **`AllocatePage`** into the first entry. -/
theorem two_allocatePage (hcall : p.allocatePage = (physical, q)) (hnz : physical ≠ 0) :
    (two {} {}).allocatePage p = (physical, two ⟨physical, 1, true⟩ {}, q.clearPage physical) := by
  have hslot : (two {} {}).findFreeSlot = some 0 := Lib.firstSlot_eq_some_iff.mpr
    ⟨by rw [two_first]; rfl, fun j hj => absurd hj (Fin.not_lt_zero j)⟩
  unfold allocatePage
  rw [hslot]
  dsimp only
  rw [if_neg (by simp [two, init]), hcall]
  dsimp only
  rw [if_neg hnz, two_setFirst]

/-- **`ClonePage`** gives the page of the first entry one more owner. -/
theorem two_clonePage : (two ⟨physical, 1, true⟩ y).clonePage physical = (true, two ⟨physical, 2, true⟩ y) := by
  have hfind : (two ⟨physical, 1, true⟩ y).findPage physical = some 0 := two_findFirst (x := ⟨physical, 1, true⟩) rfl
  unfold clonePage
  rw [hfind]
  dsimp only
  rw [two_first, if_neg (show (1 : UInt16) ≠ 0xFFFF by decide), two_setFirst]
  rfl

/-- **`ResolveWrite`** of a page with two owners makes a copy in the second entry. -/
theorem two_resolveWrite {copy : UInt64} (hcall : p.allocatePage = (copy, q)) (hnz : copy ≠ 0) :
    (two ⟨physical, 2, true⟩ {}).resolveWrite physical p =
      (copy, two ⟨physical, 1, true⟩ ⟨copy, 1, true⟩, q.copyPage copy physical) := by
  have hfind : (two ⟨physical, 2, true⟩ {}).findPage physical = some 0 :=
    two_findFirst (x := ⟨physical, 2, true⟩) rfl
  have hslot : (two ⟨physical, 2, true⟩ {}).findFreeSlot = some 1 := by
    refine Lib.firstSlot_eq_some_iff.mpr ⟨by rw [two_second]; rfl, fun j hj => ?_⟩
    obtain rfl := (Fin.lt_one_iff j).mp hj
    rw [two_first]
    rfl
  unfold resolveWrite
  rw [hfind]
  dsimp only
  rw [two_first, if_neg (show ¬ (2 : UInt16) ≤ 1 by decide), hslot]
  dsimp only
  rw [if_neg (by simp [two, init]), hcall]
  dsimp only
  rw [if_neg hnz, two_setFirst, two_setSecond]
  rfl

theorem two_countFirst (hactive : x.active = true) : (two x y).referenceCount x.physical = x.references := by
  unfold referenceCount
  rw [two_findFirst hactive]
  dsimp only
  rw [two_first]

theorem two_countSecond (hactive : y.active = true) (hne : x.active = true → x.physical ≠ y.physical) :
    (two x y).referenceCount y.physical = y.references := by
  unfold referenceCount
  rw [two_findSecond hactive hne]
  dsimp only
  rw [two_second]

theorem withReferences_last :
    (⟨physical, 1, true⟩ : CowPage).withReferences ((⟨physical, 1, true⟩ : CowPage).references - 1) =
      ⟨physical, 0, true⟩ := by
  have hzero : (1 : UInt16) - 1 = 0 := by decide
  exact congrArg (fun r => (⟨physical, r, true⟩ : CowPage)) hzero

/-- **`ReleasePage`** of the last owner empties the entry. -/
theorem two_releaseFirst (y : CowPage) (p : Physical) :
    (two ⟨physical, 1, true⟩ y).releasePage physical p = (two {} y, p.freePage physical) := by
  have hfind : (two ⟨physical, 1, true⟩ y).findPage physical = some 0 := two_findFirst (x := ⟨physical, 1, true⟩) rfl
  unfold releasePage
  rw [hfind]
  dsimp only
  rw [two_first, if_neg (show (1 : UInt16) ≠ 0 by decide), withReferences_last, if_pos rfl, two_setFirst]

theorem two_releaseSecond (hne : x.active = true → x.physical ≠ physical) (p : Physical) :
    (two x ⟨physical, 1, true⟩).releasePage physical p = (two x {}, p.freePage physical) := by
  have hfind : (two x ⟨physical, 1, true⟩).findPage physical = some 1 :=
    two_findSecond (y := ⟨physical, 1, true⟩) rfl hne
  unfold releasePage
  rw [hfind]
  dsimp only
  rw [two_second, if_neg (show (1 : UInt16) ≠ 0 by decide), withReferences_last, if_pos rfl, two_setSecond]

/-- **Two owners of one page**: the copy is private, and neither page is left at the end. -/
theorem selfTest_eq (m : CopyOnWriteManager) (hready : p.pmm.Ready) (hroom : p.pmm.Room 2) :
    ∃ phys, m.init.selfTest p = (true, m.init, phys) ∧ p.Lends phys [] := by
  rw [← two_empty m]
  obtain ⟨a, p₁, hcalla, -, hlent⟩ := (Physical.Lends.refl hready).allocatePage (hroom.mono (by simp))
  have hnza := hlent.nonzero (a := a) (by simp)
  have halloc := two_allocatePage hcalla hnza
  have hlent := hlent.clearPage (a := a) (by simp)
  generalize p₁.clearPage a = p₁ at halloc hlent
  have hlent : p.Lends (p₁.store a 0x5A) [a] := hlent.store (by simp) 0x5A
  have hstored : (p₁.store a 0x5A).bytes a = 0x5A := Physical.store_self _
  generalize hp₂ : p₁.store a 0x5A = p₂ at hlent hstored
  have hcount : (two ⟨a, 2, true⟩ {}).referenceCount a = 2 := two_countFirst (x := ⟨a, 2, true⟩) rfl
  -- a page of one's own
  obtain ⟨b, p₃, hcallb, hbytes, hlent⟩ := hlent.allocatePage (hroom.mono (by simp))
  have ha := hlent.isFrame (a := a) (by simp)
  have hb := hlent.isFrame (a := b) (by simp)
  have hnzb := hlent.nonzero (a := b) (by simp)
  have hba := hlent.ne (b := a) (by simp)
  have hresolve : (two ⟨a, 2, true⟩ {}).resolveWrite a p₂ =
      (b, two ⟨a, 1, true⟩ ⟨b, 1, true⟩, p₃.copyPage b a) := two_resolveWrite hcallb hnzb
  have hkept : (p₃.copyPage b a).bytes a = 0x5A := by
    rw [Physical.copyPage_start_of_ne hb ha (Ne.symm hba), hbytes, hstored]
  have hlent := hlent.copyPage (a := b) (by simp) a
  generalize p₃.copyPage b a = p₃ at hresolve hkept hlent
  have hshared : (p₃.store b 0xA5).bytes a = 0x5A := (Physical.store_of_ne (Ne.symm hba) _).trans hkept
  have hprivate : (p₃.store b 0xA5).bytes b = 0xA5 := Physical.store_self _
  have hlent : p.Lends (p₃.store b 0xA5) [b, a] := hlent.store (by simp) 0xA5
  generalize hp₄ : p₃.store b 0xA5 = p₄ at hshared hprivate hlent
  have hfirst : (two ⟨a, 1, true⟩ ⟨b, 1, true⟩).referenceCount a = 1 := two_countFirst (x := ⟨a, 1, true⟩) rfl
  have hsecond : (two ⟨a, 1, true⟩ ⟨b, 1, true⟩).referenceCount b = 1 :=
    two_countSecond (x := ⟨a, 1, true⟩) (y := ⟨b, 1, true⟩) rfl fun _ => Ne.symm hba
  have hlast : (two {} ⟨b, 1, true⟩).releasePage b (p₄.freePage a) = (two {} {}, (p₄.freePage a).freePage b) :=
    two_releaseSecond (fun _ => Ne.symm hnzb) _
  refine ⟨_, ?_, hlent.freeBoth⟩
  unfold selfTest
  rw [halloc]
  dsimp only
  rw [if_neg hnza, two_clonePage]
  dsimp only
  rw [← hp₂] at hresolve
  rw [if_neg (by simp [hcount]), hresolve]
  dsimp only
  rw [if_neg (by simp [hnzb, hba]), hp₄, if_neg (by simp [hshared, hprivate, hfirst, hsecond]), two_releaseFirst]
  dsimp only
  rw [hlast]

end CopyOnWriteManager

/-! ## Shared memory -/

namespace SharedMemoryManager

variable {p : Physical} {segment : SharedSegment}

local instance segmentCount_neZero : NeZero kSharedSegmentCount := ⟨by decide⟩

local instance segmentMaxPages_neZero : NeZero kSharedSegmentMaxPages := ⟨by decide⟩

/-- The table after its first `Create`, with this segment in the first place. -/
def one (segment : SharedSegment) : SharedMemoryManager := (init {}).nextId.setSegment 0 segment

theorem one_apply : (one segment).mSegments 0 = segment := (setSegment_apply ..).trans (if_pos rfl)

theorem one_setSegment (segment' : SharedSegment) : (one segment).setSegment 0 segment' = one segment' := by
  unfold one setSegment
  dsimp only
  rw [Function.update_idem]

theorem one_find (hactive : segment.active = true) : (one segment).findSegment segment.id = some 0 := by
  refine Lib.firstSlot_eq_some_iff.mpr ⟨?_, fun j hj => absurd hj (Fin.not_lt_zero j)⟩
  rw [one_apply, hactive, beq_self_eq_true]
  rfl

theorem one_empty (m : SharedMemoryManager) : one {} = m.init.nextId :=
  congrArg (SharedMemoryManager.mk true 2) (Function.update_eq_self 0 fun _ => ({} : SharedSegment))

/-- The segment of the test, with so many references. -/
def twoPages (a b : UInt64) (references : UInt16) : SharedSegment :=
  ((⟨1, 2, fun _ => 0, references, true⟩ : SharedSegment).setPage 0 a).setPage 1 b

@[simp] theorem twoPages_references (a b : UInt64) (references : UInt16) :
    (twoPages a b references).references = references := rfl

@[simp] theorem twoPages_pageCount (a b : UInt64) (references : UInt16) : (twoPages a b references).pageCount = 2 := rfl

@[simp] theorem twoPages_withReferences (a b : UInt64) (references references' : UInt16) :
    (twoPages a b references).withReferences references' = twoPages a b references' := rfl

theorem pageIndices_two : SharedSegment.pageIndices 2 = [0, 1] := by decide

theorem twoPages_first (a b : UInt64) (references : UInt16) : (twoPages a b references).pages 0 = a := by
  unfold twoPages
  rw [SharedSegment.setPage_pages, Function.update_of_ne (by decide), SharedSegment.setPage_pages, Function.update_self]

theorem twoPages_frames {a b : UInt64} (ha : a ≠ 0) (hb : b ≠ 0) (references : UInt16) :
    (twoPages a b references).frames = [a, b] := by
  have hsecond : (twoPages a b references).pages 1 = b := by
    unfold twoPages
    rw [SharedSegment.setPage_pages, Function.update_self]
  unfold SharedSegment.frames
  rw [twoPages_pageCount, pageIndices_two, List.map_cons, List.map_cons, List.map_nil,
    twoPages_first, hsecond]
  simp [ha, hb]

theorem twoPages_destroyed (a b : UInt64) (references : UInt16) (p : Physical) :
    ((twoPages a b references).destroyPartial p).1 = {} := by
  have hpages : (fun k => if k ∈ SharedSegment.pageIndices 2 then 0 else (twoPages a b references).pages k) =
      fun _ => 0 := by
    funext k
    rw [pageIndices_two]
    by_cases hk : k ∈ [0, 1]
    · rw [if_pos hk]
    · rw [if_neg hk]
      simp only [List.mem_cons, List.not_mem_nil, or_false, not_or] at hk
      unfold twoPages
      rw [SharedSegment.setPage_pages, Function.update_of_ne hk.2, SharedSegment.setPage_pages,
        Function.update_of_ne hk.1]
  unfold SharedSegment.destroyPartial
  rw [twoPages_pageCount, hpages]

/-- **`Create`** of two pages makes the first segment. -/
theorem create_one (m : SharedMemoryManager) {a b : UInt64} {q r : Physical} (hcalla : p.allocatePage = (a, q))
    (hnza : a ≠ 0) (hcallb : (q.clearPage a).allocatePage = (b, r)) (hnzb : b ≠ 0) :
    m.init.create 2 p = (1, one (twoPages a b 1), r.clearPage b) := by
  have hslot : m.init.findFreeSegment = some 0 :=
    Lib.firstSlot_eq_some_iff.mpr ⟨rfl, fun j hj => absurd hj (Fin.not_lt_zero j)⟩
  have hpages : SharedSegment.allocatePages ⟨1, 2, fun _ => 0, 1, true⟩ p [0, 1] =
      (true, twoPages a b 1, r.clearPage b) := by
    unfold SharedSegment.allocatePages
    rw [hcalla]
    dsimp only
    rw [if_neg hnza]
    unfold SharedSegment.allocatePages
    rw [hcallb]
    dsimp only
    rw [if_neg hnzb]
    rfl
  have hsegment : (⟨m.init.mNextId, 2, (m.init.mSegments 0).pages, 1, true⟩ : SharedSegment) =
      ⟨1, 2, fun _ => 0, 1, true⟩ := rfl
  have hfits : ¬ ((!true) = true ∨ (2 : UInt64) = 0 ∨ (2 : UInt64) > UInt64.ofNat kSharedSegmentMaxPages) := by decide
  unfold create
  rw [show m.init.mPhysicalMemory = true from rfl, if_neg hfits, hslot]
  dsimp only
  rw [pageIndices_two]
  rw [hsegment, hpages]
  rfl

theorem one_attach (a b : UInt64) : (one (twoPages a b 1)).attach 1 = (true, one (twoPages a b 2)) := by
  have hfind : (one (twoPages a b 1)).findSegment 1 = some 0 := one_find rfl
  unfold attach
  rw [hfind]
  dsimp only
  rw [one_apply, twoPages_references, if_neg (by decide), one_setSegment]
  rfl

/-- **`Release`**: one reference less, -/
theorem one_release (a b : UInt64) (p : Physical) :
    (one (twoPages a b 2)).release 1 p = (one (twoPages a b 1), p) := by
  have hfind : (one (twoPages a b 2)).findSegment 1 = some 0 := one_find rfl
  have hone : (2 : UInt16) - 1 = 1 := by decide
  unfold release
  rw [hfind]
  dsimp only
  rw [one_apply, twoPages_references, if_neg (by decide), hone, twoPages_withReferences, twoPages_references,
    if_neg (by decide), one_setSegment]

/-- and the last one, with which the pages come back. -/
theorem one_releaseLast (m : SharedMemoryManager) {a b : UInt64} (hnza : a ≠ 0) (hnzb : b ≠ 0) (p : Physical) :
    (one (twoPages a b 1)).release 1 p = (m.init.nextId, (p.freePage a).freePage b) := by
  have hfind : (one (twoPages a b 1)).findSegment 1 = some 0 := one_find rfl
  have hzero : (1 : UInt16) - 1 = 0 := by decide
  unfold release
  rw [hfind]
  dsimp only
  rw [one_apply, twoPages_references, if_neg (by decide), hzero, twoPages_withReferences, twoPages_references,
    if_pos rfl, twoPages_destroyed, one_setSegment, one_empty m]
  unfold SharedSegment.destroyPartial
  rw [twoPages_frames hnza hnzb]
  rfl

/-- **A segment that is made, attached to and released twice.** The next segment has another number. -/
theorem selfTest_eq (m : SharedMemoryManager) (hready : p.pmm.Ready) (hroom : p.pmm.Room 2) :
    ∃ phys, m.init.selfTest p = (true, m.init.nextId, phys) ∧ p.Lends phys [] := by
  obtain ⟨a, p₁, hcalla, -, hlent⟩ := (Physical.Lends.refl hready).allocatePage (hroom.mono (by simp))
  have hlent := hlent.clearPage (a := a) (by simp)
  obtain ⟨b, p₂, hcallb, -, hlent⟩ := hlent.allocatePage (hroom.mono (by simp))
  have hnza := hlent.nonzero (a := a) (by simp)
  have hnzb := hlent.nonzero (a := b) (by simp)
  have hlent := hlent.clearPage (a := b) (by simp)
  have hcreate := create_one m hcalla hnza hcallb hnzb
  generalize p₂.clearPage b = p₃ at hlent hcreate
  have hfind : (one (twoPages a b 2)).findSegment 1 = some 0 := one_find rfl
  have hcount : (one (twoPages a b 2)).referenceCount 1 = 2 := by
    unfold referenceCount
    rw [hfind]
    dsimp only
    rw [one_apply]
    rfl
  have hpage : (one (twoPages a b 2)).page 1 0 = a := by
    unfold page
    rw [hfind]
    dsimp only
    rw [one_apply, twoPages_pageCount, if_neg (by decide), dif_pos (by decide)]
    exact twoPages_first a b 2
  have hlent : p.Lends (p₃.store a 0xC3) [b, a] := hlent.store (by simp) 0xC3
  have hstored : (p₃.store a 0xC3).bytes a = 0xC3 := Physical.store_self _
  generalize hp₄ : p₃.store a 0xC3 = p₄ at hlent hstored
  refine ⟨_, ?_, hlent.freeBoth⟩
  unfold selfTest
  rw [hcreate]
  dsimp only
  rw [if_neg (by decide), one_attach]
  dsimp only
  rw [if_neg (by simp [hcount]), hpage, if_neg hnza, hp₄, if_neg (by simp [hstored]), one_release]
  dsimp only
  rw [one_releaseLast m hnza hnzb]

end SharedMemoryManager

/-! ## Slab caches -/

namespace SlabAllocator

variable {m : SlabAllocator} {p : Physical} {live : Fin kSlabCacheCount → List UInt64} {i : Fin kSlabCacheCount}
  {size object : UInt64}

/-- An allocation from a cache with a free object. -/
theorem allocate_list (hfind : m.findCache size = some i) (hlist : (m.mCaches i).freeList ≠ 0) :
    m.allocate size p = ((m.mCaches i).freeList, m.setCache i ((m.mCaches i).take p.bytes), p) := by
  unfold allocate
  rw [hfind]
  dsimp only
  rw [if_neg hlist]
  rfl

/-- A release of an object in use. -/
theorem free_inUse (h : Inv m p live) (hfind : m.findCache size = some i) (hlive : object ∈ live i) :
    m.free object size p =
      (true, m.setCache i ((m.mCaches i).give object), { p with bytes := p.bytes.store64 object (m.mCaches i).freeList }) := by
  have htrue := (free_live h hfind hlive).1
  unfold free at htrue ⊢
  split_ifs at htrue ⊢ with hnull
  rw [hfind] at htrue ⊢
  dsimp only at htrue ⊢
  split_ifs at htrue ⊢ with hout
  rfl

/-- An object that is taken and given back. -/
theorem give_take (cache : SlabCache) (bytes : Lib.Bytes) : (cache.take bytes).give cache.freeList = cache := by
  unfold SlabCache.give SlabCache.take
  dsimp only
  rw [UInt64.sub_add_cancel]

/-- The caches once one has given out its first object. -/
def taken (m : SlabAllocator) (i : Fin kSlabCacheCount) (bytes : Lib.Bytes) : SlabAllocator :=
  m.setCache i ((m.mCaches i).take bytes)

theorem Inv.taken (h : Inv m p live) (hlist : (m.mCaches i).freeList ≠ 0) :
    Inv (m.taken i p.bytes) p (Function.update live i ((m.mCaches i).freeList :: live i)) :=
  (Effect.taken i hlist).inv h (by simp)

theorem taken_other {q : Fin kSlabCacheCount} (hne : q ≠ i) (bytes : Lib.Bytes) :
    (m.taken i bytes).mCaches q = m.mCaches q := (setCache_apply ..).trans (if_neg hne)

/-- **The first object of a cache, when it comes back**, leaves the caches and memory as they were without it. -/
theorem free_taken (h : Inv (m.taken i p.bytes) p live) (hfind : (m.taken i p.bytes).findCache size = some i)
    (hlive : (m.mCaches i).freeList ∈ live i) : (m.taken i p.bytes).free (m.mCaches i).freeList size p = (true, m, p) := by
  have hcache : (m.taken i p.bytes).mCaches i = (m.mCaches i).take p.bytes := (setCache_apply ..).trans (if_pos rfl)
  have hsame : (m.taken i p.bytes).setCache i (m.mCaches i) = m := by
    unfold SlabAllocator.taken setCache
    dsimp only
    rw [Function.update_idem, Function.update_eq_self]
  rw [free_inUse h hfind hlive, hcache, give_take, hsame, SlabCache.take_freeList, Lib.Bytes.store64_load64]

/-- Two caches give out objects in any order. -/
theorem taken_comm {q : Fin kSlabCacheCount} (hne : q ≠ i) (bytes : Lib.Bytes) :
    (m.taken i bytes).taken q bytes = (m.taken q bytes).taken i bytes := by
  have hq := taken_other (m := m) hne bytes
  have hi := taken_other (m := m) (Ne.symm hne) bytes
  rw [SlabAllocator.taken, hq, SlabAllocator.taken.eq_def (m.taken q bytes), hi]
  unfold SlabAllocator.taken setCache
  dsimp only
  rw [Function.update_comm hne]

/-- **Two objects of different caches** are allocated and freed; the caches and memory are as they were. -/
theorem selfTest_eq (h : Inv m p live) (hfirst : (m.mCaches 0).freeList ≠ 0) (hsecond : (m.mCaches 2).freeList ≠ 0) :
    m.selfTest p = (true, m, p) := by
  have h24 : Run.cacheFor 24 = some 0 := by decide +kernel
  have h128 : Run.cacheFor 128 = some 2 := by decide +kernel
  have hne : (2 : Fin kSlabCacheCount) ≠ 0 := by decide
  have hfind : ∀ {m : SlabAllocator} {live : Fin kSlabCacheCount → List UInt64} (size), Inv m p live →
      m.findCache size = Run.cacheFor size := fun size h => Run.findCache_eq h.sizes size
  have hkept : (m.taken 0 p.bytes).mCaches 2 = m.mCaches 2 := taken_other hne p.bytes
  have hkept' : (m.taken 2 p.bytes).mCaches 0 = m.mCaches 0 := taken_other (Ne.symm hne) p.bytes
  have h₁ := h.taken hfirst
  have h₂ := h.taken hsecond
  have hsecond' : ((m.taken 0 p.bytes).mCaches 2).freeList ≠ 0 := hkept ▸ hsecond
  have h₃ := h₁.taken hsecond'
  have halloc : m.allocate 24 p = ((m.mCaches 0).freeList, m.taken 0 p.bytes, p) :=
    allocate_list ((hfind 24 h).trans h24) hfirst
  have halloc' : (m.taken 0 p.bytes).allocate 128 p =
      ((m.mCaches 2).freeList, (m.taken 0 p.bytes).taken 2 p.bytes, p) := by
    rw [← hkept]
    exact allocate_list ((hfind 128 h₁).trans h128) hsecond'
  -- the first object comes back while the other is out, so the other is taken first in what is left
  have hfree : ((m.taken 0 p.bytes).taken 2 p.bytes).free (m.mCaches 0).freeList 24 p = (true, m.taken 2 p.bytes, p) := by
    rw [taken_comm hne] at h₃ ⊢
    rw [← hkept']
    refine free_taken h₃ ((hfind 24 h₃).trans h24) ?_
    rw [Function.update_of_ne (Ne.symm hne), Function.update_self, hkept']
    exact List.mem_cons_self
  have hfree' : (m.taken 2 p.bytes).free (m.mCaches 2).freeList 128 p = (true, m, p) := by
    refine free_taken h₂ ((hfind 128 h₂).trans h128) ?_
    rw [Function.update_self]
    exact List.mem_cons_self
  unfold selfTest
  rw [halloc]
  dsimp only
  rw [halloc']
  dsimp only
  rw [if_neg (by simp [hfirst, hsecond]), hfree]
  exact hfree'

/-- What is written to free pages is not in the pages of the caches. -/
theorem Inv.lends (h : Inv m p live) {q : Physical} (hlends : p.Lends q []) : Inv m q live := by
  have hpmm := hlends.pmm h.ready
  refine ⟨hlends.ready, ?_, h.sizes, fun i => h.filled_elsewhere i fun hne b hb => hlends.kept b ?_⟩
  · have hledger : m.ledger q = m.ledger p := by
      unfold ledger
      rw [hpmm]
    rw [hledger]
    exact h.sound
  · -- the page of a cache is not free
    rintro ⟨-, hfree⟩
    obtain ⟨hframe, hused⟩ := h.sound.taken (holds_page hne)
    rw [PhysicalMemoryManager.pageOf_of_mem hframe hb, hused] at hfree
    exact absurd hfree (by simp)

/-- The growth of one cache leaves the others alone. -/
theorem Effect.grown_other {m' : SlabAllocator} {p' : Physical} {q : Fin kSlabCacheCount} {page : UInt64}
    (he : Effect m p (.grown q page) m' p') (hne : i ≠ q) : m'.mCaches i = m.mCaches i := by
  cases he with
  | grown q page hempty hgrants hbytes => rw [setCache_apply, if_neg hne]

/-- **`Prime`**, when it succeeds, has given every cache its objects. -/
theorem primeLoop_lists (h : Inv m p live) {caches : List (Fin kSlabCacheCount)} (hok : (m.primeLoop p caches).1 = true)
    (i : Fin kSlabCacheCount) (hi : i ∈ caches ∨ (m.mCaches i).freeList ≠ 0) :
    ((m.primeLoop p caches).2.1.mCaches i).freeList ≠ 0 := by
  induction caches generalizing m p with
  | nil =>
      rcases hi with hi | hi
      · exact absurd hi (by simp)
      · exact hi
  | cons q caches ih =>
      unfold primeLoop at hok ⊢
      rcases growCache_cases h.ready m q with ⟨hfail, -⟩ | ⟨hgrown, heff⟩
      · rw [hfail] at hok
        exact absurd hok (by simp)
      · have hlist := heff.grown_list h
        have hinv := heff.inv h (by simp)
        generalize m.growCache q p = r at hok hgrown heff hlist hinv ⊢
        obtain ⟨ok, m₁, p₁⟩ := r
        obtain rfl : ok = true := hgrown
        refine ih hinv hok ?_
        by_cases hiq : i = q
        · exact Or.inr (hiq ▸ hlist)
        · -- the growth of `q` has left the list of `i` alone
          rcases hi with hi | hi
          · exact Or.inl ((List.mem_cons.mp hi).resolve_left hiq)
          · right
            rw [heff.grown_other hiq]
            exact hi

/-- The first cache cannot grow when no page is free. -/
theorem free_of_prime {m : SlabAllocator} {p : Physical} (h : (m.init.prime p).1 = true) : p.pmm.mFreePages ≠ 0 := by
  intro hzero
  have hnone : p.pmm.findBlock 1 1 = none := by
    unfold PhysicalMemoryManager.findBlock
    rw [hzero, if_pos (by decide)]
  have hpage : p.allocatePage.1 = 0 := by
    unfold Physical.allocatePage PhysicalMemoryManager.allocatePage PhysicalMemoryManager.allocateContiguous
      PhysicalMemoryManager.allocateAligned
    rw [hnone]
  have hgrow : (m.init.growCache 0 p).1 = false := by
    unfold growCache
    dsimp only
    rw [if_neg (by simp [init]), if_pos hpage]
  have hcaches : List.finRange kSlabCacheCount = [0, 1, 2, 3] := by decide
  unfold prime at h
  rw [hcaches] at h
  unfold primeLoop at h
  dsimp only at h
  rw [hgrow] at h
  exact absurd h (by simp)

end SlabAllocator

/-! ## The whole test -/

namespace MemorySystem

variable {s t u : MemorySystem} {image : KernelImage} {boot : BootInfo}

/-- **What `KernelMemoryInit` has made of the managers** when it comes to the probe. -/
structure Started (t : MemorySystem) : Prop where
  ready   : t.phys.pmm.Ready
  cow     : t.cow = CopyOnWriteManager.init {}
  shared  : t.shared = SharedMemoryManager.init {}
  slab    : SlabAllocator.Inv t.slab t.phys fun _ => []
  lists   : ∀ i, (t.slab.mCaches i).freeList ≠ 0
  huge    : t.hugePages.mPhysicalMemory = true
  numa    : t.numa.mPhysicalMemory = true ∧ t.numa.mNodeCount = 1 ∧ (t.numa.mNodes 0).online = true ∧
    (t.numa.mNodes 0).freePages ≠ 0
  swap    : t.swap = SwapManager.init {}
  cache   : t.cache = PageCache.init {}
  maps    : Mapped.Idle t.maps 0x40000000

/-- **The stages of `KernelMemoryInit`**, when it succeeds: the allocator, the block of the heap, the slab caches. -/
theorem init_stages (hinit : s.kernelMemoryInit image boot = some t) :
    ∃ first pmm bytes slab phys, (s.phys.pmm.init image boot s.phys.bytes).2.Ready ∧
      (s.phys.pmm.init image boot s.phys.bytes).2.findBlock kHeapInitialPages 1 = some first ∧ first ≠ 0 ∧
      PhysicalMemoryManager.Takes (s.phys.pmm.init image boot s.phys.bytes).2 pmm first 128 ∧ pmm.Ready ∧
      s.slab.init.prime ⟨pmm, bytes⟩ = (true, slab, phys) ∧
      t = { s.fresh phys with heap := KernelHeap.atBase (frameOf first), numa := s.numa.init pmm, slab } := by
  unfold kernelMemoryInit at hinit
  have hready : (s.phys.pmm.init image boot s.phys.bytes).1 = true →
      (s.phys.pmm.init image boot s.phys.bytes).2.Ready := by
    intro hok
    apply PhysicalMemoryManager.ready_init
    by_contra hrefused
    unfold PhysicalMemoryManager.init at hok
    rw [if_pos] at hok
    · exact absurd hok Bool.false_ne_true
    · unfold PhysicalMemoryManager.Accepts at hrefused
      by_cases hnull : boot.memory.buffer = 0
      · exact Or.inl hnull
      · exact Or.inr (UInt64.not_le.mp fun hsize => hrefused ⟨hnull, hsize⟩)
  generalize s.phys.pmm.init image boot s.phys.bytes = made at hinit hready ⊢
  obtain ⟨ok, pmm⟩ := made
  cases ok with
  | false => exact absurd hinit (by simp)
  | true =>
      replace hready := hready rfl
      dsimp only at hinit hready ⊢
      rw [if_neg (by simp)] at hinit
      generalize (VirtualMemoryManager.initIdentityMap4GiB image s.phys.bytes).1 = bytes at hinit
      -- the block of the heap
      unfold KernelHeap.init PhysicalMemoryManager.allocateContiguous at hinit
      rcases PhysicalMemoryManager.allocateAligned_cases pmm kHeapInitialPages 1 with
        ⟨-, hfail⟩ | ⟨first, hfind, -, haddr, htakes⟩
      · rw [hfail, if_pos rfl] at hinit
        exact absurd hinit (by simp)
      · have hready' := hready.allocateAligned kHeapInitialPages 1
        generalize pmm.allocateAligned kHeapInitialPages 1 = answer at hinit haddr htakes hready'
        obtain ⟨base, pmm'⟩ := answer
        obtain rfl : base = frameOf first := haddr
        dsimp only at hinit htakes hready'
        by_cases hnz : frameOf first = 0
        · rw [if_pos hnz] at hinit
          exact absurd hinit (by simp)
        · rw [if_neg hnz] at hinit
          dsimp only at hinit
          rw [if_neg (by simp)] at hinit
          have hfirst : first ≠ 0 := by
            rintro rfl
            exact hnz rfl
          -- the slab caches
          generalize hprime : s.slab.init.prime ⟨pmm', bytes⟩ = primed at hinit
          obtain ⟨ok, slab, phys⟩ := primed
          cases ok with
          | false => exact absurd hinit (by simp)
          | true =>
              dsimp only at hinit
              rw [if_neg (by simp)] at hinit
              exact ⟨first, pmm', bytes, slab, phys, hready, hfind, hfirst, htakes, hready', hprime,
                (Option.some.inj hinit).symm⟩

theorem started_init (hinit : s.kernelMemoryInit image boot = some t) : Started t := by
  have hgood := good_init hinit
  obtain ⟨first, pmm, bytes, slab, phys, -, -, -, -, hready, hprime, rfl⟩ := init_stages hinit
  have hpages := SlabAllocator.free_of_prime (congrArg Prod.fst hprime)
  have hstart := SlabAllocator.inv_init (p := ⟨pmm, bytes⟩) s.slab hready
  have hlists := SlabAllocator.primeLoop_lists hstart (congrArg Prod.fst hprime)
  obtain ⟨hslab, -, -⟩ := SlabAllocator.inv_primeLoop hstart (List.finRange kSlabCacheCount)
  change s.slab.init.primeLoop ⟨pmm, bytes⟩ (List.finRange kSlabCacheCount) = _ at hprime
  rw [hprime] at hslab hlists
  exact
    { ready := hgood.ready
      cow := rfl
      shared := rfl
      slab := hslab
      lists := fun i => hlists i (Or.inl (List.mem_finRange i))
      huge := rfl
      numa := ⟨rfl, rfl, rfl, hpages⟩
      swap := rfl
      cache := rfl
      maps := ⟨rfl, fun _ => rfl⟩ }

/-- The heap is no part of it. -/
theorem Started.withHeap (h : Started t) (heap : KernelHeap) : Started { t with heap } :=
  ⟨h.ready, h.cow, h.shared, h.slab, h.lists, h.huge, h.numa, h.swap, h.cache, h.maps⟩

theorem room_of_block {r : Nat} (hblock : t.phys.pmm.Block 512 512 r) : t.phys.pmm.Room 3 := by
  refine ⟨Finset.Ico r (r + 512), ?_, fun page hpage => ?_⟩
  · rw [Nat.card_Ico]
    omega
  · obtain ⟨hlo, hhi⟩ := Finset.mem_Ico.mp hpage
    exact hblock.free page hlo hhi

/-- **Eight parts that succeed in a row.** -/
theorem kernelMemorySelfTest_parts {numa : NumaManager} {maps : MemoryMappingManager} {cache cache' : PageCache}
    {swap : SwapManager} {cow : CopyOnWriteManager} {shared : SharedMemoryManager} {slab : SlabAllocator}
    {maps' : MemoryMappingManager} {phys₁ phys₂ phys₃ phys₄ phys₅ phys₆ : Physical}
    (hhuge : t.hugePages.selfTest t.phys.pmm = (true, t.phys.pmm))
    (hnuma : t.numa.selfTest t.phys.pmm = (true, numa, t.phys.pmm))
    (hanonymous : (Mapped.mk t.maps t.cache t.phys).selfTestAnonymous = (true, ⟨maps, cache, phys₁⟩))
    (hfile : (Mapped.mk maps cache phys₁).selfTestFile = (true, ⟨maps', cache', phys₂⟩))
    (hswap : t.swap.selfTest phys₂ = (true, swap, phys₃))
    (hcow : t.cow.selfTest phys₃ = (true, cow, phys₄))
    (hshared : t.shared.selfTest phys₄ = (true, shared, phys₅))
    (hslab : t.slab.selfTest phys₅ = (true, slab, phys₆)) :
    t.kernelMemorySelfTest = (decide (cow.activePages = 0) && decide (shared.activeSegments = 0),
      { t with numa, maps := maps', cache := cache', swap, cow, shared, slab, phys := phys₆ }) := by
  unfold kernelMemorySelfTest
  simp only [hhuge, hnuma, mapped, withMapped, hanonymous, hfile, hswap, hcow, hshared, hslab, Bool.not_true,
    Bool.false_eq_true, if_false]

/-- **The self test passes when a block of 2 MiB is free.** Then it leaves everything as it was, but for the numbers
    of the next segment and the next mapping and for what is in pages that nobody has. -/
theorem Started.selfTest (h : Started t) {r : Nat} (hblock : t.phys.pmm.Block 512 512 r) :
    ∃ maps phys next, t.kernelMemorySelfTest = (true, { t with maps, shared := t.shared.nextId, phys }) ∧
      Mapped.Idle maps next ∧ t.phys.Lends phys [] := by
  have hroom := room_of_block hblock
  obtain ⟨hsame, hpass⟩ := HugePageManager.selfTest_eq h.ready h.huge
  have hhuge : t.hugePages.selfTest t.phys.pmm = (true, t.phys.pmm) := Prod.ext (hpass.mpr ⟨r, hblock⟩) hsame
  obtain ⟨hset, hcount, honline, hpages⟩ := h.numa
  have hnuma := NumaManager.selfTest_eq h.ready (hroom.mono (by omega)) hset hcount honline hpages
  -- the mappings
  obtain ⟨maps₁, phys₁, hanonymous, hidle₁, hlends₁⟩ :=
    Mapped.selfTestAnonymous_eq (s := t.mapped) h.maps ⟨rfl, by decide, by decide⟩ h.ready (hroom.mono (by omega))
  have hpmm₁ := hlends₁.pmm h.ready
  obtain ⟨maps₂, phys₂, hfile, hidle₂, hlends₂⟩ :=
    Mapped.selfTestFile_eq (s := ⟨maps₁, t.cache, phys₁⟩) hidle₁ ⟨rfl, by decide, by decide⟩ hlends₁.ready
      (hpmm₁ ▸ hroom.mono (by omega)) h.cache
  have hlends₂ := hlends₁.trans h.ready hlends₂
  have hpmm₂ := hlends₂.pmm h.ready
  -- swap, copies, segments
  obtain ⟨phys₃, hswap, hlends₃⟩ := SwapManager.selfTest_eq {} hlends₂.ready (hpmm₂ ▸ hroom)
  have hlends₃ := hlends₂.trans h.ready hlends₃
  have hpmm₃ := hlends₃.pmm h.ready
  obtain ⟨phys₄, hcow, hlends₄⟩ := CopyOnWriteManager.selfTest_eq {} hlends₃.ready (hpmm₃ ▸ hroom.mono (by omega))
  have hlends₄ := hlends₃.trans h.ready hlends₄
  have hpmm₄ := hlends₄.pmm h.ready
  obtain ⟨phys₅, hshared, hlends₅⟩ := SharedMemoryManager.selfTest_eq {} hlends₄.ready (hpmm₄ ▸ hroom.mono (by omega))
  have hlends₅ := hlends₄.trans h.ready hlends₅
  -- the slab caches lie in pages that are not free
  have hslab := SlabAllocator.selfTest_eq (h.slab.lends hlends₅) (h.lists 0) (h.lists 2)
  rw [← h.swap] at hswap
  rw [← h.cow] at hcow
  rw [← h.shared] at hshared
  refine ⟨maps₂, phys₅, _, ?_, hidle₂, hlends₅⟩
  have hpages : t.cow.activePages = 0 := by
    rw [h.cow]
    exact congrArg List.length (List.filter_eq_nil_iff.mpr fun i _ => Bool.false_ne_true)
  have hsegments : t.shared.nextId.activeSegments = 0 := by
    rw [h.shared]
    exact congrArg List.length (List.filter_eq_nil_iff.mpr fun i _ => Bool.false_ne_true)
  rw [kernelMemorySelfTest_parts hhuge hnuma hanonymous hfile hswap hcow hshared hslab, hpages, hsegments]
  rfl

/-- Without such a block nothing happens. -/
theorem Started.selfTest_fails (h : Started t) (hnone : ¬ ∃ r, t.phys.pmm.Block 512 512 r) :
    t.kernelMemorySelfTest = (false, t) := by
  obtain ⟨hsame, hpass⟩ := HugePageManager.selfTest_eq h.ready h.huge
  have hfail : (t.hugePages.selfTest t.phys.pmm).1 = false := by
    rw [← Bool.not_eq_true]
    exact fun htrue => hnone (hpass.mp htrue)
  have hhuge : t.hugePages.selfTest t.phys.pmm = (false, t.phys.pmm) := Prod.ext hfail hsame
  unfold kernelMemorySelfTest
  rw [hhuge]
  rfl

/-! ### The probe -/

theorem allocate_ne_zero {h : KernelHeap} {size alignment : UInt64} {k : Nat} (ha : alignment.toNat = 2 ^ k)
    (hsize : 0 < size.toNat) (hpos : 0 < h.mCurrent.toNat)
    (hroom : h.mCurrent.toNat + alignment.toNat + size.toNat ≤ h.mEnd.toNat) : (h.allocate size alignment).1 ≠ 0 := by
  have hend := h.mEnd.toNat_lt
  obtain ⟨hlo, hhi⟩ := Lib.toNat_alignUp_bounds (v := h.mCurrent) ha (by omega)
  have halign : 0 < alignment.toNat := ha ▸ Nat.two_pow_pos k
  have hsum : (Lib.alignUp h.mCurrent alignment + size).toNat =
      (Lib.alignUp h.mCurrent alignment).toNat + size.toNat := by
    rw [UInt64.toNat_add]
    omega
  have haligned : (h.mCurrent + alignment - 1) &&& ~~~(alignment - 1) = Lib.alignUp h.mCurrent alignment := rfl
  have hfit : ¬ Lib.alignUp h.mCurrent alignment + size > h.mEnd := by
    rw [gt_iff_lt, UInt64.not_lt, UInt64.le_iff_toNat_le, hsum]
    omega
  have hnonzero : ¬ (size = 0 ∨ alignment = 0) := by
    rintro (rfl | rfl)
    · exact absurd hsize (by decide)
    · exact absurd halign (by decide)
  unfold KernelHeap.allocate
  rw [if_neg hnonzero]
  dsimp only
  rw [haligned, if_neg hfit]
  intro hz
  have hval : (Lib.alignUp h.mCurrent alignment).toNat = 0 := congrArg UInt64.toNat hz
  omega

/-- The block of the heap has room for the probe. -/
theorem probe_ne_zero {first : Nat} (hfirst : first ≠ 0) (hin : first + 128 ≤ kManagedPageCount) :
    ((KernelHeap.atBase (frameOf first)).allocate 64 16).1 ≠ 0 := by
  have hN := kManagedPageCount_eq
  have hbase : (frameOf first).toNat = first * 4096 := toNat_frameOf (by omega)
  have hsize : (kHeapInitialPages * kPageSize).toNat = 128 * 4096 := rfl
  have hend : (frameOf first + kHeapInitialPages * kPageSize).toNat = (first + 128) * 4096 := by
    rw [UInt64.toNat_add, hbase, hsize]
    omega
  have h16 : (16 : UInt64).toNat = 16 := rfl
  have h64 : (64 : UInt64).toNat = 64 := rfl
  have hpos : 0 < (frameOf first).toNat := by omega
  have hroom : (frameOf first).toNat + (16 : UInt64).toNat + (64 : UInt64).toNat ≤
      (frameOf first + kHeapInitialPages * kPageSize).toNat := by omega
  exact allocate_ne_zero (k := 4) rfl (by decide) hpos hroom

theorem heapPages_allocate (heap : KernelHeap) (size alignment : UInt64) :
    heapPages (heap.allocate size alignment).2 = heapPages heap := by
  have hkept : (heap.allocate size alignment).2.mStart = heap.mStart ∧
      (heap.allocate size alignment).2.mEnd = heap.mEnd := by
    unfold KernelHeap.allocate
    split
    · exact ⟨rfl, rfl⟩
    · dsimp only
      split <;> exact ⟨rfl, rfl⟩
  unfold heapPages
  rw [hkept.1, hkept.2]

/-! ### The whole initialisation -/

/-- **What the probe and the test do**, once `KernelMemoryInit` has come so far. -/
theorem initTested_cases (hinit : s.kernelMemoryInit image boot = some t) :
    (¬ ∃ r, t.phys.pmm.Block 512 512 r) ∧ s.kernelMemoryInitTested image boot = none ∨
    (∃ r, t.phys.pmm.Block 512 512 r) ∧ ∃ maps phys next,
      s.kernelMemoryInitTested image boot =
        some { t with heap := (t.heap.allocate 64 16).2, maps, shared := t.shared.nextId, phys } ∧
      Mapped.Idle maps next ∧ t.phys.Lends phys [] := by
  have hstarted := (started_init hinit).withHeap (t.heap.allocate 64 16).2
  have hprobe : (t.heap.allocate 64 16).1 ≠ 0 := by
    obtain ⟨first, pmm, bytes, slab, phys, -, -, hfirst, htakes, -, -, rfl⟩ := init_stages hinit
    exact probe_ne_zero hfirst htakes.inside
  unfold kernelMemoryInitTested
  rw [hinit]
  dsimp only
  rw [if_neg hprobe]
  by_cases hblock : ∃ r, t.phys.pmm.Block 512 512 r
  · obtain ⟨r, hr⟩ := hblock
    obtain ⟨maps, phys, next, htest, hidle, hlends⟩ := hstarted.selfTest hr
    refine Or.inr ⟨⟨r, hr⟩, maps, phys, next, ?_, hidle, hlends⟩
    rw [htest]
    rfl
  · refine Or.inl ⟨hblock, ?_⟩
    rw [hstarted.selfTest_fails hblock]
    rfl

/-- Nobody holds anything more. -/
theorem holds_tested {maps : MemoryMappingManager} {next : UInt64} (hstarted : Started t)
    (hidle : Mapped.Idle maps next) (phys : Physical) :
    holds { t with heap := (t.heap.allocate 64 16).2, maps, shared := t.shared.nextId, phys } = t.holds := by
  have hmaps : ∀ {m : MemoryMappingManager} {next : UInt64}, Mapped.Idle m next → ∀ q, m.holds q = none := by
    intro m next hm q
    exact if_neg fun hactive => Bool.false_ne_true ((hm.inactive q.1).symm.trans hactive.1)
  funext p
  rcases p with i | q | i | i | (q | e) | page | q
  · rfl
  · rfl
  · rfl
  · rfl
  · exact (hmaps hidle q).trans (hmaps hstarted.maps q).symm
  · rfl
  · show holdsPages (heapPages (t.heap.allocate 64 16).2) page = holdsPages (heapPages t.heap) page
    rw [heapPages_allocate]
  · rfl

/-- The invariant of the calls holds after the test. -/
theorem good_tested {maps : MemoryMappingManager} {next : UInt64} {phys : Physical} (hgood : Good t)
    (hstarted : Started t) (hidle : Mapped.Idle maps next) (hlends : t.phys.Lends phys []) :
    Good { t with heap := (t.heap.allocate 64 16).2, maps, shared := t.shared.nextId, phys } := by
  have hsound : (ledger { t with heap := (t.heap.allocate 64 16).2, maps, shared := t.shared.nextId, phys }) =
      t.ledger := by
    unfold ledger
    rw [holds_tested hstarted hidle, hlends.pmm hgood.ready]
  refine ⟨hlends.ready, ?_, hgood.positive, hgood.idle, hgood.whole, hgood.keys, fun i hi => ?_⟩
  · rw [hsound]
    exact hgood.sound
  · exact absurd hi (by simp [hidle.inactive i])

section Enough

open PhysicalMemoryManager

variable {pmm pmm' : PhysicalMemoryManager} {lo hi n first : Nat}

/-- The pages from `lo` to `hi` are free. -/
def FreeFrom (pmm : PhysicalMemoryManager) (lo hi : Nat) : Prop :=
  ∀ page, lo ≤ page → page < hi → pmm.isPageFree page = true

/-- A block that is found no later than `lo` takes at most its size off the pages from `lo` on. -/
theorem FreeFrom.takes (h : FreeFrom pmm lo hi) (htakes : Takes pmm pmm' first n) (hfirst : first ≤ lo) :
    FreeFrom pmm' (lo + n) hi := by
  intro page hpage hlt
  rw [htakes.pages, if_neg (by omega)]
  exact h page (by omega) hlt

/-- The scan finds a block no later than `lo`. -/
theorem FreeFrom.found (h : FreeFrom pmm lo hi) {pageCount : UInt64} (hcount : lo + pageCount.toNat ≤ hi)
    (hfind : pmm.findBlock pageCount 1 = some first) : first ≤ lo := by
  obtain ⟨-, -, -, hleast⟩ := findBlock_some hfind
  -- otherwise the scan would have stopped at `lo`
  by_contra hlt
  refine hleast lo (by omega) ⟨?_, fun page hlo hhi => h page hlo (by omega)⟩
  show UInt64.ofNat lo &&& (1 - 1) = 0
  simp

theorem FreeFrom.allocatePage (h : FreeFrom pmm lo hi) (hlt : lo < hi) : FreeFrom pmm.allocatePage.2 (lo + 1) hi := by
  have hone : (1 : UInt64).toNat = 1 := rfl
  rcases allocateAligned_cases pmm 1 1 with ⟨-, hfail⟩ | ⟨first, hfind, -, -, htakes⟩
  · have hsame : pmm.allocatePage = (0, pmm) := hfail
    rw [hsame]
    exact fun page hpage => h page (by omega)
  · exact h.takes htakes (h.found (by omega) hfind)

theorem FreeFrom.primeLoop (m : SlabAllocator) {p : Physical} (caches : List (Fin kSlabCacheCount))
    (hready : p.pmm.Ready) (h : FreeFrom p.pmm lo hi) (hcount : lo + caches.length ≤ hi) :
    FreeFrom (m.primeLoop p caches).2.2.pmm (lo + caches.length) hi := by
  induction caches generalizing m p lo with
  | nil => exact h
  | cons i caches ih =>
      rw [List.length_cons] at hcount ⊢
      unfold SlabAllocator.primeLoop
      dsimp only
      -- a cache that has its objects takes no page, any other one takes one
      have hgrow : (m.growCache i p).2.2.pmm.Ready ∧ FreeFrom (m.growCache i p).2.2.pmm (lo + 1) hi := by
        unfold SlabAllocator.growCache
        dsimp only
        split
        · exact ⟨hready, fun page hpage => h page (by omega)⟩
        · split <;> exact ⟨hready.allocateAligned 1 1, h.allocatePage (by omega)⟩
      split
      · exact fun page hpage => hgrow.2 page (by omega)
      · have hrest := ih (m.growCache i p).2.1 hgrow.1 hgrow.2 (by omega)
        rw [show lo + (caches.length + 1) = lo + 1 + caches.length by omega]
        exact hrest

/-- **What is free after the managers have been set up**: all but 132 of the pages from `lo` on. -/
theorem FreeFrom.init (h : FreeFrom (s.phys.pmm.init image boot s.phys.bytes).2 lo hi) (hroom : lo + 132 ≤ hi)
    (hinit : s.kernelMemoryInit image boot = some t) : FreeFrom t.phys.pmm (lo + 132) hi := by
  obtain ⟨first, pmm, bytes, slab, phys, -, hfind, -, htakes, hready, hprime, rfl⟩ := init_stages hinit
  have hcount : kHeapInitialPages.toNat = 128 := rfl
  have hheap := h.takes htakes (h.found (by omega) hfind)
  have hlength : (List.finRange kSlabCacheCount).length = 4 := List.length_finRange
  have hslab := FreeFrom.primeLoop s.slab.init (p := ⟨pmm, bytes⟩) (List.finRange kSlabCacheCount) hready hheap (by omega)
  change s.slab.init.primeLoop ⟨pmm, bytes⟩ (List.finRange kSlabCacheCount) = _ at hprime
  rw [hprime, hlength] at hslab
  exact hslab

/-- **1155 free pages in a row are enough** for the whole initialisation: 132 for the heap and the slab caches, and a
    block of 512 at a multiple of 512 behind them. -/
theorem kernelMemoryInitTested_some (hb : PhysicalMemoryManager.Accepts boot) (hin : lo + 1155 ≤ kManagedPageCount)
    (hfree : FreeFrom (s.phys.pmm.init image boot s.phys.bytes).2 lo (lo + 1155)) :
    ∃ t u, s.kernelMemoryInit image boot = some t ∧ s.kernelMemoryInitTested image boot = some u := by
  have hrun : (s.phys.pmm.init image boot s.phys.bytes).2.FreeRun 1 128 lo := by
    refine ⟨?_, fun page hlo hhi => hfree page hlo (by omega)⟩
    show UInt64.ofNat lo &&& (1 - 1) = 0
    simp
  have hroom : (s.phys.pmm.init image boot s.phys.bytes).2.Room (4 + 128) := by
    refine ⟨Finset.Ico lo (lo + 132), by rw [Nat.card_Ico]; omega, fun page hpage => ?_⟩
    obtain ⟨hlo, hhi⟩ := Finset.mem_Ico.mp hpage
    exact ⟨by omega, hfree page hlo (by omega)⟩
  obtain ⟨t, hinit⟩ := kernelMemoryInit_some hb (by omega) hrun hroom
  have hleft := hfree.init (by omega) hinit
  rcases initTested_cases hinit with ⟨hnone, -⟩ | ⟨-, maps, phys, next, hpasses, -, -⟩
  · refine absurd ⟨512 * ((lo + 132 + 511) / 512), by omega, Nat.dvd_mul_right _ _, fun page hlo hhi => ?_⟩ hnone
    exact ⟨by omega, hleft page (by omega) (by omega)⟩
  · exact ⟨t, _, hinit, hpasses⟩

/-- One descriptor: 2048 conventional pages at 16 MiB. -/
def eightMebibyteMap : Lib.Bytes :=
  fun a => if a = 0x90000 then 7 else if a = 0x9000B then 1 else if a = 0x90019 then 8 else 0

theorem freeFrom_eightMebibyte (s : PhysicalMemoryManager) :
    FreeFrom (s.init smallImage smallBoot eightMebibyteMap).2 4096 6144 := by
  intro page hlo hhi
  have hN := kManagedPageCount_eq
  -- every reserved range ends below page 4096
  have hends : (reservedRanges smallImage smallBoot).all (fun r =>
      decide ((Lib.alignDown r.1 kPageSize / kPageSize +
        (Lib.alignUp (r.1 + r.2) kPageSize - Lib.alignDown r.1 kPageSize) / kPageSize).toNat ≤ 4096)) = true := by
    decide +kernel
  have hout : ∀ r ∈ reservedRanges smallImage smallBoot, Outside page r := fun r hr =>
    Or.inr ((of_decide_eq_true (List.all_eq_true.mp hends r hr)).trans hlo)
  have hdescs : descriptors smallBoot eightMebibyteMap = [⟨7, 0x1000000, 2048⟩] := by decide +kernel
  rw [isPageFree_init_of_outside (by decide) hout, hdescs, List.foldl_cons, List.foldl_nil]
  have hpage : page ∈ markedPages (0x1000000 / kPageSize) ((0x1800000 - 0x1000000) / kPageSize) :=
    mem_markedPages.mpr ⟨hlo, hhi, by omega⟩
  exact isPageFree_conventional s.allUsed rfl rfl rfl (by decide) (by decide) hpage

end Enough

end MemorySystem

end UefiBoot
