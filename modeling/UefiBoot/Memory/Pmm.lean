import UefiBoot.Lib.Align
import UefiBoot.Lib.Bitmap
import UefiBoot.Lib.Bytes
import UefiBoot.Lib.Run
import UefiBoot.Memory.Layout

/-!
# `Memory.Pmm` — `PhysicalMemoryManager`, the page bitmap and its two counters

A set bit is a page in use. `SetPage` is the only function that writes the bitmap, and it keeps
`m_FreePages` and `m_UsedPages` in step with decrements that stop at zero; `MarkPages` is a loop of `SetPage`
calls cut off at `kManagedPageCount`, and everything else marks pages through it. Addresses and counts are
64-bit words and wrap as in the code; a page number below `kManagedPageCount` is a `Nat`.

`isPageFree_markPages` says what one `MarkPages` does to the bitmap; the allocation and release functions
are read through it.
-/

namespace UefiBoot

/-! ## What the boot loader hands over -/

structure FramebufferInfo where
  baseAddress       : UInt64 := 0
  width             : UInt32 := 0
  height            : UInt32 := 0
  pixelsPerScanline : UInt32 := 0
  format            : UInt32 := 0

structure MemoryMapInfo where
  buffer         : UInt64
  mapSize        : UInt64
  descriptorSize : UInt64

structure BootInfo where
  framebuffer : FramebufferInfo := {}
  memory      : MemoryMapInfo
  kernelBase  : UInt64
  kernelSize  : UInt64

/-- Where the linker put the kernel's own tables. -/
structure KernelImage where
  physicalPageBitmap : UInt64
  pml4               : UInt64
  pdpt               : UInt64
  pageDirectories    : UInt64

/-- The fields of `KernelMemoryDescriptor` that the kernel reads. -/
structure KernelMemoryDescriptor where
  type          : UInt32
  physicalStart : UInt64
  numberOfPages : UInt64
  deriving DecidableEq

/-- `sizeof(KernelMemoryDescriptor)`. -/
def kMemoryDescriptorSize : UInt64 := 40

/-- The descriptor at address `a`, at the offsets the C++ layout gives its fields. -/
def KernelMemoryDescriptor.read (bytes : Lib.Bytes) (a : UInt64) : KernelMemoryDescriptor :=
  { type := bytes.load32 a, physicalStart := bytes.load64 (a + 8), numberOfPages := bytes.load64 (a + 24) }

/-! ## The allocator -/

/-- The allocator's counters together with the bitmap `g_PhysicalPageBitmap`, which only it accesses. -/
structure PhysicalMemoryManager where
  bitmap      : Lib.Bitmap := fun _ => 0
  mTotalPages : UInt64 := 0
  mFreePages  : UInt64 := 0
  mUsedPages  : UInt64 := 0

/-- The pages that `MarkPages` visits: its loop runs while `page < start_page + page_count`, a sum that may
    wrap, and `page < kManagedPageCount`. -/
def markedPages (startPage pageCount : UInt64) : List Nat :=
  List.range' startPage.toNat (min (startPage + pageCount).toNat kManagedPageCount - startPage.toNat)

/-- The pages that the scan of `AllocateAligned` tests. -/
def scannedPages : List Nat := List.range' 0 kManagedPageCount

namespace PhysicalMemoryManager

def isPageFree (s : PhysicalMemoryManager) (page : Nat) : Bool := !s.bitmap.test page

def setPage (s : PhysicalMemoryManager) (page : Nat) (free : Bool) : PhysicalMemoryManager :=
  let wasFree := s.isPageFree page
  let s := { s with bitmap := if free then s.bitmap.clear page else s.bitmap.set page }
  if free && !wasFree then
    { s with
      mFreePages := s.mFreePages + 1
      mUsedPages := if s.mUsedPages > 0 then s.mUsedPages - 1 else s.mUsedPages }
  else if !free && wasFree then
    { s with
      mFreePages := if s.mFreePages > 0 then s.mFreePages - 1 else s.mFreePages
      mUsedPages := s.mUsedPages + 1 }
  else s

def markPages (s : PhysicalMemoryManager) (startPage pageCount : UInt64) (free : Bool) :
    PhysicalMemoryManager :=
  (markedPages startPage pageCount).foldl (fun s page => s.setPage page free) s

def markRange (s : PhysicalMemoryManager) (address pageCount : UInt64) (free : Bool) :
    PhysicalMemoryManager :=
  s.markPages (address / kPageSize) pageCount free

def reserveRange (s : PhysicalMemoryManager) (address byteCount : UInt64) : PhysicalMemoryManager :=
  if byteCount = 0 ∨ address ≥ kManagedMemoryLimit then s
  else
    let start := Lib.alignDown address kPageSize
    let stop := Lib.alignUp (address + byteCount) kPageSize
    s.markRange start ((stop - start) / kPageSize) false

/-- One turn of the loop of `Init` over the memory map. -/
def initDescriptor (s : PhysicalMemoryManager) (desc : KernelMemoryDescriptor) : PhysicalMemoryManager :=
  let start := Lib.alignUp desc.physicalStart kPageSize
  let stop := Lib.alignDown (desc.physicalStart + desc.numberOfPages * kPageSize) kPageSize
  if stop ≤ start ∨ start ≥ kManagedMemoryLimit then s
  else
    let clampedEnd := if stop > kManagedMemoryLimit then kManagedMemoryLimit else stop
    let pageCount := (clampedEnd - start) / kPageSize
    let s := { s with mTotalPages := s.mTotalPages + pageCount }
    if desc.type = kEfiConventionalMemory then s.markRange start pageCount true else s

/-- The start of `Init`: every byte of the bitmap is `0xFF`. What lies past the array is not touched. -/
def allUsed (s : PhysicalMemoryManager) : PhysicalMemoryManager :=
  { bitmap := fun i => if i < kManagedPageCount / 8 then 0xFF else s.bitmap i
    mTotalPages := 0
    mFreePages := 0
    mUsedPages := UInt64.ofNat kManagedPageCount }

/-- The ranges that `Init` reserves at its end, in its order: address and size in bytes. -/
def reservedRanges (image : KernelImage) (boot : BootInfo) : List (UInt64 × UInt64) :=
  [(0, 0x100000),
   (boot.kernelBase, boot.kernelSize),
   (boot.framebuffer.baseAddress,
     boot.framebuffer.height.toUInt64 * boot.framebuffer.pixelsPerScanline.toUInt64 * 4),
   (image.physicalPageBitmap, UInt64.ofNat (kManagedPageCount / 8)),
   (image.pml4, 512 * 8),
   (image.pdpt, 512 * 8),
   (image.pageDirectories, 4 * 512 * 8)]

/-- The descriptors of the boot loader's memory map, in the order in which `Init` reads them. -/
def descriptors (boot : BootInfo) (bytes : Lib.Bytes) : List KernelMemoryDescriptor :=
  (List.range (boot.memory.mapSize / boot.memory.descriptorSize).toNat).map fun i =>
    KernelMemoryDescriptor.read bytes (boot.memory.buffer + UInt64.ofNat i * boot.memory.descriptorSize)

/-- The test at the start of `Init`. -/
def Accepts (boot : BootInfo) : Prop :=
  boot.memory.buffer ≠ 0 ∧ kMemoryDescriptorSize ≤ boot.memory.descriptorSize

instance (boot : BootInfo) : Decidable (Accepts boot) := by unfold Accepts; infer_instance

def init (s : PhysicalMemoryManager) (image : KernelImage) (boot : BootInfo) (bytes : Lib.Bytes) :
    Bool × PhysicalMemoryManager :=
  if boot.memory.buffer = 0 ∨ boot.memory.descriptorSize < kMemoryDescriptorSize then (false, s)
  else
    let s := (descriptors boot bytes).foldl initDescriptor s.allUsed
    let s := (reservedRanges image boot).foldl (fun s r => s.reserveRange r.1 r.2) s
    (decide (s.mFreePages > 0), s)

/-- The scan of `AllocateAligned` over `pages`, with its `run_start` and `run_length`. -/
def findRun (s : PhysicalMemoryManager) (pageCount alignmentPages : UInt64) :
    List Nat → Nat → Nat → Option Nat
  | [], _, _ => none
  | page :: pages, runStart, runLength =>
    if s.isPageFree page then
      if runLength = 0 ∧ UInt64.ofNat page &&& (alignmentPages - 1) ≠ 0 then
        s.findRun pageCount alignmentPages pages runStart runLength
      else
        let runStart := if runLength = 0 then page else runStart
        if runLength + 1 = pageCount.toNat then some runStart
        else s.findRun pageCount alignmentPages pages runStart (runLength + 1)
    else s.findRun pageCount alignmentPages pages runStart 0

/-- The first page of the block that `AllocateAligned` takes. -/
def findBlock (s : PhysicalMemoryManager) (pageCount alignmentPages : UInt64) : Option Nat :=
  if pageCount = 0 ∨ pageCount > s.mFreePages then none
  else if alignmentPages = 0 ∨ alignmentPages &&& (alignmentPages - 1) ≠ 0 then none
  else s.findRun pageCount alignmentPages scannedPages 0 0

def allocateAligned (s : PhysicalMemoryManager) (pageCount alignmentPages : UInt64) :
    UInt64 × PhysicalMemoryManager :=
  match s.findBlock pageCount alignmentPages with
  | none          => (0, s)
  | some runStart =>
    (UInt64.ofNat runStart * kPageSize, s.markPages (UInt64.ofNat runStart) pageCount false)

def allocateContiguous (s : PhysicalMemoryManager) (pageCount : UInt64) : UInt64 × PhysicalMemoryManager :=
  s.allocateAligned pageCount 1

def allocatePage (s : PhysicalMemoryManager) : UInt64 × PhysicalMemoryManager := s.allocateContiguous 1

def freePage (s : PhysicalMemoryManager) (address : UInt64) : PhysicalMemoryManager :=
  s.markRange address 1 true

def freeContiguous (s : PhysicalMemoryManager) (address pageCount : UInt64) : PhysicalMemoryManager :=
  if address &&& (kPageSize - 1) = 0 ∧ pageCount ≠ 0 then s.markRange address pageCount true else s

/-! ## The bitmap after a mark -/

variable {s : PhysicalMemoryManager} {page q : Nat} {free : Bool} {startPage pageCount : UInt64}

theorem mem_markedPages :
    q ∈ markedPages startPage pageCount ↔
      startPage.toNat ≤ q ∧ q < (startPage + pageCount).toNat ∧ q < kManagedPageCount := by
  unfold markedPages
  rw [List.mem_range'_1]
  omega

theorem mem_scannedPages : q ∈ scannedPages ↔ q < kManagedPageCount := by
  unfold scannedPages
  rw [List.mem_range'_1]
  omega

theorem setPage_bitmap (s : PhysicalMemoryManager) (page : Nat) (free : Bool) :
    (s.setPage page free).bitmap = if free then s.bitmap.clear page else s.bitmap.set page := by
  unfold setPage
  dsimp only
  split
  · rfl
  · split <;> rfl

theorem isPageFree_setPage : (s.setPage page free).isPageFree q = if q = page then free else s.isPageFree q := by
  unfold isPageFree
  rw [setPage_bitmap]
  cases free with
  | true =>
      simp only [if_true, Lib.Bitmap.test_clear]
      split <;> rfl
  | false =>
      simp only [Bool.false_eq_true, if_false, Lib.Bitmap.test_set]
      split <;> rfl

theorem isPageFree_foldl_setPage (pages : List Nat) (s : PhysicalMemoryManager) :
    (pages.foldl (fun s page => s.setPage page free) s).isPageFree q
      = if q ∈ pages then free else s.isPageFree q := by
  induction pages generalizing s with
  | nil => simp
  | cons page pages ih =>
      rw [List.foldl_cons, ih, isPageFree_setPage]
      by_cases hmem : q ∈ pages
      · simp [hmem]
      · by_cases hq : q = page <;> simp [hmem, hq]

/-- **`MarkPages`** gives the pages it visits the new state and leaves every other page alone. -/
theorem isPageFree_markPages : (s.markPages startPage pageCount free).isPageFree q
    = if q ∈ markedPages startPage pageCount then free else s.isPageFree q :=
  isPageFree_foldl_setPage _ _

/-- At the start of `Init` every page is used. -/
theorem test_allUsed (s : PhysicalMemoryManager) {page : Nat} (hpage : page < kManagedPageCount) :
    s.allUsed.bitmap.test page = true := by
  have hN := kManagedPageCount_eq
  have hbyte : s.allUsed.bitmap (page / 8) = 0xFF := by
    show (if page / 8 < kManagedPageCount / 8 then _ else _) = _
    rw [if_pos (by omega)]
  have hones : (0xFF : UInt8).toBitVec = BitVec.allOnes 8 := rfl
  rw [Lib.Bitmap.test_eq_getLsbD, hbyte, hones, BitVec.getLsbD_allOnes]
  simp [Nat.mod_lt]

end PhysicalMemoryManager
end UefiBoot
