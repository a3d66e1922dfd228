import UefiBoot.Memory.Pmm

/-!
# `Memory.Counters` — the two counters of the page allocator are exact

`m_FreePages` is the number of clear bits and `m_UsedPages` the rest, after `Init` and after any operations
with any arguments. Every operation is a list of `SetPage` calls (`step_eq_calls`), so there is one step
lemma, `Exact.setPage`: a call on a page below `kManagedPageCount` keeps the counters exact, and exact
counters make its guarded decrement safe. Ranges that wrap, leave managed memory or overlap need no case of
their own: `markedPages` holds no page outside the bitmap.
-/

namespace UefiBoot
namespace PhysicalMemoryManager

/-- The public operations of the allocator. -/
inductive Op where
  | allocateAligned (pageCount alignmentPages : UInt64)
  | allocateContiguous (pageCount : UInt64)
  | allocatePage
  | freePage (address : UInt64)
  | freeContiguous (address pageCount : UInt64)
  deriving DecidableEq, Repr

/-- The allocator after an operation. -/
def step (s : PhysicalMemoryManager) : Op → PhysicalMemoryManager
  | .allocateAligned pageCount alignmentPages => (s.allocateAligned pageCount alignmentPages).2
  | .allocateContiguous pageCount             => (s.allocateContiguous pageCount).2
  | .allocatePage                             => s.allocatePage.2
  | .freePage address                         => s.freePage address
  | .freeContiguous address pageCount         => s.freeContiguous address pageCount

/-! ## The `SetPage` calls of an operation -/

/-- The `SetPage` calls of an allocation: it marks the block it found. -/
def allocationCalls (s : PhysicalMemoryManager) (pageCount alignmentPages : UInt64) : List (Nat × Bool) :=
  match s.findBlock pageCount alignmentPages with
  | none          => []
  | some runStart => (markedPages (UInt64.ofNat runStart) pageCount).map (·, false)

/-- The `SetPage` calls of an operation, page and new state, in order. -/
def Op.calls (s : PhysicalMemoryManager) : Op → List (Nat × Bool)
  | .allocateAligned pageCount alignmentPages => s.allocationCalls pageCount alignmentPages
  | .allocateContiguous pageCount             => s.allocationCalls pageCount 1
  | .allocatePage                             => s.allocationCalls 1 1
  | .freePage address                         => (markedPages (address / kPageSize) 1).map (·, true)
  | .freeContiguous address pageCount         =>
    if address &&& (kPageSize - 1) = 0 ∧ pageCount ≠ 0 then
      (markedPages (address / kPageSize) pageCount).map (·, true)
    else []

/-- The pages whose bit an operation reads or writes: the scan of an allocation, and the `SetPage` calls. -/
def Op.touched (s : PhysicalMemoryManager) : Op → List Nat
  | .freePage address                 => ((Op.freePage address).calls s).map Prod.fst
  | .freeContiguous address pageCount => ((Op.freeContiguous address pageCount).calls s).map Prod.fst
  | op                                => scannedPages ++ (op.calls s).map Prod.fst

/-- One `SetPage` call of a list of calls. -/
def setPageCall (s : PhysicalMemoryManager) (c : Nat × Bool) : PhysicalMemoryManager := s.setPage c.1 c.2

/-- A `SetPage` call inside the bitmap whose guarded decrement, if the bit changes, finds a counter that is
    not zero. -/
def SetPageSafe (s : PhysicalMemoryManager) (c : Nat × Bool) : Prop :=
  c.1 < kManagedPageCount ∧ (c.2 = true → s.isPageFree c.1 = false → 0 < s.mUsedPages) ∧
  (c.2 = false → s.isPageFree c.1 = true → 0 < s.mFreePages)

/-- Every `SetPage` call of the operation is safe, and no bit past `kManagedPageCount` is read or written. -/
def OpSafe (s : PhysicalMemoryManager) (op : Op) : Prop :=
  Lib.Along setPageCall SetPageSafe s (op.calls s) ∧ ∀ page ∈ op.touched s, page < kManagedPageCount

theorem markPages_eq_calls (s : PhysicalMemoryManager) (startPage pageCount : UInt64) (free : Bool) :
    s.markPages startPage pageCount free
      = Lib.run setPageCall s ((markedPages startPage pageCount).map (·, free)) := by
  unfold markPages Lib.run
  rw [List.foldl_map]
  rfl

theorem allocateAligned_eq_calls (s : PhysicalMemoryManager) (pageCount alignmentPages : UInt64) :
    (s.allocateAligned pageCount alignmentPages).2
      = Lib.run setPageCall s (s.allocationCalls pageCount alignmentPages) := by
  unfold allocateAligned allocationCalls
  cases s.findBlock pageCount alignmentPages with
  | none => rfl
  | some runStart => exact markPages_eq_calls _ _ _ _

/-- **An operation is the list of its `SetPage` calls.** -/
theorem step_eq_calls (s : PhysicalMemoryManager) (op : Op) :
    step s op = Lib.run setPageCall s (op.calls s) := by
  cases op with
  | allocateAligned pageCount alignmentPages => exact allocateAligned_eq_calls _ _ _
  | allocateContiguous pageCount => exact allocateAligned_eq_calls _ _ _
  | allocatePage => exact allocateAligned_eq_calls _ _ _
  | freePage address => exact markPages_eq_calls _ _ _ _
  | freeContiguous address pageCount =>
      show s.freeContiguous address pageCount = _
      unfold freeContiguous
      by_cases hcond : address &&& (kPageSize - 1) = 0 ∧ pageCount ≠ 0
      · rw [Op.calls, if_pos hcond, if_pos hcond]
        exact markPages_eq_calls _ _ _ _
      · rw [Op.calls, if_neg hcond, if_neg hcond]
        rfl

theorem allocationCalls_inside {s : PhysicalMemoryManager} {pageCount alignmentPages : UInt64}
    {c : Nat × Bool} (hc : c ∈ s.allocationCalls pageCount alignmentPages) : c.1 < kManagedPageCount := by
  unfold allocationCalls at hc
  cases hfind : s.findBlock pageCount alignmentPages with
  | none => rw [hfind] at hc; exact absurd hc (by simp)
  | some runStart =>
      rw [hfind] at hc
      obtain ⟨page, hpage, rfl⟩ := List.mem_map.mp hc
      exact (mem_markedPages.mp hpage).2.2

theorem calls_inside {s : PhysicalMemoryManager} {op : Op} {c : Nat × Bool} (hc : c ∈ op.calls s) :
    c.1 < kManagedPageCount := by
  cases op with
  | allocateAligned pageCount alignmentPages => exact allocationCalls_inside hc
  | allocateContiguous pageCount => exact allocationCalls_inside hc
  | allocatePage => exact allocationCalls_inside hc
  | freePage address =>
      obtain ⟨page, hpage, rfl⟩ := List.mem_map.mp hc
      exact (mem_markedPages.mp hpage).2.2
  | freeContiguous address pageCount =>
      by_cases hcond : address &&& (kPageSize - 1) = 0 ∧ pageCount ≠ 0
      · rw [Op.calls, if_pos hcond] at hc
        obtain ⟨page, hpage, rfl⟩ := List.mem_map.mp hc
        exact (mem_markedPages.mp hpage).2.2
      · rw [Op.calls, if_neg hcond] at hc
        exact absurd hc List.not_mem_nil

theorem touched_inside {s : PhysicalMemoryManager} {op : Op} {page : Nat} (hp : page ∈ op.touched s) :
    page < kManagedPageCount := by
  have hcalls : page ∈ (op.calls s).map Prod.fst → page < kManagedPageCount := by
    intro h
    obtain ⟨c, hc, rfl⟩ := List.mem_map.mp h
    exact calls_inside hc
  have hscan : page ∈ scannedPages ++ (op.calls s).map Prod.fst → page < kManagedPageCount := by
    intro h
    rcases List.mem_append.mp h with h | h
    · exact mem_scannedPages.mp h
    · exact hcalls h
  cases op with
  | allocateAligned pageCount alignmentPages => exact hscan hp
  | allocateContiguous pageCount => exact hscan hp
  | allocatePage => exact hscan hp
  | freePage address => exact hcalls hp
  | freeContiguous address pageCount => exact hcalls hp

/-! ## Exact counters -/

/-- **The counters count the bits.** -/
structure Exact (s : PhysicalMemoryManager) : Prop where
  free : s.mFreePages.toNat = s.bitmap.clearCount kManagedPageCount
  used : s.mUsedPages.toNat = kManagedPageCount - s.mFreePages.toNat

namespace Exact

variable {s : PhysicalMemoryManager} {page : Nat} {free : Bool}

theorem setPageSafe (h : s.Exact) (hpage : page < kManagedPageCount) : SetPageSafe s (page, free) := by
  refine ⟨hpage, fun _ hused => ?_, fun _ hfree => ?_⟩
  · have hbit : s.bitmap.test page = true := by simpa [isPageFree] using hused
    have hlt := Lib.Bitmap.clearCount_lt hpage hbit
    have hcount := h.free
    have hrest := h.used
    rw [UInt64.lt_iff_toNat_lt]
    show 0 < s.mUsedPages.toNat
    omega
  · have hbit : s.bitmap.test page = false := by simpa [isPageFree] using hfree
    have hpos := Lib.Bitmap.clearCount_pos hpage hbit
    have hcount := h.free
    rw [UInt64.lt_iff_toNat_lt]
    show 0 < s.mFreePages.toNat
    omega

/-- **Step lemma.** A `SetPage` call inside the bitmap keeps the counters exact. -/
theorem setPage (h : s.Exact) (hpage : page < kManagedPageCount) : (s.setPage page free).Exact := by
  obtain ⟨-, hdecUsed, hdecFree⟩ := @Exact.setPageSafe s page free h hpage
  have hcount := h.free
  have hrest := h.used
  have hle := Lib.Bitmap.clearCount_le s.bitmap kManagedPageCount
  have hN := kManagedPageCount_eq
  have hone : (1 : UInt64).toNat = 1 := rfl
  -- the four cases of the bit before and the bit asked for
  cases free with
  | true =>
      cases hwas : s.isPageFree page with
      | false =>
          have hbit : s.bitmap.test page = true := by simpa [isPageFree] using hwas
          have hclear := Lib.Bitmap.clearCount_clear hpage hbit
          have hlt := Lib.Bitmap.clearCount_lt hpage hbit
          have hpos : s.mUsedPages > 0 := hdecUsed rfl hwas
          have hused : (s.mUsedPages - 1).toNat = s.mUsedPages.toNat - 1 := by
            rw [UInt64.toNat_sub_of_le, hone]
            rw [UInt64.le_iff_toNat_le, hone]; omega
          have hfree : (s.mFreePages + 1).toNat = s.mFreePages.toNat + 1 := by
            rw [UInt64.toNat_add, hone]; omega
          constructor
          · simp only [PhysicalMemoryManager.setPage, hwas, Bool.not_false, Bool.and_self, if_true]
            omega
          · simp only [PhysicalMemoryManager.setPage, hwas, Bool.not_false, Bool.and_self, if_true, hpos]
            omega
      | true =>
          have hbit : s.bitmap.test page = false := by simpa [isPageFree] using hwas
          have hsame : (s.bitmap.clear page).clearCount kManagedPageCount
              = s.bitmap.clearCount kManagedPageCount := by
            apply Lib.Bitmap.clearCount_congr
            intro j _
            rw [Lib.Bitmap.test_clear]
            split
            · rename_i hj; rw [hj, hbit]
            · rfl
          constructor
          · simp only [PhysicalMemoryManager.setPage, hwas, Bool.not_true, Bool.and_false,
              Bool.false_and, Bool.false_eq_true, if_false, if_true]
            omega
          · simp only [PhysicalMemoryManager.setPage, hwas, Bool.not_true, Bool.and_false,
              Bool.false_and, Bool.false_eq_true, if_false, if_true]
            omega
  | false =>
      cases hwas : s.isPageFree page with
      | true =>
          have hbit : s.bitmap.test page = false := by simpa [isPageFree] using hwas
          have hset := Lib.Bitmap.clearCount_set hpage hbit
          have hpos : s.mFreePages > 0 := hdecFree rfl hwas
          have hfree : (s.mFreePages - 1).toNat = s.mFreePages.toNat - 1 := by
            rw [UInt64.toNat_sub_of_le, hone]
            rw [UInt64.le_iff_toNat_le, hone]; omega
          have hused : (s.mUsedPages + 1).toNat = s.mUsedPages.toNat + 1 := by
            rw [UInt64.toNat_add, hone]; omega
          constructor
          · simp only [PhysicalMemoryManager.setPage, hwas, Bool.not_false, Bool.false_and, Bool.and_self,
              Bool.false_eq_true, if_false, if_true, hpos]
            omega
          · simp only [PhysicalMemoryManager.setPage, hwas, Bool.not_false, Bool.false_and, Bool.and_self,
              Bool.false_eq_true, if_false, if_true, hpos]
            omega
      | false =>
          have hbit : s.bitmap.test page = true := by simpa [isPageFree] using hwas
          have hsame : (s.bitmap.set page).clearCount kManagedPageCount
              = s.bitmap.clearCount kManagedPageCount := by
            apply Lib.Bitmap.clearCount_congr
            intro j _
            rw [Lib.Bitmap.test_set]
            split
            · rename_i hj; rw [hj, hbit]
            · rfl
          constructor
          · simp only [PhysicalMemoryManager.setPage, hwas, Bool.and_false, Bool.false_and,
              Bool.false_eq_true, if_false]
            omega
          · simp only [PhysicalMemoryManager.setPage, hwas, Bool.and_false, Bool.false_and,
              Bool.false_eq_true, if_false]
            omega

/-- **Run lemma for one operation.** -/
theorem calls (h : s.Exact) {calls : List (Nat × Bool)} (hin : ∀ c ∈ calls, c.1 < kManagedPageCount) :
    Lib.Along setPageCall SetPageSafe s calls ∧ (Lib.run setPageCall s calls).Exact := by
  induction calls generalizing s with
  | nil => exact ⟨trivial, h⟩
  | cons c calls ih =>
      have hc : c.1 < kManagedPageCount := hin c (by simp)
      obtain ⟨hsafe, hexact⟩ := ih (s := setPageCall s c) (h.setPage hc) fun d hd => hin d (by simp [hd])
      exact ⟨⟨h.setPageSafe hc, hsafe⟩, hexact⟩

theorem markPages (h : s.Exact) (startPage pageCount : UInt64) :
    (s.markPages startPage pageCount free).Exact := by
  rw [markPages_eq_calls]
  apply (h.calls _).2
  intro c hc
  obtain ⟨page, hpage, rfl⟩ := List.mem_map.mp hc
  exact (mem_markedPages.mp hpage).2.2

theorem step (h : s.Exact) (op : Op) : (step s op).Exact := by
  rw [step_eq_calls]
  exact (h.calls fun _ => calls_inside).2

theorem opSafe (h : s.Exact) (op : Op) : OpSafe s op :=
  ⟨(h.calls fun _ => calls_inside).1, fun _ => touched_inside⟩

end Exact

/-! ## `Init` -/

theorem exact_allUsed (s : PhysicalMemoryManager) : s.allUsed.Exact := by
  have hN := kManagedPageCount_eq
  have hused : s.allUsed.mUsedPages.toNat = kManagedPageCount := by
    show (UInt64.ofNat kManagedPageCount).toNat = kManagedPageCount
    rw [UInt64.toNat_ofNat', hN]
    rfl
  have hzero : s.allUsed.bitmap.clearCount kManagedPageCount = 0 := by
    unfold Lib.Bitmap.clearCount
    rw [Finset.card_eq_zero, Finset.filter_eq_empty_iff]
    intro page hpage hclear
    rw [test_allUsed s (Finset.mem_range.mp hpage)] at hclear
    exact absurd hclear (by simp)
  have hfree : s.allUsed.mFreePages.toNat = 0 := rfl
  constructor
  · rw [hfree, hzero]
  · rw [hused, hfree, Nat.sub_zero]

/-- `m_TotalPages` is not one of the two counters. -/
theorem Exact.withTotal {s : PhysicalMemoryManager} (h : s.Exact) (totalPages : UInt64) :
    Exact { s with mTotalPages := totalPages } := ⟨h.free, h.used⟩

theorem exact_initDescriptor {s : PhysicalMemoryManager} (h : s.Exact) (desc : KernelMemoryDescriptor) :
    (s.initDescriptor desc).Exact := by
  unfold initDescriptor
  dsimp only
  split
  · exact h
  · split
    · exact (h.withTotal _).markPages _ _
    · exact h.withTotal _

theorem exact_reserveRange {s : PhysicalMemoryManager} (h : s.Exact) (address byteCount : UInt64) :
    (s.reserveRange address byteCount).Exact := by
  unfold reserveRange
  split
  · exact h
  · exact h.markPages _ _

theorem init_eq {s : PhysicalMemoryManager} {image : KernelImage} {boot : BootInfo} {bytes : Lib.Bytes}
    (hb : Accepts boot) :
    (s.init image boot bytes).2 = (reservedRanges image boot).foldl (fun s r => s.reserveRange r.1 r.2)
      ((descriptors boot bytes).foldl initDescriptor s.allUsed) := by
  unfold init
  rw [if_neg]
  rintro (hnull | hsize)
  · exact hb.1 hnull
  · exact absurd hb.2 (UInt64.not_le.mpr hsize)

theorem exact_init (s : PhysicalMemoryManager) (image : KernelImage) {boot : BootInfo} (bytes : Lib.Bytes)
    (hb : Accepts boot) : (s.init image boot bytes).2.Exact := by
  rw [init_eq hb]
  have hdescs : ((descriptors boot bytes).foldl initDescriptor s.allUsed).Exact :=
    Lib.run_invariant (I := Exact) (fun _ desc h => exact_initDescriptor h desc) (exact_allUsed s) _
  show (Lib.run (fun (s : PhysicalMemoryManager) (r : UInt64 × UInt64) => s.reserveRange r.1 r.2) _ _).Exact
  exact Lib.run_invariant (I := Exact) (fun _ _ h => exact_reserveRange h _ _) hdescs _

/-! ## Every run -/

/-- **The counters are exact in every state a run visits, and every `SetPage` call on the way is safe.** -/
theorem counters_exact (s : PhysicalMemoryManager) (image : KernelImage) (boot : BootInfo)
    (bytes : Lib.Bytes) (hb : Accepts boot) (ops : List Op) :
    Lib.Throughout step Exact (s.init image boot bytes).2 ops ∧
    Lib.Along step OpSafe (s.init image boot bytes).2 ops := by
  have hinit := exact_init s image bytes hb
  constructor
  · exact Lib.throughout_of_invariant (fun _ op h => h.step op) hinit ops
  · exact Lib.along_of_invariant (fun _ op h => h.step op) (fun _ op h => h.opSafe op) hinit ops

/-- A double free, an address past managed memory and a count that wraps, after an `Init` with no memory. -/
theorem counters_exact_emptyMap :
    let s : PhysicalMemoryManager := PhysicalMemoryManager.mk (fun _ => 0) 0 0 0
    let image : KernelImage := ⟨0x300000, 0x320000, 0x321000, 0x322000⟩
    let boot : BootInfo := ⟨{}, ⟨0x90000, 0, 48⟩, 0x200000, 0x10000⟩
    let ops : List Op :=
      [.freePage 0x500000, .freePage 0x500000, .freePage 0xFFFFFFFFFFFFF000,
       .freeContiguous 0x600000 0xFFFFFFFFFFFFFFFF, .allocatePage, .allocateAligned 3 4]
    Lib.Throughout step Exact (s.init image boot fun _ => 0).2 ops ∧
    Lib.Along step OpSafe (s.init image boot fun _ => 0).2 ops :=
  counters_exact _ _ _ _ (by decide) _

end PhysicalMemoryManager
end UefiBoot
