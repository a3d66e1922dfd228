import UefiBoot.Lib.Ledger
import UefiBoot.Memory.FirstFit

/-!
# `Memory.Frames` — the allocator as its callers see it

A frame is a page-aligned address below 4 GiB, and it is *taken* when its page is in use. The managers built
on the allocator need four facts about it: an allocation fails and changes nothing, or it hands out frames
that were not taken (`allocateAligned_cases`, `allocatePage_cases`); a release of a taken frame gives back
that frame alone (`freePage_returns`); and two exact allocators with the same bits and the same total are
equal (`Exact.ext`). `Ready` is what `Init` establishes and everything here keeps: exact counters, and page 0
in use, so that no allocation that succeeds returns the null address.

`Physical` is the allocator with the bytes of physical memory, which the managers reach through the identity
map.
-/

namespace UefiBoot

/-- The page that holds address `a`. -/
def pageOf (a : UInt64) : Nat := a.toNat / 4096

/-- The address of a page. -/
def frameOf (page : Nat) : UInt64 := UInt64.ofNat page * kPageSize

/-- A page-aligned address in managed memory. -/
def IsFrame (a : UInt64) : Prop := a.toNat % 4096 = 0 ∧ pageOf a < kManagedPageCount

theorem toNat_frameOf {page : Nat} (h : page < kManagedPageCount) : (frameOf page).toNat = page * 4096 := by
  have hN := kManagedPageCount_eq
  unfold frameOf
  rw [UInt64.toNat_mul, UInt64.toNat_ofNat', toNat_kPageSize]
  omega

theorem pageOf_frameOf {page : Nat} (h : page < kManagedPageCount) : pageOf (frameOf page) = page := by
  unfold pageOf
  rw [toNat_frameOf h]
  omega

theorem isFrame_frameOf {page : Nat} (h : page < kManagedPageCount) : IsFrame (frameOf page) := by
  refine ⟨?_, by rw [pageOf_frameOf h]; exact h⟩
  rw [toNat_frameOf h]
  omega

theorem IsFrame.eq_frameOf {a : UInt64} (h : IsFrame a) : a = frameOf (pageOf a) := by
  apply UInt64.toNat_inj.mp
  rw [toNat_frameOf h.2]
  have := h.1
  unfold pageOf
  omega

theorem IsFrame.pageOf_inj {a b : UInt64} (ha : IsFrame a) (hb : IsFrame b) (h : pageOf a = pageOf b) :
    a = b := by
  rw [ha.eq_frameOf, hb.eq_frameOf, h]

theorem frameOf_ne_zero {page : Nat} (h : page < kManagedPageCount) (hpos : page ≠ 0) : frameOf page ≠ 0 := by
  intro hz
  have hval := congrArg UInt64.toNat hz
  rw [toNat_frameOf h] at hval
  have : (0 : UInt64).toNat = 0 := rfl
  omega

theorem pageOf_eq_div (a : UInt64) : (a / kPageSize).toNat = pageOf a := by
  rw [UInt64.toNat_div, toNat_kPageSize]
  rfl

/-- The pages of bytes at `a` and at `b` share no byte. -/
def PagesApart (a b : UInt64) : Prop := 4096 ≤ (a - b).toNat ∧ 4096 ≤ (b - a).toNat

instance (a b : UInt64) : Decidable (PagesApart a b) := by
  unfold PagesApart
  infer_instance

theorem PagesApart.symm {a b : UInt64} (h : PagesApart a b) : PagesApart b a := ⟨h.2, h.1⟩

/-- Two frames share no byte. -/
theorem IsFrame.apart {a b : UInt64} (ha : IsFrame a) (hb : IsFrame b) (hne : a ≠ b) : PagesApart a b := by
  have hval : a.toNat ≠ b.toNat := fun h => hne (UInt64.toNat_inj.mp h)
  have hamod := ha.1
  have hbmod := hb.1
  have halt := a.toNat_lt
  have hblt := b.toNat_lt
  constructor
  · rw [UInt64.toNat_sub]
    omega
  · rw [UInt64.toNat_sub]
    omega

/-- The page at `dst` does not start inside the page at `src`, past its first byte. -/
def Forward (dst src : UInt64) : Prop := dst = src ∨ 4096 ≤ (dst - src).toNat

instance (dst src : UInt64) : Decidable (Forward dst src) := by
  unfold Forward
  infer_instance

/-- Pages at multiples of the page size. -/
theorem forward_of_aligned {dst src : UInt64} (hdst : dst.toNat % 4096 = 0) (hsrc : src.toNat % 4096 = 0) :
    Forward dst src := by
  by_cases heq : dst = src
  · exact Or.inl heq
  · have hval : dst.toNat ≠ src.toNat := fun h => heq (UInt64.toNat_inj.mp h)
    have hdlt := dst.toNat_lt
    have hslt := src.toNat_lt
    right
    rw [UInt64.toNat_sub]
    omega

/-- The bytes of the page at `a`, seen from the page at `b`. -/
theorem PagesApart.offset {a b : UInt64} (h : PagesApart a b) {k : Nat} (hk : k < 4096) :
    4096 ≤ (a + UInt64.ofNat k - b).toNat := by
  obtain ⟨hab, hba⟩ := h
  rw [UInt64.toNat_sub] at hab hba
  rw [UInt64.toNat_sub, UInt64.toNat_add, UInt64.toNat_ofNat']
  have halt := a.toNat_lt
  have hblt := b.toNat_lt
  omega

namespace PhysicalMemoryManager

/-- The frame's page is in use. -/
def Taken (s : PhysicalMemoryManager) (a : UInt64) : Prop :=
  IsFrame a ∧ s.isPageFree (pageOf a) = false

/-- **What `Init` establishes.** -/
structure Ready (s : PhysicalMemoryManager) : Prop where
  exact    : s.Exact
  zeroUsed : s.isPageFree 0 = false

variable {s t : PhysicalMemoryManager}

theorem Ready.taken_zero (h : s.Ready) : s.Taken 0 := by
  have hN := kManagedPageCount_eq
  refine ⟨⟨rfl, ?_⟩, h.zeroUsed⟩
  show 0 < kManagedPageCount
  omega

theorem not_taken_of_free {a : UInt64} (h : s.isPageFree (pageOf a) = true) : ¬ s.Taken a := by
  intro ht
  rw [ht.2] at h
  exact absurd h (by simp)

/-- Reserving a range frees no page. -/
theorem reserveRange_used {page : Nat} (h : s.isPageFree page = false) (address byteCount : UInt64) :
    (s.reserveRange address byteCount).isPageFree page = false := by
  unfold reserveRange
  split
  · exact h
  · show (s.markPages _ _ false).isPageFree page = false
    rw [isPageFree_markPages, h, ite_self]

/-- The first range that `Init` reserves is the first megabyte. -/
theorem isPageFree_init_low (s : PhysicalMemoryManager) (image : KernelImage) {boot : BootInfo}
    (bytes : Lib.Bytes) (hb : Accepts boot) {page : Nat} (hpage : page < 256) :
    (s.init image boot bytes).2.isPageFree page = false := by
  rw [init_eq hb]
  unfold reservedRanges
  rw [List.foldl_cons]
  generalize (descriptors boot bytes).foldl initDescriptor s.allUsed = t
  have hfirst : (t.reserveRange 0 0x100000).isPageFree page = false := by
    have hmem : page ∈ markedPages (Lib.alignDown 0 kPageSize / kPageSize)
        ((Lib.alignUp (0 + 0x100000) kPageSize - Lib.alignDown 0 kPageSize) / kPageSize) := by
      have hlo : (Lib.alignDown 0 kPageSize / kPageSize).toNat = 0 := by decide
      have hhi : (Lib.alignDown 0 kPageSize / kPageSize +
          (Lib.alignUp (0 + 0x100000) kPageSize - Lib.alignDown 0 kPageSize) / kPageSize).toNat = 256 := by
        decide
      rw [mem_markedPages, kManagedPageCount_eq, hlo, hhi]
      omega
    unfold reserveRange
    rw [if_neg (by decide)]
    show (t.markPages _ _ false).isPageFree page = false
    rw [isPageFree_markPages, if_pos hmem]
  generalize t.reserveRange (0, 0x100000).1 (0, 0x100000).2 = u at hfirst ⊢
  generalize [(boot.kernelBase, boot.kernelSize), _, _, _, _, _] = ranges
  induction ranges generalizing u with
  | nil => exact hfirst
  | cons r ranges ih => exact ih _ (reserveRange_used hfirst r.1 r.2)

/-- **`Init` makes the allocator ready.** -/
theorem ready_init (s : PhysicalMemoryManager) (image : KernelImage) {boot : BootInfo} (bytes : Lib.Bytes)
    (hb : Accepts boot) : (s.init image boot bytes).2.Ready :=
  ⟨exact_init s image bytes hb, isPageFree_init_low s image bytes hb (by omega)⟩

/-- `ReserveRange` of the range `r` does not reach the page. -/
def Outside (page : Nat) (r : UInt64 × UInt64) : Prop :=
  page < (Lib.alignDown r.1 kPageSize / kPageSize).toNat ∨
  (Lib.alignDown r.1 kPageSize / kPageSize +
    (Lib.alignUp (r.1 + r.2) kPageSize - Lib.alignDown r.1 kPageSize) / kPageSize).toNat ≤ page

instance (page : Nat) (r : UInt64 × UInt64) : Decidable (Outside page r) := by
  unfold Outside
  infer_instance

theorem isPageFree_reserveRange_of_outside {page : Nat} {r : UInt64 × UInt64} (h : Outside page r) :
    (s.reserveRange r.1 r.2).isPageFree page = s.isPageFree page := by
  unfold reserveRange
  split
  · rfl
  · show (s.markPages _ _ false).isPageFree page = s.isPageFree page
    rw [isPageFree_markPages, if_neg]
    rw [mem_markedPages]
    rintro ⟨hlo, hhi, -⟩
    rcases h with h | h <;> omega

/-- A page outside every reserved range is free after `Init` when the memory map frees it. -/
theorem isPageFree_init_of_outside {image : KernelImage} {boot : BootInfo} {bytes : Lib.Bytes} {page : Nat}
    (hb : Accepts boot) (hout : ∀ r ∈ reservedRanges image boot, Outside page r) :
    (s.init image boot bytes).2.isPageFree page =
      ((descriptors boot bytes).foldl initDescriptor s.allUsed).isPageFree page := by
  rw [init_eq hb]
  generalize (descriptors boot bytes).foldl initDescriptor s.allUsed = t
  generalize reservedRanges image boot = ranges at hout
  induction ranges generalizing t with
  | nil => rfl
  | cons r ranges ih =>
      rw [List.foldl_cons, ih _ (fun q hq => hout q (List.mem_cons_of_mem _ hq))]
      exact isPageFree_reserveRange_of_outside (hout r List.mem_cons_self)

/-- The pages of a descriptor that names conventional memory below the limit. -/
theorem isPageFree_conventional (s : PhysicalMemoryManager) {desc : KernelMemoryDescriptor} {start stop : UInt64}
    {page : Nat} (htype : desc.type = kEfiConventionalMemory)
    (hstart : Lib.alignUp desc.physicalStart kPageSize = start)
    (hstop : Lib.alignDown (desc.physicalStart + desc.numberOfPages * kPageSize) kPageSize = stop)
    (hlt : start < stop) (hlimit : stop ≤ kManagedMemoryLimit)
    (hpage : page ∈ markedPages (start / kPageSize) ((stop - start) / kPageSize)) :
    (s.initDescriptor desc).isPageFree page = true := by
  have hinside : ¬ (stop ≤ start ∨ start ≥ kManagedMemoryLimit) := by
    rw [not_or, ge_iff_le, UInt64.not_le, UInt64.not_le]
    exact ⟨hlt, UInt64.lt_of_lt_of_le hlt hlimit⟩
  unfold initDescriptor
  dsimp only
  rw [hstart, hstop, if_neg hinside, if_pos htype, if_neg (UInt64.not_lt.mpr hlimit)]
  unfold markRange
  rw [isPageFree_markPages, if_pos hpage]

/-! ### A small machine -/

/-- Where the kernel's tables are, in the runs below. -/
def smallImage : KernelImage := ⟨0x300000, 0x320000, 0x321000, 0x322000⟩

/-- A memory map with one descriptor, at `0x90000`. -/
def smallBoot : BootInfo := ⟨{}, ⟨0x90000, 48, 48⟩, 0x200000, 0x10000⟩

/-- The descriptor: sixteen conventional pages at 1 MiB. -/
def smallMap : Lib.Bytes :=
  fun a => if a = 0x90000 then 7 else if a = 0x9000A then 0x10 else if a = 0x90018 then 16 else 0

/-- On this machine the pages that the descriptor names are free. -/
theorem isPageFree_small (s : PhysicalMemoryManager) (page : Fin 16) :
    (s.init smallImage smallBoot smallMap).2.isPageFree (256 + page) = true := by
  have hN := kManagedPageCount_eq
  -- every reserved range ends at page 256 or starts at page 272 or later
  have hends : (reservedRanges smallImage smallBoot).all (fun r =>
      decide (272 ≤ (Lib.alignDown r.1 kPageSize / kPageSize).toNat ∨
        (Lib.alignDown r.1 kPageSize / kPageSize +
          (Lib.alignUp (r.1 + r.2) kPageSize - Lib.alignDown r.1 kPageSize) / kPageSize).toNat ≤ 256)) = true := by
    decide +kernel
  have hout : ∀ r ∈ reservedRanges smallImage smallBoot, Outside (256 + page) r := by
    intro r hr
    have hpage := page.isLt
    rcases of_decide_eq_true (List.all_eq_true.mp hends r hr) with h | h
    · left
      omega
    · right
      omega
  have hdescs : descriptors smallBoot smallMap = [⟨7, 0x100000, 16⟩] := by decide +kernel
  rw [isPageFree_init_of_outside (by decide) hout, hdescs, List.foldl_cons, List.foldl_nil]
  have hpage := page.isLt
  have hmarked : 256 + page.val ∈ markedPages (0x100000 / kPageSize) ((0x110000 - 0x100000) / kPageSize) := by
    refine mem_markedPages.mpr ⟨?_, ?_, by omega⟩
    · show 256 ≤ 256 + page.val
      omega
    · show 256 + page.val < 272
      omega
  exact isPageFree_conventional s.allUsed rfl rfl rfl (by decide) (by decide) hmarked

/-! ## The total and the representation -/

@[simp] theorem setPage_mTotalPages (s : PhysicalMemoryManager) (page : Nat) (free : Bool) :
    (s.setPage page free).mTotalPages = s.mTotalPages := by
  unfold setPage
  dsimp only
  split
  · rfl
  · split <;> rfl

@[simp] theorem markPages_mTotalPages (s : PhysicalMemoryManager) (startPage pageCount : UInt64)
    (free : Bool) : (s.markPages startPage pageCount free).mTotalPages = s.mTotalPages := by
  unfold markPages
  generalize markedPages startPage pageCount = pages
  induction pages generalizing s with
  | nil => rfl
  | cons page pages ih => rw [List.foldl_cons, ih, setPage_mTotalPages]

/-- **The bits and the total determine an exact allocator.** -/
theorem Exact.ext (hs : s.Exact) (ht : t.Exact) (hbits : ∀ page, s.isPageFree page = t.isPageFree page)
    (htotal : s.mTotalPages = t.mTotalPages) : s = t := by
  have htest : ∀ page, s.bitmap.test page = t.bitmap.test page := by
    intro page
    have := hbits page
    unfold isPageFree at this
    simpa using this
  have hbitmap : s.bitmap = t.bitmap := Lib.Bitmap.ext htest
  have hfree : s.mFreePages = t.mFreePages := by
    apply UInt64.toNat_inj.mp
    rw [hs.free, ht.free, hbitmap]
  have hused : s.mUsedPages = t.mUsedPages := by
    apply UInt64.toNat_inj.mp
    rw [hs.used, ht.used, hfree]
  cases s
  cases t
  simp only at hbitmap htotal hfree hused
  rw [hbitmap, htotal, hfree, hused]

/-! ## Allocation -/

/-- `t` is `s` with the `n` pages from `first` on taken. -/
structure Takes (s t : PhysicalMemoryManager) (first n : Nat) : Prop where
  inside : first + n ≤ kManagedPageCount
  free   : ∀ page, first ≤ page → page < first + n → s.isPageFree page = true
  pages  : ∀ page, t.isPageFree page = if first ≤ page ∧ page < first + n then false else s.isPageFree page
  total  : t.mTotalPages = s.mTotalPages

variable {pageCount alignmentPages : UInt64}

/-- **An allocation** fails and changes nothing, or takes the block of free pages whose address it returns. -/
theorem allocateAligned_cases (s : PhysicalMemoryManager) (pageCount alignmentPages : UInt64) :
    s.findBlock pageCount alignmentPages = none ∧ s.allocateAligned pageCount alignmentPages = (0, s) ∨
    ∃ first, s.findBlock pageCount alignmentPages = some first ∧ 0 < pageCount.toNat ∧
      (s.allocateAligned pageCount alignmentPages).1 = frameOf first ∧
      Takes s (s.allocateAligned pageCount alignmentPages).2 first pageCount.toNat := by
  cases hfind : s.findBlock pageCount alignmentPages with
  | none =>
      refine Or.inl ⟨rfl, ?_⟩
      unfold allocateAligned
      rw [hfind]
  | some first =>
      obtain ⟨hn, hhi, hrun, -⟩ := findBlock_some hfind
      have hN := kManagedPageCount_eq
      have hres : s.allocateAligned pageCount alignmentPages
          = (frameOf first, s.markPages (UInt64.ofNat first) pageCount false) := by
        unfold allocateAligned
        rw [hfind]
        rfl
      refine Or.inr ⟨first, rfl, hn, by rw [hres], ?_⟩
      rw [hres]
      constructor
      · exact hhi
      · exact hrun.free
      · intro page
        have hfirst : (UInt64.ofNat first).toNat = first := by
          rw [UInt64.toNat_ofNat']
          omega
        have hend : (UInt64.ofNat first + pageCount).toNat = first + pageCount.toNat := by
          rw [UInt64.toNat_add, hfirst]
          omega
        have hmem : page ∈ markedPages (UInt64.ofNat first) pageCount ↔
            first ≤ page ∧ page < first + pageCount.toNat := by
          rw [mem_markedPages, hfirst, hend]
          omega
        rw [isPageFree_markPages]
        simp only [hmem]
      · exact markPages_mTotalPages _ _ _ _

theorem Takes.exact_ready {first n : Nat} (h : Takes s t first n) (hs : s.Ready) (ht : t.Exact) : t.Ready := by
  refine ⟨ht, ?_⟩
  rw [h.pages]
  split
  · rfl
  · exact hs.zeroUsed

theorem Ready.allocateAligned (h : s.Ready) (pageCount alignmentPages : UInt64) :
    (s.allocateAligned pageCount alignmentPages).2.Ready := by
  rcases allocateAligned_cases s pageCount alignmentPages with ⟨-, hres⟩ | ⟨first, -, -, -, htakes⟩
  · rw [hres]; exact h
  · exact htakes.exact_ready h (h.exact.step (.allocateAligned pageCount alignmentPages))

/-- **An allocation must succeed** when some block of the size is free. -/
theorem allocateAligned_complete (h : s.Exact) (hn : pageCount ≠ 0) (halign : alignmentPages ≠ 0)
    (hpow : alignmentPages &&& (alignmentPages - 1) = 0) {r : Nat}
    (hr : r + pageCount.toNat ≤ kManagedPageCount) (hrun : s.FreeRun alignmentPages pageCount.toNat r) :
    ∃ first, s.findBlock pageCount alignmentPages = some first := by
  cases hfind : s.findBlock pageCount alignmentPages with
  | some first => exact ⟨first, rfl⟩
  | none =>
      have hsub : (Finset.range pageCount.toNat).image (r + ·) ⊆
          (Finset.range kManagedPageCount).filter fun i => s.bitmap.test i = false := by
        intro page hpage
        obtain ⟨i, hi, rfl⟩ := Finset.mem_image.mp hpage
        have hi' := Finset.mem_range.mp hi
        have hfree := hrun.free (r + i) (by omega) (by omega)
        rw [Finset.mem_filter, Finset.mem_range]
        refine ⟨by omega, ?_⟩
        simpa [isPageFree] using hfree
      have hcard : pageCount.toNat ≤ s.mFreePages.toNat := by
        rw [h.free]
        have := Finset.card_le_card hsub
        rwa [Finset.card_image_of_injective _ (fun i j hij => by simpa using hij), Finset.card_range] at this
      rcases findBlock_none hfind with hz | hmany | hz | hbad | hnone
      · exact absurd hz hn
      · rw [UInt64.lt_iff_toNat_lt] at hmany
        omega
      · exact absurd hz halign
      · exact absurd hpow hbad
      · exact absurd hrun (hnone r hr)

/-! ## One page -/

/-- `t` is `s` after it handed out the frame `a`. -/
structure Grants (s t : PhysicalMemoryManager) (a : UInt64) : Prop where
  isFrame : IsFrame a
  nonzero : a ≠ 0
  free    : s.isPageFree (pageOf a) = true
  pages   : ∀ page, t.isPageFree page = if page = pageOf a then false else s.isPageFree page
  total   : t.mTotalPages = s.mTotalPages
  ready   : t.Ready

theorem Grants.not_taken {a : UInt64} (h : Grants s t a) : ¬ s.Taken a := not_taken_of_free h.free

theorem Grants.taken {a : UInt64} (h : Grants s t a) (g : UInt64) : t.Taken g ↔ g = a ∨ s.Taken g := by
  unfold Taken
  rw [h.pages]
  constructor
  · rintro ⟨hframe, hused⟩
    by_cases hpage : pageOf g = pageOf a
    · exact Or.inl (hframe.pageOf_inj h.isFrame hpage)
    · rw [if_neg hpage] at hused
      exact Or.inr ⟨hframe, hused⟩
  · rintro (rfl | ⟨hframe, hused⟩)
    · exact ⟨h.isFrame, if_pos rfl⟩
    · refine ⟨hframe, ?_⟩
      split
      · rfl
      · exact hused

/-- **`AllocatePage`** fails and changes nothing, or hands out one frame. -/
theorem allocatePage_cases (h : s.Ready) :
    s.allocatePage = (0, s) ∨ Grants s s.allocatePage.2 s.allocatePage.1 := by
  have hready := h.allocateAligned 1 1
  have hone : (1 : UInt64).toNat = 1 := rfl
  rcases allocateAligned_cases s 1 1 with ⟨-, hres⟩ | ⟨first, -, -, haddr, htakes⟩
  · exact Or.inl hres
  · right
    have hin : first < kManagedPageCount := by have := htakes.inside; omega
    have hfree : s.isPageFree first = true := htakes.free first (le_refl _) (by omega)
    have hpos : first ≠ 0 := by
      rintro rfl
      rw [h.zeroUsed] at hfree
      exact absurd hfree (by simp)
    have haddr' : s.allocatePage.1 = frameOf first := haddr
    rw [haddr']
    refine ⟨isFrame_frameOf hin, frameOf_ne_zero hin hpos, ?_, fun page => ?_, htakes.total, hready⟩
    · rw [pageOf_frameOf hin]; exact hfree
    · rw [pageOf_frameOf hin]
      have hpages := htakes.pages page
      have hiff : (first ≤ page ∧ page < first + (1 : UInt64).toNat) ↔ page = first := by omega
      simp only [hiff] at hpages
      exact hpages

theorem allocatePage_zero (h : s.Ready) (hz : s.allocatePage.1 = 0) : s.allocatePage = (0, s) := by
  rcases allocatePage_cases h with hfail | hgrants
  · exact hfail
  · exact absurd hz hgrants.nonzero

theorem allocatePage_grants (h : s.Ready) (hnz : s.allocatePage.1 ≠ 0) :
    Grants s s.allocatePage.2 s.allocatePage.1 := by
  rcases allocatePage_cases h with hfail | hgrants
  · rw [hfail] at hnz; exact absurd rfl hnz
  · exact hgrants

/-- A free page makes `AllocatePage` succeed. -/
theorem allocatePage_complete (h : s.Ready) {page : Nat} (hin : page < kManagedPageCount)
    (hfree : s.isPageFree page = true) : s.allocatePage.1 ≠ 0 := by
  have hone : (1 : UInt64).toNat = 1 := rfl
  have hrun : s.FreeRun 1 (1 : UInt64).toNat page := by
    constructor
    · show UInt64.ofNat page &&& (1 - 1) = 0
      simp
    · intro q hlo hhi
      rw [show q = page by omega]
      exact hfree
  obtain ⟨first, hfind⟩ := allocateAligned_complete h.exact (by decide) (by decide) (by decide)
    (by omega) hrun
  rcases allocatePage_cases h with hfail | hgrants
  · -- the scan found a block, so the call did not fail
    intro _
    rcases allocateAligned_cases s 1 1 with ⟨hnone, -⟩ | ⟨first', -, -, -, htakes⟩
    · rw [hfind] at hnone; exact absurd hnone (by simp)
    · have hkept : (s.allocateAligned 1 1).2 = s := congrArg Prod.snd hfail
      have hused := htakes.pages first'
      rw [hkept, if_pos ⟨le_refl _, by omega⟩, htakes.free first' (le_refl _) (by omega)] at hused
      exact absurd hused (by simp)
  · exact hgrants.nonzero

/-- On the small machine the first two allocations succeed. -/
theorem allocatePage_small (s : PhysicalMemoryManager) :
    (s.init smallImage smallBoot smallMap).2.allocatePage.1 ≠ 0 ∧
    (s.init smallImage smallBoot smallMap).2.allocatePage.2.allocatePage.1 ≠ 0 := by
  have hN := kManagedPageCount_eq
  have hready : (s.init smallImage smallBoot smallMap).2.Ready := ready_init s _ _ (by decide)
  have hpage := isPageFree_small s
  generalize (s.init smallImage smallBoot smallMap).2 = t at hready hpage
  have hfirst : t.allocatePage.1 ≠ 0 := allocatePage_complete hready (by omega) (hpage 0)
  have hgrants := allocatePage_grants hready hfirst
  refine ⟨hfirst, ?_⟩
  -- of the pages 256 and 257 the first allocation took one at most
  by_cases hzero : pageOf t.allocatePage.1 = 256
  · apply @allocatePage_complete _ hgrants.ready 257 (by omega)
    rw [hgrants.pages, if_neg (by omega)]
    exact hpage 1
  · apply @allocatePage_complete _ hgrants.ready 256 (by omega)
    rw [hgrants.pages, if_neg (by omega)]
    exact hpage 0

/-- `t` is `s` after the frame `a` came back. -/
structure Returns (s t : PhysicalMemoryManager) (a : UInt64) : Prop where
  isFrame : IsFrame a
  pages   : ∀ page, t.isPageFree page = if page = pageOf a then true else s.isPageFree page
  total   : t.mTotalPages = s.mTotalPages
  ready   : t.Ready

theorem Returns.taken {a : UInt64} (h : Returns s t a) (g : UInt64) : t.Taken g ↔ g ≠ a ∧ s.Taken g := by
  unfold Taken
  rw [h.pages]
  constructor
  · rintro ⟨hframe, hused⟩
    split at hused
    · exact absurd hused (by simp)
    · rename_i hpage
      refine ⟨?_, hframe, hused⟩
      rintro rfl
      exact hpage rfl
  · rintro ⟨hne, hframe, hused⟩
    refine ⟨hframe, ?_⟩
    rw [if_neg fun hpage => hne (hframe.pageOf_inj h.isFrame hpage)]
    exact hused

/-- **`FreePage`** frees the page of the address, when it is managed. -/
theorem isPageFree_freePage (s : PhysicalMemoryManager) (a : UInt64) (page : Nat) :
    (s.freePage a).isPageFree page =
      if page = pageOf a ∧ page < kManagedPageCount then true else s.isPageFree page := by
  have hN := kManagedPageCount_eq
  have hone : (1 : UInt64).toNat = 1 := rfl
  have hlt := a.toNat_lt
  have hend : (a / kPageSize + 1).toNat = pageOf a + 1 := by
    rw [UInt64.toNat_add, pageOf_eq_div, hone]
    unfold pageOf
    omega
  have hmem : page ∈ markedPages (a / kPageSize) 1 ↔ page = pageOf a ∧ page < kManagedPageCount := by
    rw [mem_markedPages, hend, pageOf_eq_div]
    omega
  show (s.markPages (a / kPageSize) 1 true).isPageFree page = _
  rw [isPageFree_markPages]
  simp only [hmem]

/-- **`FreePage`** of a frame gives back that frame alone. -/
theorem freePage_returns {a : UInt64} (h : s.Ready) (hframe : IsFrame a) (hnz : a ≠ 0) :
    Returns s (s.freePage a) a := by
  have hpages : ∀ page, (s.freePage a).isPageFree page
      = if page = pageOf a then true else s.isPageFree page := by
    intro page
    have hin := hframe.2
    have hiff : (page = pageOf a ∧ page < kManagedPageCount) ↔ page = pageOf a := by omega
    rw [isPageFree_freePage]
    simp only [hiff]
  refine ⟨hframe, hpages, markPages_mTotalPages _ _ _ _, h.exact.step (.freePage a), ?_⟩
  rw [hpages, if_neg]
  · exact h.zeroUsed
  · intro hz
    apply hnz
    rw [hframe.eq_frameOf, ← hz]
    rfl

end PhysicalMemoryManager

/-! ## Tables that record frames -/

/-- The ledger of a table whose entry `x` records `frame x`. -/
def frameLedger {n : Nat} {E : Type*} (frame : E → Option UInt64) (table : Fin n → E)
    (pmm : PhysicalMemoryManager) : Lib.Ledger (Fin n) UInt64 :=
  { holds := fun i => frame (table i), taken := pmm.Taken }

section FrameLedger

variable {n : Nat} {E : Type*} {frame : E → Option UInt64} {table : Fin n → E} {i : Fin n} {x : E}
  {s t : PhysicalMemoryManager} {a : UInt64}

theorem frameLedger_update (q : Fin n) :
    (frameLedger frame (Function.update table i x) s).holds q
      = if q = i then frame x else (frameLedger frame table s).holds q := by
  show frame (Function.update table i x q) = _
  by_cases hq : q = i
  · rw [hq, Function.update_self, if_pos rfl]
  · rw [Function.update_of_ne hq, if_neg hq]
    rfl

/-- Writing an entry that records the same frame leaves the ledger as it is. -/
theorem frameLedger_same (h : frame x = frame (table i)) :
    frameLedger frame (Function.update table i x) s = frameLedger frame table s := by
  have hholds : (fun q => frame (Function.update table i x q)) = fun q => frame (table q) := by
    funext q
    by_cases hq : q = i
    · rw [hq, Function.update_self, h]
    · rw [Function.update_of_ne hq]
  unfold frameLedger
  rw [hholds]

theorem frameLedger_keeps (h : frame x = frame (table i)) :
    Lib.Ledger.Steps (frameLedger frame table s) (frameLedger frame (Function.update table i x) s) := by
  rw [frameLedger_same h]

/-- A frame from the allocator goes into an entry. -/
theorem frameLedger_grants (hgrants : s.Grants t a) (h : frame x = some a) :
    Lib.Ledger.Steps (frameLedger frame table s) (frameLedger frame (Function.update table i x) t) := by
  apply Relation.ReflTransGen.single
  refine .grantOne (p := i) hgrants.not_taken (fun q => ?_) hgrants.taken
  rw [frameLedger_update, h]
  rfl

/-- An entry gives its frame back. -/
theorem frameLedger_returns (hs : (frameLedger frame table s).Sound 0) (hreturns : s.Returns t a)
    (hi : frame (table i) = some a) (h : frame x = none) :
    Lib.Ledger.Steps (frameLedger frame table s) (frameLedger frame (Function.update table i x) t) := by
  apply Relation.ReflTransGen.single
  refine .revokeOne hs (hi : (frameLedger frame table s).holds i = _) (fun q => ?_) hreturns.taken
  rw [frameLedger_update, h]
  rfl

/-- A table that records nothing is sound over a ready allocator. -/
theorem frameLedger_empty (h : ∀ i, frame (table i) = none) (hready : s.Ready) :
    (frameLedger frame table s).Sound 0 := .empty h hready.taken_zero

/-- Frames that others take leave the table sound. -/
theorem frameLedger_others (hs : (frameLedger frame table s).Sound 0) (h : ∀ a, s.Taken a → t.Taken a) :
    (frameLedger frame table t).Sound 0 :=
  ⟨hs.unique, fun hp => h _ (hs.taken hp), h _ hs.reservedTaken, hs.unheld⟩

end FrameLedger

/-- An allocation keeps every taken frame. -/
theorem PhysicalMemoryManager.taken_allocateAligned {s : PhysicalMemoryManager} {a : UInt64}
    (h : s.Taken a) (pageCount alignmentPages : UInt64) :
    (s.allocateAligned pageCount alignmentPages).2.Taken a := by
  rcases allocateAligned_cases s pageCount alignmentPages with ⟨-, hres⟩ | ⟨first, -, -, -, htakes⟩
  · rw [hres]
    exact h
  · refine ⟨h.1, ?_⟩
    rw [htakes.pages, h.2, ite_self]

/-! ## The allocator and the bytes -/

/-- What a manager reaches through its pointer to the allocator and through the identity map. -/
structure Physical where
  pmm   : PhysicalMemoryManager
  bytes : Lib.Bytes

namespace Physical

/-- `m_PhysicalMemory->AllocatePage()`. -/
def allocatePage (p : Physical) : UInt64 × Physical := (p.pmm.allocatePage.1, { p with pmm := p.pmm.allocatePage.2 })

/-- `m_PhysicalMemory->FreePage(address)`. -/
def freePage (p : Physical) (address : UInt64) : Physical := { p with pmm := p.pmm.freePage address }

/-- `ClearPage`, the same loop in every manager. -/
def clearPage (p : Physical) (physical : UInt64) : Physical :=
  { p with bytes := p.bytes.fill physical kPageSize.toNat 0 }

/-- `CopyPage`, the same loop in every manager. -/
def copyPage (p : Physical) (destination source : UInt64) : Physical :=
  { p with bytes := p.bytes.copy destination source kPageSize.toNat }

section Fields

variable (p : Physical) (a b : UInt64)

@[simp] theorem allocatePage_pmm : p.allocatePage.2.pmm = p.pmm.allocatePage.2 := rfl
@[simp] theorem allocatePage_bytes : p.allocatePage.2.bytes = p.bytes := rfl
@[simp] theorem freePage_pmm : (p.freePage a).pmm = p.pmm.freePage a := rfl
@[simp] theorem freePage_bytes : (p.freePage a).bytes = p.bytes := rfl
@[simp] theorem clearPage_pmm : (p.clearPage a).pmm = p.pmm := rfl
@[simp] theorem clearPage_bytes : (p.clearPage a).bytes = p.bytes.fill a kPageSize.toNat 0 := rfl
@[simp] theorem copyPage_pmm : (p.copyPage a b).pmm = p.pmm := rfl
@[simp] theorem copyPage_bytes : (p.copyPage a b).bytes = p.bytes.copy a b kPageSize.toNat := rfl

end Fields

/-- `CopyPage` gives the destination the bytes of the source, if it reads none that it has written. -/
theorem copyPage_byte {bytes : Lib.Bytes} {dst src : UInt64} (h : Forward dst src) {k : Nat} (hk : k < 4096) :
    bytes.copy dst src kPageSize.toNat (dst + UInt64.ofNat k) = bytes (src + UInt64.ofNat k) := by
  have hk' : (dst + UInt64.ofNat k - dst).toNat < kPageSize.toNat := by
    rw [Lib.Bytes.offset_ofNat (by omega), toNat_kPageSize]
    exact hk
  rw [Lib.Bytes.copy_forward (by rw [toNat_kPageSize]; omega) (by rw [toNat_kPageSize]; exact h), if_pos hk',
    UInt64.add_comm dst, UInt64.add_sub_cancel]

/-- `CopyPage` leaves a page alone that it does not overlap. -/
theorem copyPage_apart {bytes : Lib.Bytes} {dst src a : UInt64} (h : PagesApart a dst) {k : Nat} (hk : k < 4096) :
    bytes.copy dst src kPageSize.toNat (a + UInt64.ofNat k) = bytes (a + UInt64.ofNat k) := by
  apply Lib.Bytes.copy_outside
  rw [toNat_kPageSize]
  exact h.offset hk

/-- A failed allocation changes nothing. -/
theorem allocatePage_failed {p : Physical} (h : p.pmm.Ready) (hz : p.allocatePage.1 = 0) :
    p.allocatePage.2 = p := by
  show ({ p with pmm := p.pmm.allocatePage.2 } : Physical) = p
  rw [PhysicalMemoryManager.allocatePage_zero h hz]

theorem allocatePage_grants {p : Physical} (h : p.pmm.Ready) (hnz : p.allocatePage.1 ≠ 0) :
    p.pmm.Grants p.allocatePage.2.pmm p.allocatePage.1 := PhysicalMemoryManager.allocatePage_grants h hnz

end Physical
end UefiBoot
