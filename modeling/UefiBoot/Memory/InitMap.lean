import UefiBoot.Memory.Frames

/-!
# `Memory.InitMap` — the pages that `Init` frees

`Init` marks every page used, frees those of the conventional descriptors, rounded inward, and then takes back those
of the reserved ranges, rounded outward. `freed_init` says what comes out, page by page, for any memory map whose ranges
do not overflow.

The rounding has two edges at the top of the address space, where `AlignUp` wraps to 0. A descriptor of no pages that
starts inside the last page has the rounded range from 0 to that page, and frees all of managed memory
(`StartWraps`). A reserved range from the first page into the last one has a rounded end equal to its rounded start,
and reserves nothing (`Vanishes`). Everywhere else the wrap does no harm: `init_exact_iff` says that these two cases
are all that keeps `Init` from freeing exactly the pages the memory map allots.
-/

namespace UefiBoot

/-! ## The ranges as integers -/

namespace KernelMemoryDescriptor

/-- The range of the descriptor does not overflow. -/
def Fits (d : KernelMemoryDescriptor) : Prop := d.physicalStart.toNat + d.numberOfPages.toNat * 4096 < 2 ^ 64

/-- The page lies entirely inside the descriptor. -/
def Holds (d : KernelMemoryDescriptor) (page : Nat) : Prop :=
  d.physicalStart.toNat ≤ page * 4096 ∧
    page * 4096 + 4096 ≤ d.physicalStart.toNat + d.numberOfPages.toNat * 4096

/-- `AlignUp` of the start wraps. -/
def StartWraps (d : KernelMemoryDescriptor) : Prop := 2 ^ 64 ≤ d.physicalStart.toNat + 4095

instance (d : KernelMemoryDescriptor) : Decidable d.Fits := by unfold Fits; infer_instance
instance (d : KernelMemoryDescriptor) (page : Nat) : Decidable (d.Holds page) := by unfold Holds; infer_instance
instance (d : KernelMemoryDescriptor) : Decidable d.StartWraps := by unfold StartWraps; infer_instance

end KernelMemoryDescriptor

namespace PhysicalMemoryManager

/-- The range from `r.1` of `r.2` bytes has a byte in common with the page. -/
def Meets (r : Nat × Nat) (page : Nat) : Prop := 0 < r.2 ∧ r.1 < page * 4096 + 4096 ∧ page * 4096 < r.1 + r.2

/-- The range starts in the first page, and `AlignUp` of its end wraps. -/
def Vanishes (r : Nat × Nat) : Prop := r.1 < 4096 ∧ 2 ^ 64 ≤ r.1 + r.2 + 4095

instance (r : Nat × Nat) (page : Nat) : Decidable (Meets r page) := by unfold Meets; infer_instance
instance (r : Nat × Nat) : Decidable (Vanishes r) := by unfold Vanishes; infer_instance

/-- The reserved ranges: the first megabyte, the kernel, the framebuffer, the page bitmap and the page tables. -/
def reservedExtents (image : KernelImage) (boot : BootInfo) : List (Nat × Nat) :=
  [(0, 0x100000),
   (boot.kernelBase.toNat, boot.kernelSize.toNat),
   (boot.framebuffer.baseAddress.toNat,
     boot.framebuffer.height.toNat * boot.framebuffer.pixelsPerScanline.toNat * 4),
   (image.physicalPageBitmap.toNat, kManagedPageCount / 8),
   (image.pml4.toNat, 512 * 8),
   (image.pdpt.toNat, 512 * 8),
   (image.pageDirectories.toNat, 4 * 512 * 8)]

/-- The page lies inside a conventional descriptor. -/
def Allotted (boot : BootInfo) (bytes : Lib.Bytes) (page : Nat) : Prop :=
  ∃ d ∈ descriptors boot bytes, d.type = kEfiConventionalMemory ∧ d.Holds page

/-- A reserved range meets the page. -/
def Reserved (image : KernelImage) (boot : BootInfo) (page : Nat) : Prop :=
  ∃ r ∈ reservedExtents image boot, Meets r page

/-- A conventional descriptor whose rounded start wraps. -/
def WrapsBelow (boot : BootInfo) (bytes : Lib.Bytes) : Prop :=
  ∃ d ∈ descriptors boot bytes, d.type = kEfiConventionalMemory ∧ d.StartWraps

/-- A reserved range that meets the page and does not vanish. -/
def Held (image : KernelImage) (boot : BootInfo) (page : Nat) : Prop :=
  ∃ r ∈ reservedExtents image boot, ¬ Vanishes r ∧ Meets r page

variable {s : PhysicalMemoryManager} {image : KernelImage} {boot : BootInfo} {bytes : Lib.Bytes} {page : Nat}
  {d : KernelMemoryDescriptor} {r : UInt64 × UInt64}

/-! ## Rounding -/

theorem toNat_pageDown (v : UInt64) : (Lib.alignDown v kPageSize).toNat = v.toNat / 4096 * 4096 := by
  have hpage : kPageSize.toNat = 2 ^ 12 := rfl
  have hdown := Lib.toNat_alignDown (v := v) hpage
  rw [hpage] at hdown
  omega

/-- `AlignUp` with its wrap. -/
theorem toNat_pageUp (v : UInt64) :
    (Lib.alignUp v kPageSize).toNat = (v.toNat + 4095) % 2 ^ 64 / 4096 * 4096 := by
  have hpred : v + kPageSize - 1 = v + 4095 := by
    rw [UInt64.sub_eq_add_neg, UInt64.add_assoc]
    rfl
  have hsum : (v + 4095).toNat = (v.toNat + 4095) % 2 ^ 64 := UInt64.toNat_add ..
  rw [Lib.alignUp_eq, hpred, toNat_pageDown, hsum]

/-! ## One descriptor, one reserved range -/

/-- **One turn over the memory map.** A conventional descriptor frees the pages inside it, and all of them if its
    rounded start wraps. -/
theorem isPageFree_initDescriptor (hfits : d.Fits) (hin : page < kManagedPageCount) :
    (s.initDescriptor d).isPageFree page = true ↔
      (d.type = kEfiConventionalMemory ∧ (d.Holds page ∨ d.StartWraps)) ∨ s.isPageFree page = true := by
  unfold KernelMemoryDescriptor.Fits at hfits
  have hN := kManagedPageCount_eq
  have hpage : kPageSize.toNat = 4096 := rfl
  have hlimit : kManagedMemoryLimit.toNat = 2 ^ 32 := rfl
  have hmul : (d.numberOfPages * kPageSize).toNat = d.numberOfPages.toNat * 4096 := by
    rw [UInt64.toNat_mul, hpage]
    omega
  have hend : (d.physicalStart + d.numberOfPages * kPageSize).toNat
      = d.physicalStart.toNat + d.numberOfPages.toNat * 4096 := by
    rw [UInt64.toNat_add, hmul]
    omega
  have hstart := toNat_pageUp d.physicalStart
  have hstop := toNat_pageDown (d.physicalStart + d.numberOfPages * kPageSize)
  rw [hend] at hstop
  unfold initDescriptor KernelMemoryDescriptor.Holds KernelMemoryDescriptor.StartWraps
  dsimp only
  generalize Lib.alignUp d.physicalStart kPageSize = start at hstart ⊢
  generalize Lib.alignDown (d.physicalStart + d.numberOfPages * kPageSize) kPageSize = stop at hstop ⊢
  by_cases hskip : stop ≤ start ∨ start ≥ kManagedMemoryLimit
  · -- no page of managed memory between the rounded ends
    rw [if_pos hskip]
    rw [ge_iff_le, UInt64.le_iff_toNat_le, UInt64.le_iff_toNat_le, hlimit] at hskip
    refine ⟨Or.inr, fun h => h.resolve_left ?_⟩
    rintro ⟨-, hholds | hwraps⟩ <;> omega
  · rw [if_neg hskip]
    rw [ge_iff_le, not_or, UInt64.le_iff_toNat_le, UInt64.le_iff_toNat_le, hlimit] at hskip
    by_cases htype : d.type = kEfiConventionalMemory
    · rw [if_pos htype]
      have hclamp : (if stop > kManagedMemoryLimit then kManagedMemoryLimit else stop).toNat
          = min stop.toNat (2 ^ 32) := by
        split
        · rename_i hpast
          rw [gt_iff_lt, UInt64.lt_iff_toNat_lt, hlimit] at hpast
          omega
        · rename_i hpast
          rw [gt_iff_lt, UInt64.lt_iff_toNat_lt, hlimit] at hpast
          omega
      generalize (if stop > kManagedMemoryLimit then kManagedMemoryLimit else stop) = clamped at hclamp ⊢
      have hcount : (clamped - start).toNat = clamped.toNat - start.toNat :=
        UInt64.toNat_sub_of_le _ _ (UInt64.le_iff_toNat_le.mpr (by omega))
      have hmem : page ∈ markedPages (start / kPageSize) ((clamped - start) / kPageSize) ↔
          (d.physicalStart.toNat ≤ page * 4096 ∧
              page * 4096 + 4096 ≤ d.physicalStart.toNat + d.numberOfPages.toNat * 4096) ∨
            2 ^ 64 ≤ d.physicalStart.toNat + 4095 := by
        rw [mem_markedPages, UInt64.toNat_add, UInt64.toNat_div, UInt64.toNat_div, hcount, hpage]
        omega
      unfold markRange
      rw [isPageFree_markPages]
      by_cases hmarked : page ∈ markedPages (start / kPageSize) ((clamped - start) / kPageSize)
      · rw [if_pos hmarked]
        exact iff_of_true rfl (Or.inl ⟨htype, hmem.mp hmarked⟩)
      · rw [if_neg hmarked]
        refine ⟨Or.inr, fun h => h.resolve_left fun hd => hmarked (hmem.mpr hd.2)⟩
    · rw [if_neg htype]
      exact ⟨Or.inr, fun h => h.resolve_left fun hd => htype hd.1⟩

/-- **One reservation** takes the pages that its range meets, unless its rounded ends are both 0. -/
theorem isPageFree_reserveRange_iff (hfits : r.1.toNat + r.2.toNat < 2 ^ 64) (hin : page < kManagedPageCount) :
    (s.reserveRange r.1 r.2).isPageFree page = true ↔
      s.isPageFree page = true ∧
        ¬ (¬ Vanishes (r.1.toNat, r.2.toNat) ∧ Meets (r.1.toNat, r.2.toNat) page) := by
  have hN := kManagedPageCount_eq
  have hpage : kPageSize.toNat = 4096 := rfl
  have hlimit : kManagedMemoryLimit.toNat = 2 ^ 32 := rfl
  have hzero : (0 : UInt64).toNat = 0 := rfl
  have hend : (r.1 + r.2).toNat = r.1.toNat + r.2.toNat := by
    rw [UInt64.toNat_add]
    omega
  have hstart := toNat_pageDown r.1
  have hstop := toNat_pageUp (r.1 + r.2)
  rw [hend] at hstop
  unfold reserveRange Vanishes Meets
  dsimp only
  generalize Lib.alignDown r.1 kPageSize = start at hstart ⊢
  generalize Lib.alignUp (r.1 + r.2) kPageSize = stop at hstop ⊢
  by_cases hskip : r.2 = 0 ∨ r.1 ≥ kManagedMemoryLimit
  · rw [if_pos hskip]
    rw [ge_iff_le, ← UInt64.toNat_inj, UInt64.le_iff_toNat_le, hlimit, hzero] at hskip
    refine ⟨fun hfree => ⟨hfree, ?_⟩, And.left⟩
    rintro ⟨-, hsome, hlo, hhi⟩
    omega
  · rw [if_neg hskip]
    rw [ge_iff_le, not_or, ← UInt64.toNat_inj, UInt64.le_iff_toNat_le, hlimit, hzero] at hskip
    have hcount : (stop - start).toNat = (2 ^ 64 - start.toNat + stop.toNat) % 2 ^ 64 := UInt64.toNat_sub ..
    have hmem : page ∈ markedPages (start / kPageSize) ((stop - start) / kPageSize) ↔
        ¬ (r.1.toNat < 4096 ∧ 2 ^ 64 ≤ r.1.toNat + r.2.toNat + 4095) ∧
          0 < r.2.toNat ∧ r.1.toNat < page * 4096 + 4096 ∧ page * 4096 < r.1.toNat + r.2.toNat := by
      rw [mem_markedPages, UInt64.toNat_add, UInt64.toNat_div, UInt64.toNat_div, hcount, hpage]
      omega
    unfold markRange
    rw [isPageFree_markPages]
    by_cases hmarked : page ∈ markedPages (start / kPageSize) ((stop - start) / kPageSize)
    · rw [if_pos hmarked]
      exact iff_of_false (by simp) fun h => h.2 (hmem.mp hmarked)
    · rw [if_neg hmarked]
      exact ⟨fun hfree => ⟨hfree, fun h => hmarked (hmem.mpr h)⟩, And.left⟩

/-! ## `Init` -/

/-- The memory map frees the pages of its conventional descriptors. -/
theorem isPageFree_descriptors {ds : List KernelMemoryDescriptor} (hfits : ∀ d ∈ ds, d.Fits)
    (hin : page < kManagedPageCount) :
    (ds.foldl initDescriptor s).isPageFree page = true ↔
      (∃ d ∈ ds, d.type = kEfiConventionalMemory ∧ (d.Holds page ∨ d.StartWraps)) ∨ s.isPageFree page = true := by
  induction ds generalizing s with
  | nil => simp
  | cons d ds ih =>
    rw [List.foldl_cons, ih fun e he => hfits e (List.mem_cons_of_mem _ he),
      isPageFree_initDescriptor (hfits d List.mem_cons_self) hin, List.exists_mem_cons_iff]
    exact or_left_comm.trans or_assoc.symm

/-- The reservations take their pages, whatever the order. -/
theorem isPageFree_reserveRanges {ranges : List (UInt64 × UInt64)}
    (hfits : ∀ r ∈ ranges, r.1.toNat + r.2.toNat < 2 ^ 64) (hin : page < kManagedPageCount) :
    (ranges.foldl (fun s r => s.reserveRange r.1 r.2) s).isPageFree page = true ↔
      s.isPageFree page = true ∧
        ¬ ∃ r ∈ ranges.map fun r => (r.1.toNat, r.2.toNat), ¬ Vanishes r ∧ Meets r page := by
  induction ranges generalizing s with
  | nil => simp
  | cons r ranges ih =>
    rw [List.foldl_cons, ih fun q hq => hfits q (List.mem_cons_of_mem _ hq),
      isPageFree_reserveRange_iff (hfits r List.mem_cons_self) hin, List.map_cons, List.exists_mem_cons_iff, not_or]
    exact and_assoc

theorem isPageFree_allUsed (s : PhysicalMemoryManager) (hin : page < kManagedPageCount) :
    s.allUsed.isPageFree page = false := by
  unfold isPageFree
  rw [test_allUsed s hin]
  rfl

/-- The ranges that `Init` reserves are the integer ranges, as long as these fit. -/
theorem reservedRanges_toNat (hres : ∀ r ∈ reservedExtents image boot, r.1 + r.2 < 2 ^ 64) :
    (reservedRanges image boot).map (fun r => (r.1.toNat, r.2.toNat)) = reservedExtents image boot := by
  have hN := kManagedPageCount_eq
  have hframe := hres (boot.framebuffer.baseAddress.toNat,
    boot.framebuffer.height.toNat * boot.framebuffer.pixelsPerScanline.toNat * 4) (by simp [reservedExtents])
  dsimp only at hframe
  -- the product of the two 32-bit numbers fits, and four times it by assumption
  have hbytes : (boot.framebuffer.height.toUInt64 * boot.framebuffer.pixelsPerScanline.toUInt64 * 4).toNat
      = boot.framebuffer.height.toNat * boot.framebuffer.pixelsPerScanline.toNat * 4 := by
    have hfour : (4 : UInt64).toNat = 4 := rfl
    rw [UInt64.toNat_mul, UInt64.toNat_mul, UInt32.toNat_toUInt64, UInt32.toNat_toUInt64, hfour]
    rw [Nat.mod_eq_of_lt (b := 2 ^ 64) (a := _ * boot.framebuffer.pixelsPerScanline.toNat) (by omega)]
    exact Nat.mod_eq_of_lt (by omega)
  have hbitmap : (UInt64.ofNat (kManagedPageCount / 8)).toNat = kManagedPageCount / 8 := by
    rw [UInt64.toNat_ofNat']
    omega
  unfold reservedRanges reservedExtents
  simp only [List.map_cons, List.map_nil, hbytes, hbitmap]
  rfl

/-- **What `Init` leaves free**, page by page. -/
theorem freed_init (hb : Accepts boot) (hdescs : ∀ d ∈ descriptors boot bytes, d.Fits)
    (hres : ∀ r ∈ reservedExtents image boot, r.1 + r.2 < 2 ^ 64) (hin : page < kManagedPageCount) :
    (s.init image boot bytes).2.isPageFree page = true ↔
      (Allotted boot bytes page ∨ WrapsBelow boot bytes) ∧ ¬ Held image boot page := by
  have hextents := reservedRanges_toNat hres
  have hranges : ∀ r ∈ reservedRanges image boot, r.1.toNat + r.2.toNat < 2 ^ 64 := by
    intro r hr
    have hmem := List.mem_map_of_mem (f := fun r : UInt64 × UInt64 => (r.1.toNat, r.2.toNat)) hr
    rw [hextents] at hmem
    exact hres _ hmem
  have hsplit : (∃ d ∈ descriptors boot bytes, d.type = kEfiConventionalMemory ∧ (d.Holds page ∨ d.StartWraps)) ↔
      Allotted boot bytes page ∨ WrapsBelow boot bytes := by
    unfold Allotted WrapsBelow
    constructor
    · rintro ⟨d, hd, htype, hholds | hwraps⟩
      · exact Or.inl ⟨d, hd, htype, hholds⟩
      · exact Or.inr ⟨d, hd, htype, hwraps⟩
    · rintro (⟨d, hd, htype, hholds⟩ | ⟨d, hd, htype, hwraps⟩)
      · exact ⟨d, hd, htype, Or.inl hholds⟩
      · exact ⟨d, hd, htype, Or.inr hwraps⟩
  rw [init_eq hb, isPageFree_reserveRanges hranges hin, isPageFree_descriptors hdescs hin, isPageFree_allUsed s hin,
    hextents, hsplit]
  simp only [Bool.false_eq_true, or_false]
  rfl

/-- `Init` returns true exactly when it left a page free. -/
theorem init_true_iff (hb : Accepts boot) :
    (s.init image boot bytes).1 = true ↔
      ∃ page < kManagedPageCount, (s.init image boot bytes).2.isPageFree page = true := by
  have hexact := exact_init s image bytes hb
  have hresult : (s.init image boot bytes).1 = decide ((s.init image boot bytes).2.mFreePages > 0) := by
    unfold init
    rw [if_neg]
    rintro (hnull | hsize)
    · exact hb.1 hnull
    · exact absurd hb.2 (UInt64.not_le.mpr hsize)
  have hzero : (0 : UInt64).toNat = 0 := rfl
  rw [hresult, decide_eq_true_iff, gt_iff_lt, UInt64.lt_iff_toNat_lt, hexact.free, hzero]
  unfold Lib.Bitmap.clearCount isPageFree
  rw [Finset.card_pos]
  constructor
  · rintro ⟨page, hpage⟩
    obtain ⟨hlt, hclear⟩ := Finset.mem_filter.mp hpage
    exact ⟨page, Finset.mem_range.mp hlt, by rw [hclear]; rfl⟩
  · rintro ⟨page, hlt, hfree⟩
    exact ⟨page, Finset.mem_filter.mpr ⟨Finset.mem_range.mpr hlt, by simpa using hfree⟩⟩

/-- A reserved range that vanishes would have taken every page of managed memory. -/
theorem Vanishes.meets {r : Nat × Nat} (h : Vanishes r) (hfits : r.1 + r.2 < 2 ^ 64) (hin : page < kManagedPageCount) :
    Meets r page := by
  have hN := kManagedPageCount_eq
  obtain ⟨hlo, hhi⟩ := h
  refine ⟨by omega, by omega, by omega⟩

/-- **`Init` frees exactly the allotted pages** that are not reserved, and returns whether there is one, except where
    the rounding wraps and the wrap shows: a conventional descriptor whose start wraps frees a page that no
    conventional descriptor holds, or a reserved range that vanishes leaves a page free. -/
theorem init_exact_iff (s : PhysicalMemoryManager) (image : KernelImage) (boot : BootInfo) (bytes : Lib.Bytes)
    (hb : Accepts boot) (hdescs : ∀ d ∈ descriptors boot bytes, d.Fits)
    (hres : ∀ r ∈ reservedExtents image boot, r.1 + r.2 < 2 ^ 64) :
    ((∀ page < kManagedPageCount, (s.init image boot bytes).2.isPageFree page = true ↔
        Allotted boot bytes page ∧ ¬ Reserved image boot page) ∧
      ((s.init image boot bytes).1 = true ↔
        ∃ page < kManagedPageCount, Allotted boot bytes page ∧ ¬ Reserved image boot page)) ↔
    ((WrapsBelow boot bytes →
        ∀ page < kManagedPageCount, Allotted boot bytes page ∨ Reserved image boot page) ∧
      ((∃ r ∈ reservedExtents image boot, Vanishes r) →
        ∀ page < kManagedPageCount, Held image boot page ∨
          ¬ (Allotted boot bytes page ∨ WrapsBelow boot bytes))) := by
  have hfreed := fun page (hin : page < kManagedPageCount) => freed_init (s := s) hb hdescs hres hin
  have hheld : ∀ page, Held image boot page → Reserved image boot page := by
    rintro page ⟨r, hr, -, hmeets⟩
    exact ⟨r, hr, hmeets⟩
  constructor
  · rintro ⟨hpages, -⟩
    constructor
    · -- a page that the wrapped descriptor frees is an allotted one
      intro hwraps page hin
      by_cases hreserved : Reserved image boot page
      · exact Or.inr hreserved
      · have hfree := (hfreed page hin).mpr ⟨Or.inr hwraps, fun h => hreserved (hheld page h)⟩
        exact Or.inl ((hpages page hin).mp hfree).1
    · -- every page is reserved by the range that vanished, so none is free
      rintro ⟨r, hr, hvanishes⟩ page hin
      have hreserved : Reserved image boot page := ⟨r, hr, hvanishes.meets (hres r hr) hin⟩
      by_cases hh : Held image boot page
      · exact Or.inl hh
      · refine Or.inr fun hallot => ?_
        exact ((hpages page hin).mp ((hfreed page hin).mpr ⟨hallot, hh⟩)).2 hreserved
  · rintro ⟨hwraps, hvanish⟩
    have hpages : ∀ page < kManagedPageCount, (s.init image boot bytes).2.isPageFree page = true ↔
        Allotted boot bytes page ∧ ¬ Reserved image boot page := by
      intro page hin
      rw [hfreed page hin]
      constructor
      · rintro ⟨hallot, hnot⟩
        have hreserved : ¬ Reserved image boot page := by
          rintro ⟨r, hr, hmeets⟩
          by_cases hv : Vanishes r
          · exact ((hvanish ⟨r, hr, hv⟩ page hin).resolve_left hnot) hallot
          · exact hnot ⟨r, hr, hv, hmeets⟩
        exact ⟨hallot.elim id fun hw => (hwraps hw page hin).resolve_right hreserved, hreserved⟩
      · rintro ⟨hallot, hreserved⟩
        exact ⟨Or.inl hallot, fun h => hreserved (hheld page h)⟩
    refine ⟨hpages, ?_⟩
    rw [init_true_iff hb]
    constructor
    · rintro ⟨page, hin, hfree⟩
      exact ⟨page, hin, (hpages page hin).mp hfree⟩
    · rintro ⟨page, hin, hpage⟩
      exact ⟨page, hin, (hpages page hin).mpr hpage⟩

theorem smallExtents : reservedExtents smallImage smallBoot = [(0, 0x100000), (0x200000, 0x10000), (0, 0),
    (0x300000, 0x20000), (0x320000, 4096), (0x321000, 4096), (0x322000, 16384)] := by
  unfold reservedExtents
  rw [kManagedPageCount_eq]
  rfl

/-- On the small machine nothing wraps. -/
theorem init_exact_iff_small :
    (∀ page < kManagedPageCount, (init {} smallImage smallBoot smallMap).2.isPageFree page = true ↔
      Allotted smallBoot smallMap page ∧ ¬ Reserved smallImage smallBoot page) ∧
    ((init {} smallImage smallBoot smallMap).1 = true ↔
      ∃ page < kManagedPageCount, Allotted smallBoot smallMap page ∧ ¬ Reserved smallImage smallBoot page) := by
  have hdescs : descriptors smallBoot smallMap = [⟨7, 0x100000, 16⟩] := by decide +kernel
  have hfits : ∀ d ∈ descriptors smallBoot smallMap, d.Fits := by
    rw [hdescs]
    decide
  have hres : ∀ r ∈ reservedExtents smallImage smallBoot, r.1 + r.2 < 2 ^ 64 := by
    rw [smallExtents]
    decide
  have hwraps : ¬ WrapsBelow smallBoot smallMap := by
    unfold WrapsBelow
    rw [hdescs]
    decide
  have hvanish : ¬ ∃ r ∈ reservedExtents smallImage smallBoot, Vanishes r := by
    rw [smallExtents]
    decide
  exact (init_exact_iff {} smallImage smallBoot smallMap (by decide) hfits hres).mpr
    ⟨fun h => absurd h hwraps, fun h => absurd h hvanish⟩

/-- A memory map with one descriptor: conventional, no pages, one byte into the last page of the address space. -/
def lastPageMap : Lib.Bytes := fun a =>
  if a = 0x90000 then 7 else if a = 0x90008 then 1 else if a = 0x90009 then 0xF0
  else if 0x9000A ≤ a ∧ a ≤ 0x9000F then 0xFF else 0

theorem descriptors_lastPage : descriptors smallBoot lastPageMap = [⟨7, 0xFFFFFFFFFFFFF001, 0⟩] := by
  decide +kernel

/-- The descriptor has no pages, and page 1024 is free after `Init`. -/
theorem lastPage_frees :
    Accepts smallBoot ∧ (∀ d ∈ descriptors smallBoot lastPageMap, d.Fits) ∧
      (∀ r ∈ reservedExtents smallImage smallBoot, r.1 + r.2 < 2 ^ 64) ∧
      ¬ Allotted smallBoot lastPageMap 1024 ∧
      (init {} smallImage smallBoot lastPageMap).2.isPageFree 1024 = true := by
  have hN := kManagedPageCount_eq
  have hfits : ∀ d ∈ descriptors smallBoot lastPageMap, d.Fits := by
    rw [descriptors_lastPage]
    decide
  have hres : ∀ r ∈ reservedExtents smallImage smallBoot, r.1 + r.2 < 2 ^ 64 := by
    rw [smallExtents]
    decide
  refine ⟨by decide, hfits, hres, ?_, ?_⟩
  · unfold Allotted
    rw [descriptors_lastPage]
    decide
  · rw [freed_init (by decide) hfits hres (by omega)]
    refine ⟨Or.inr ?_, ?_⟩
    · unfold WrapsBelow
      rw [descriptors_lastPage]
      decide
    · unfold Held
      rw [smallExtents]
      decide

end PhysicalMemoryManager
end UefiBoot
