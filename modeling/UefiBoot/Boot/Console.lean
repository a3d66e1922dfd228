import UefiBoot.Memory.InitMap
import UefiBoot.Memory.Paging

/-!
# `Boot.Console` — `KernelConsole` on the framebuffer, against the identity map

`DrawPixel` tests its coordinates against the width and the height of the framebuffer and stores one 32-bit word
at an index that it computes in 32 bits; `FillRect` and `Clear` draw through it. Nobody compares the address with
what `InitIdentityMap4GiB` maps: the console takes any base address but 0, and the tables map the first 4 GiB.

`draws_iff` says which bytes `DrawPixel` writes, and `drawn_mapped_iff` when all of them are mapped: exactly when
the last pixel of the last row ends at or below 4 GiB. That no index wraps then is part of the condition, and that
a wrapped index could not hide a pixel is part of the proof (`exists_far_pixel`).
-/

namespace UefiBoot

def kColorBackground : UInt32 := 0xFF050505

namespace FramebufferInfo

/-- `ConvertColor`: format 0 has red in the low byte, the others blue. -/
def convertColor (framebuffer : FramebufferInfo) (color : UInt32) : UInt32 :=
  let red := (color >>> 16) &&& 0xFF
  let green := (color >>> 8) &&& 0xFF
  let blue := color &&& 0xFF
  if framebuffer.format = 0 then red ||| (green <<< 8) ||| (blue <<< 16)
  else blue ||| (green <<< 8) ||| (red <<< 16)

/-- `&base[y * pixels_per_scanline + x]`. The index is a 32-bit word. -/
def pixelAddress (framebuffer : FramebufferInfo) (x y : UInt32) : UInt64 :=
  framebuffer.baseAddress + (y * framebuffer.pixelsPerScanline + x).toUInt64 * 4

/-- `DrawPixel`. Its callers have tested `m_Framebuffer`. -/
def drawPixel (framebuffer : FramebufferInfo) (x y color : UInt32) (m : Lib.Bytes) : Lib.Bytes :=
  if x ≥ framebuffer.width ∨ y ≥ framebuffer.height then m
  else m.store (framebuffer.pixelAddress x y) (framebuffer.convertColor color).toNat 4

end FramebufferInfo

/-! ## The console -/

namespace KernelConsole

def kMarginX : UInt32 := 32
def kMarginY : UInt32 := 28

end KernelConsole

structure KernelConsole where
  mFramebuffer : Option FramebufferInfo := none
  mCursorX     : UInt32 := KernelConsole.kMarginX
  mCursorY     : UInt32 := KernelConsole.kMarginY

/-- The values of a loop variable that starts at `lo` and runs while it is below `lo + n`, a sum that may wrap, and
    below `bound`. -/
def loopRange (lo n bound : UInt32) : List UInt32 :=
  (List.range' lo.toNat (min (lo + n).toNat bound.toNat - lo.toNat)).map UInt32.ofNat

namespace KernelConsole

def fillRect (c : KernelConsole) (x y w h color : UInt32) (m : Lib.Bytes) : Lib.Bytes :=
  match c.mFramebuffer with
  | none             => m
  | some framebuffer =>
    (loopRange y h framebuffer.height).foldl
      (fun m cy =>
        (loopRange x w framebuffer.width).foldl (fun m cx => framebuffer.drawPixel cx cy color m) m) m

def clear (c : KernelConsole) (color : UInt32) (m : Lib.Bytes) : KernelConsole × Lib.Bytes :=
  let size := c.mFramebuffer.getD {}
  ({ c with mCursorX := kMarginX, mCursorY := kMarginY }, c.fillRect 0 0 size.width size.height color m)

/-- The test of `Init`; the pointer is not null. -/
def Accepts (framebuffer : FramebufferInfo) : Prop :=
  framebuffer.baseAddress ≠ 0 ∧ framebuffer.width ≠ 0 ∧ framebuffer.height ≠ 0

instance (framebuffer : FramebufferInfo) : Decidable (Accepts framebuffer) := by unfold Accepts; infer_instance

def init (c : KernelConsole) (framebuffer : Option FramebufferInfo) (m : Lib.Bytes) :
    Bool × KernelConsole × Lib.Bytes :=
  match framebuffer with
  | none             => (false, c, m)
  | some framebuffer =>
    if ¬ Accepts framebuffer then (false, c, m)
    else
      let c := { c with mFramebuffer := some framebuffer, mCursorX := kMarginX, mCursorY := kMarginY }
      (true, c.clear kColorBackground m)

theorem init_iff {c : KernelConsole} {framebuffer : FramebufferInfo} {m : Lib.Bytes} :
    (c.init (some framebuffer) m).1 = true ↔ Accepts framebuffer := by
  unfold init
  dsimp only
  split
  · rename_i hrefused
    exact iff_of_false Bool.false_ne_true hrefused
  · rename_i haccepted
    exact iff_of_true rfl (not_not.mp haccepted)

end KernelConsole

/-! ## The bytes that are drawn -/

namespace FramebufferInfo

variable {framebuffer : FramebufferInfo} {x y : UInt32} {a : UInt64}

/-- Some `DrawPixel` changes the byte at `a`. -/
def Draws (framebuffer : FramebufferInfo) (a : UInt64) : Prop :=
  ∃ x y color m, framebuffer.drawPixel x y color m a ≠ m a

/-- The number of the pixel at `(x, y)`, before it is cut to 32 bits. -/
def pixel (framebuffer : FramebufferInfo) (x y : Nat) : Nat := y * framebuffer.pixelsPerScanline.toNat + x

theorem toNat_pixelAddress :
    (framebuffer.pixelAddress x y).toNat =
      (framebuffer.baseAddress.toNat + 4 * (framebuffer.pixel x.toNat y.toNat % 2 ^ 32)) % 2 ^ 64 := by
  have hfour : (4 : UInt64).toNat = 4 := rfl
  unfold pixelAddress pixel
  rw [UInt64.toNat_add, UInt64.toNat_mul, UInt32.toNat_toUInt64, UInt32.toNat_add, UInt32.toNat_mul, hfour]
  have hindex : (y.toNat * framebuffer.pixelsPerScanline.toNat % 2 ^ 32 + x.toNat) % 2 ^ 32 =
      (y.toNat * framebuffer.pixelsPerScanline.toNat + x.toNat) % 2 ^ 32 := Nat.mod_add_mod ..
  rw [hindex]
  omega

/-- **What `DrawPixel` writes**: the four bytes of each pixel with coordinates in bounds, and nothing else. -/
theorem draws_iff :
    framebuffer.Draws a ↔
      ∃ x < framebuffer.width, ∃ y < framebuffer.height, a ∈ Lib.ByteRange.mk (framebuffer.pixelAddress x y) 4 := by
  constructor
  · rintro ⟨x, y, color, m, hne⟩
    unfold drawPixel at hne
    by_cases hout : x ≥ framebuffer.width ∨ y ≥ framebuffer.height
    · rw [if_pos hout] at hne
      exact absurd rfl hne
    · rw [if_neg hout] at hne
      obtain ⟨hx, hy⟩ := not_or.mp hout
      refine ⟨x, UInt32.not_le.mp hx, y, UInt32.not_le.mp hy, ?_⟩
      by_contra hmem
      exact hne (Lib.Bytes.store_outside (by omega) hmem)
  · rintro ⟨x, hx, y, hy, hmem⟩
    have hin : ¬ (x ≥ framebuffer.width ∨ y ≥ framebuffer.height) :=
      not_or.mpr ⟨UInt32.not_le.mpr hx, UInt32.not_le.mpr hy⟩
    -- over memory that differs from what is stored, wherever that is
    have hstored : ∀ m, framebuffer.drawPixel x y 0 m a = framebuffer.drawPixel x y 0 (fun _ => 0) a := by
      intro m
      unfold drawPixel
      rw [if_neg hin, if_neg hin]
      exact Lib.Bytes.store_inside _ (by omega) hmem
    refine ⟨x, y, 0, fun _ => framebuffer.drawPixel x y 0 (fun _ => 0) a + 1, ?_⟩
    rw [hstored]
    simp

/-- Clearing the screen writes no other bytes. -/
theorem fillRect_draws {c : KernelConsole} {framebuffer : FramebufferInfo} (hc : c.mFramebuffer = some framebuffer)
    {x y w h color : UInt32} {m : Lib.Bytes} {a : UInt64} (hne : c.fillRect x y w h color m a ≠ m a) :
    framebuffer.Draws a := by
  by_contra hnot
  have hpixel : ∀ x y m, framebuffer.drawPixel x y color m a = m a := by
    intro x y m
    by_contra hchange
    exact hnot ⟨x, y, color, m, hchange⟩
  have hrow : ∀ (xs : List UInt32) y m,
      xs.foldl (fun m cx => framebuffer.drawPixel cx y color m) m a = m a := by
    intro xs y
    induction xs with
    | nil => exact fun m => rfl
    | cons x xs ih => exact fun m => (ih _).trans (hpixel x y m)
  have hrows : ∀ (ys xs : List UInt32) m,
      ys.foldl (fun m cy => xs.foldl (fun m cx => framebuffer.drawPixel cx cy color m) m) m a = m a := by
    intro ys xs
    induction ys with
    | nil => exact fun m => rfl
    | cons y ys ih => exact fun m => (ih _).trans (hrow xs y m)
  apply hne
  unfold KernelConsole.fillRect
  rw [hc]
  exact hrows _ _ m

/-! ## Where the pixels end -/

/-- The address after the last pixel of the last row, were the addresses not to wrap. -/
def lastPixelEnd (framebuffer : FramebufferInfo) : Nat :=
  framebuffer.baseAddress.toNat +
    4 * ((framebuffer.height.toNat - 1) * framebuffer.pixelsPerScanline.toNat + framebuffer.width.toNat)

/-- When the pixels are numbered past `2 ^ 32`, some pixel before the first wrap is `2 ^ 30` or more: the numbers
    grow by rows that are shorter. -/
theorem exists_far_pixel {w h stride : Nat} (hw : 0 < w) (hh : 0 < h) (hstride : stride < 2 ^ 32)
    (hpast : 2 ^ 32 ≤ (h - 1) * stride + (w - 1)) :
    ∃ x < w, ∃ y < h, 2 ^ 30 ≤ y * stride + x ∧ y * stride + x < 2 ^ 32 := by
  by_cases hwide : 2 ^ 30 < w
  · -- in the first row
    exact ⟨2 ^ 30, hwide, 0, hh, by omega, by omega⟩
  · have hrows : 2 ^ 31 < (h - 1) * stride := by omega
    have hsecond : 1 < h := by
      by_contra hone
      have hzero : h - 1 = 0 := by omega
      rw [hzero] at hrows
      omega
    by_cases hlong : 2 ^ 30 ≤ stride
    · -- at the start of the second row
      exact ⟨0, hw, 1, hsecond, by omega, by omega⟩
    · have hpos : 0 < stride := by
        by_contra hzero
        have hz : stride = 0 := by omega
        rw [hz] at hrows
        omega
      have hlow := Nat.div_add_mod (2 ^ 30) stride
      have hmod := Nat.mod_lt (2 ^ 30) hpos
      have hnext : (2 ^ 30 / stride + 1) * stride = stride * (2 ^ 30 / stride) + stride := by ring
      refine ⟨0, hw, 2 ^ 30 / stride + 1, ?_, by omega, by omega⟩
      by_contra hlast
      have hle : (h - 1) * stride ≤ (2 ^ 30 / stride) * stride := Nat.mul_le_mul_right stride (by omega)
      rw [Nat.mul_comm (2 ^ 30 / stride)] at hle
      omega

/-- Everything that is drawn lies below 4 GiB exactly when the last pixel does. -/
theorem drawn_low_iff (h : KernelConsole.Accepts framebuffer) :
    (∀ a, framebuffer.Draws a → a.toNat < 2 ^ 32) ↔ framebuffer.lastPixelEnd ≤ 2 ^ 32 := by
  obtain ⟨-, hwidth, hheight⟩ := h
  have hw : 0 < framebuffer.width.toNat := UInt32.pos_iff_ne_zero.mpr hwidth
  have hh : 0 < framebuffer.height.toNat := UInt32.pos_iff_ne_zero.mpr hheight
  have hwlt := framebuffer.width.toNat_lt
  have hhlt := framebuffer.height.toNat_lt
  have hbase := framebuffer.baseAddress.toNat_lt
  unfold lastPixelEnd
  constructor
  · intro hlow
    -- the bytes of a pixel whose index does not wrap
    have hplain : ∀ x < framebuffer.width.toNat, ∀ y < framebuffer.height.toNat, ∀ k < 4,
        framebuffer.pixel x y < 2 ^ 32 → framebuffer.baseAddress.toNat + 4 * framebuffer.pixel x y + k < 2 ^ 64 →
        framebuffer.baseAddress.toNat + 4 * framebuffer.pixel x y + k < 2 ^ 32 := by
      intro x hx y hy k hk hindex haddr
      have hxval : (UInt32.ofNat x).toNat = x := UInt32.toNat_ofNat_of_lt' (Nat.lt_trans hx hwlt)
      have hyval : (UInt32.ofNat y).toNat = y := UInt32.toNat_ofNat_of_lt' (Nat.lt_trans hy hhlt)
      have hkval : (UInt64.ofNat k).toNat = k := UInt64.toNat_ofNat_of_lt' (Nat.lt_trans hk (by decide))
      have hval : (framebuffer.pixelAddress (UInt32.ofNat x) (UInt32.ofNat y) + UInt64.ofNat k).toNat =
          framebuffer.baseAddress.toNat + 4 * framebuffer.pixel x y + k := by
        rw [UInt64.toNat_add, toNat_pixelAddress, hxval, hyval, Nat.mod_eq_of_lt hindex, hkval,
          Nat.mod_add_mod, Nat.mod_eq_of_lt haddr]
      rw [← hval]
      apply hlow
      refine draws_iff.mpr ⟨UInt32.ofNat x, ?_, UInt32.ofNat y, ?_, Lib.ByteRange.mem_offset hk (by omega)⟩
      · rw [UInt32.lt_iff_toNat_lt, hxval]
        exact hx
      · rw [UInt32.lt_iff_toNat_lt, hyval]
        exact hy
    have hzero : framebuffer.pixel 0 0 = 0 := by
      unfold pixel
      omega
    have hfirst := hplain 0 hw 0 hh 0 (by omega) (by omega) (by omega)
    have hlast : framebuffer.pixel (framebuffer.width.toNat - 1) (framebuffer.height.toNat - 1) < 2 ^ 32 := by
      by_contra hpast
      obtain ⟨x, hx, y, hy, hfar, hlt⟩ := exists_far_pixel hw hh framebuffer.pixelsPerScanline.toNat_lt
        (Nat.le_of_not_lt hpast)
      have hbyte := hplain x hx y hy 0 (by omega) hlt (by unfold pixel; omega)
      unfold pixel at hbyte
      omega
    have hbyte := hplain _ (Nat.sub_one_lt_of_lt hw) _ (Nat.sub_one_lt_of_lt hh) 3 (by omega) hlast (by omega)
    unfold pixel at hbyte
    omega
  · intro hfits a ha
    obtain ⟨x, hx, y, hy, hmem⟩ := draws_iff.mp ha
    rw [UInt32.lt_iff_toNat_lt] at hx hy
    have hrow : y.toNat * framebuffer.pixelsPerScanline.toNat ≤
        (framebuffer.height.toNat - 1) * framebuffer.pixelsPerScanline.toNat := Nat.mul_le_mul_right _ (by omega)
    have hval := @toNat_pixelAddress framebuffer x y
    unfold pixel at hval
    have hindex : (y.toNat * framebuffer.pixelsPerScanline.toNat + x.toNat) % 2 ^ 32 =
        y.toNat * framebuffer.pixelsPerScanline.toNat + x.toNat := Nat.mod_eq_of_lt (by omega)
    rw [hindex] at hval
    rw [Lib.ByteRange.mem_iff, UInt64.toNat_sub, hval] at hmem
    dsimp only at hmem
    have halt := a.toNat_lt
    omega

end FramebufferInfo

/-- **When drawing cannot fault.** Once `InitIdentityMap4GiB` has loaded its tables, every byte that `DrawPixel` can
    write on a framebuffer that `Init` accepted is mapped to itself, and writable, exactly when the last pixel of the
    last row ends at or below 4 GiB. -/
theorem drawn_mapped_iff (image : KernelImage) (hplaced : VirtualMemoryManager.Placed image) (c : KernelConsole)
    (boot : BootInfo) (m bytes : Lib.Bytes) (hinit : (c.init (some boot.framebuffer) m).1 = true) :
    (∀ a, boot.framebuffer.Draws a →
      PageWalk.walk (VirtualMemoryManager.initIdentityMap4GiB image bytes).1
        (VirtualMemoryManager.initIdentityMap4GiB image bytes).2 a = some ⟨a.toNat, true⟩) ↔
    boot.framebuffer.lastPixelEnd ≤ 2 ^ 32 := by
  rw [← FramebufferInfo.drawn_low_iff (KernelConsole.init_iff.mp hinit)]
  apply forall₂_congr
  intro a _
  exact VirtualMemoryManager.walk_self_iff hplaced bytes a

/-! ### A framebuffer below 4 GiB, and one above -/

/-- A memory map with one descriptor, at `0x90000`, and a framebuffer of 1024 by 768 pixels. -/
def framebufferBoot (baseAddress : UInt64) : BootInfo :=
  ⟨⟨baseAddress, 1024, 768, 1024, 1⟩, ⟨0x90000, 48, 48⟩, 0x200000, 0x10000⟩

/-- The descriptor: 64 MiB of conventional memory at 16 MiB. -/
def framebufferMap : Lib.Bytes :=
  fun a => if a = 0x90000 then 7 else if a = 0x9000B then 1 else if a = 0x90019 then 0x40 else 0

open PhysicalMemoryManager (smallImage)

theorem placed_small : VirtualMemoryManager.Placed smallImage :=
  ⟨by decide, by decide, by decide, by decide, by decide⟩

/-- A framebuffer at 3 GiB can be drawn. -/
theorem drawn_mapped_iff_low :
    (framebufferBoot 0xC0000000).framebuffer.lastPixelEnd ≤ 2 ^ 32 ∧
    ∀ a, (framebufferBoot 0xC0000000).framebuffer.Draws a →
      PageWalk.walk (VirtualMemoryManager.initIdentityMap4GiB smallImage fun _ => 0).1
        (VirtualMemoryManager.initIdentityMap4GiB smallImage fun _ => 0).2 a = some ⟨a.toNat, true⟩ := by
  have hlow : (framebufferBoot 0xC0000000).framebuffer.lastPixelEnd ≤ 2 ^ 32 := by decide
  have hinit : (KernelConsole.init {} (some (framebufferBoot 0xC0000000).framebuffer) fun _ => 0).1 = true :=
    KernelConsole.init_iff.mpr (by decide)
  exact ⟨hlow, (drawn_mapped_iff smallImage placed_small {} (framebufferBoot 0xC0000000) (fun _ => 0) (fun _ => 0)
    hinit).mpr hlow⟩

/-- A framebuffer at 4 GiB is accepted, the allocator finds memory, and the first pixel is not mapped. -/
theorem highFramebuffer_unmapped :
    (KernelConsole.init {} (some (framebufferBoot 0x100000000).framebuffer) fun _ => 0).1 = true ∧
    (PhysicalMemoryManager.init {} smallImage (framebufferBoot 0x100000000) framebufferMap).1 = true ∧
    (framebufferBoot 0x100000000).framebuffer.Draws 0x100000000 ∧
    PageWalk.walk (VirtualMemoryManager.initIdentityMap4GiB smallImage framebufferMap).1
      (VirtualMemoryManager.initIdentityMap4GiB smallImage framebufferMap).2 0x100000000 = none := by
  have hdescs : PhysicalMemoryManager.descriptors (framebufferBoot 0x100000000) framebufferMap =
      [⟨7, 0x1000000, 0x4000⟩] := by
    decide +kernel
  have hextents : PhysicalMemoryManager.reservedExtents smallImage (framebufferBoot 0x100000000) = [(0, 0x100000),
      (0x200000, 0x10000), (0x100000000, 0x300000), (0x300000, 0x20000), (0x320000, 4096), (0x321000, 4096),
      (0x322000, 16384)] := by
    unfold PhysicalMemoryManager.reservedExtents
    rw [kManagedPageCount_eq]
    rfl
  have hfits : ∀ d ∈ PhysicalMemoryManager.descriptors (framebufferBoot 0x100000000) framebufferMap, d.Fits := by
    rw [hdescs]
    decide
  have hres : ∀ r ∈ PhysicalMemoryManager.reservedExtents smallImage (framebufferBoot 0x100000000),
      r.1 + r.2 < 2 ^ 64 := by
    rw [hextents]
    decide
  have hN := kManagedPageCount_eq
  refine ⟨KernelConsole.init_iff.mpr (by decide), ?_, ?_, ?_⟩
  · apply (PhysicalMemoryManager.init_true_iff (by decide)).mpr
    refine ⟨4096, by omega, ?_⟩
    rw [PhysicalMemoryManager.freed_init (by decide) hfits hres (by omega)]
    refine ⟨Or.inl ?_, ?_⟩
    · unfold PhysicalMemoryManager.Allotted
      rw [hdescs]
      decide
    · unfold PhysicalMemoryManager.Held
      rw [hextents]
      decide
  · exact FramebufferInfo.draws_iff.mpr ⟨0, by decide, 0, by decide, by decide⟩
  · rw [show (VirtualMemoryManager.initIdentityMap4GiB smallImage framebufferMap).2 = smallImage.pml4 from rfl,
      VirtualMemoryManager.walk_built placed_small (VirtualMemoryManager.built placed_small _), if_neg (by decide)]

end UefiBoot
