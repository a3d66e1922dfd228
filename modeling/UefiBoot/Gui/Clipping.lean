import UefiBoot.Gui.Canvas

/-!
# `Gui.Clipping` — drawing a part of the screen again

`RedrawDirtyRegion` draws the whole desktop once more, clipped to a rectangle, and copies the rectangle to the
framebuffer. On screens that fit into the back buffer the clipped calls of `DrawPixel` do inside the rectangle what the
same calls do without it, and nothing elsewhere; the copy then changes the pixels of the rectangle. Where two pixels of
the screen have one address, because a row is shorter than the screen or the index wraps, the copy leaves there what
belongs to one of the two.
-/

namespace UefiBoot
namespace Gui

/-- The pixel lies in the rectangle and on the screen. -/
def InDirty (info : FramebufferInfo) (dirty : Rect) (x y : UInt32) : Prop :=
  (dirty.x.toNat ≤ x.toNat ∧ x.toNat < dirty.x.toNat + dirty.width.toNat) ∧
  (dirty.y.toNat ≤ y.toNat ∧ y.toNat < dirty.y.toNat + dirty.height.toNat) ∧
  x.toNat < info.width.toNat ∧ y.toNat < info.height.toNat

instance (info : FramebufferInfo) (dirty : Rect) (x y : UInt32) : Decidable (InDirty info dirty x y) :=
  inferInstanceAs (Decidable (_ ∧ _))

/-- Where a pixel is in the back buffer. -/
def backAddress (x y : UInt32) : UInt32 := y * kBackBufferMaxWidth + x

/-- No two pixels of the screen have one address in the framebuffer. -/
def DistinctPixels (info : FramebufferInfo) : Prop :=
  ∀ x y x' y' : UInt32, x.toNat < info.width.toNat → y.toNat < info.height.toNat →
    x'.toNat < info.width.toNat → y'.toNat < info.height.toNat →
    frontAddress info x y = frontAddress info x' y' → x = x' ∧ y = y'

/-- What clipping to a rectangle is for. -/
structure Clipped (c : Canvas) (dirty : Rect) (dots : List Dot) : Prop where
  inside  : ∀ x y, InDirty c.info dirty x y →
    ((c.beginDrawToBackBuffer dirty).draw dots).backBuffer (backAddress x y) =
      ((c.beginDrawToBackBuffer (screenRect c.info)).draw dots).backBuffer (backAddress x y)
  outside : ∀ i, (∀ x y, InDirty c.info dirty x y → i ≠ backAddress x y) →
    ((c.beginDrawToBackBuffer dirty).draw dots).backBuffer i = c.backBuffer i
  bounded : ∀ w ∈ (c.beginDrawToBackBuffer dirty).stores dots, w.1 < kBackBufferPixels
  front   : ((c.beginDrawToBackBuffer dirty).draw dots).framebuffer = c.framebuffer

/-- What the copy is for. -/
structure Copied (c : Canvas) (dirty : Rect) : Prop where
  pixel : DistinctPixels c.info → ∀ x y, InDirty c.info dirty x y →
    (c.copyBackBufferToFramebuffer dirty).framebuffer (frontAddress c.info x y) = c.backBuffer (backAddress x y)
  other : ∀ i, (∀ x y, InDirty c.info dirty x y → i ≠ frontAddress c.info x y) →
    (c.copyBackBufferToFramebuffer dirty).framebuffer i = c.framebuffer i
  back  : (c.copyBackBufferToFramebuffer dirty).backBuffer = c.backBuffer

/-! ## The clip rectangle -/

variable {info : FramebufferInfo} {dirty : Rect} {x y : UInt32}

/-- `IntersectRect` with the screen. -/
theorem intersectRect_screen (info : FramebufferInfo) (hx : dirty.x.toNat + dirty.width.toNat < 2 ^ 32)
    (hy : dirty.y.toNat + dirty.height.toNat < 2 ^ 32) (x y : UInt32) :
    let clip := intersectRect dirty (screenRect info)
    clip.x.toNat + clip.width.toNat ≤ info.width.toNat ∧ clip.y.toNat + clip.height.toNat ≤ info.height.toNat ∧
    ((clip.x.toNat ≤ x.toNat ∧ x.toNat < clip.x.toNat + clip.width.toNat) ∧
      clip.y.toNat ≤ y.toNat ∧ y.toNat < clip.y.toNat + clip.height.toNat ↔ InDirty info dirty x y) := by
  have hzero : (0 : UInt32).toNat = 0 := rfl
  unfold intersectRect screenRect InDirty
  dsimp only
  rw [UInt32.zero_add, UInt32.zero_add]
  have hx1 := toNat_max dirty.x 0
  have hy1 := toNat_max dirty.y 0
  have hx2 := toNat_min (dirty.x + dirty.width) info.width
  have hy2 := toNat_min (dirty.y + dirty.height) info.height
  rw [toNat_add hx] at hx2
  rw [toNat_add hy] at hy2
  generalize (if dirty.x > 0 then dirty.x else 0) = x1 at hx1 ⊢
  generalize (if dirty.y > 0 then dirty.y else 0) = y1 at hy1 ⊢
  generalize (if dirty.x + dirty.width < info.width then dirty.x + dirty.width else info.width) = x2 at hx2 ⊢
  generalize (if dirty.y + dirty.height < info.height then dirty.y + dirty.height else info.height) = y2 at hy2 ⊢
  split_ifs with hempty
  · rw [UInt32.le_iff_toNat_le, UInt32.le_iff_toNat_le] at hempty
    dsimp only
    omega
  · rw [UInt32.le_iff_toNat_le, UInt32.le_iff_toNat_le] at hempty
    have hwidth : (x2 - x1).toNat = x2.toNat - x1.toNat :=
      UInt32.toNat_sub_of_le _ _ (UInt32.le_iff_toNat_le.mpr (by omega))
    have hheight : (y2 - y1).toNat = y2.toNat - y1.toNat :=
      UInt32.toNat_sub_of_le _ _ (UInt32.le_iff_toNat_le.mpr (by omega))
    dsimp only
    omega

/-- The point test with the casts of `DrawPixel`. -/
theorem target_dirty {c : Canvas} (hwidth : c.info.width.toNat ≤ 2048) (hheight : c.info.height.toNat ≤ 2048)
    (hx : dirty.x.toNat + dirty.width.toNat < 2 ^ 32) (hy : dirty.y.toNat + dirty.height.toNat < 2 ^ 32) :
    (c.beginDrawToBackBuffer dirty).target x y =
      if InDirty c.info dirty x y then some (backAddress x y) else none := by
  have hclip := intersectRect_screen c.info hx hy x y
  unfold Canvas.target Canvas.beginDrawToBackBuffer
  dsimp only
  have hcorner : (x ≥ c.info.width ∨ y ≥ c.info.height) ↔
      (c.info.width.toNat ≤ x.toNat ∨ c.info.height.toNat ≤ y.toNat) := by
    rw [ge_iff_le, ge_iff_le, UInt32.le_iff_toNat_le, UInt32.le_iff_toNat_le]
  rw [Bool.true_and]
  generalize intersectRect dirty (screenRect c.info) = clip at hclip ⊢
  obtain ⟨hright, hbottom, hiff⟩ := hclip
  by_cases hscreen : x ≥ c.info.width ∨ y ≥ c.info.height
  · rw [if_pos hscreen, if_neg]
    intro hin
    have hlt := hin.2.2
    rw [hcorner] at hscreen
    omega
  · rw [if_neg hscreen]
    rw [hcorner] at hscreen
    have hxcast := toInt32_toInt x
    have hycast := toInt32_toInt y
    have hpoint : pointInRect x.toInt32 y.toInt32 clip = true ↔ _ :=
      pointInRect_iff (by omega) (by omega) (by omega) (by omega)
    have hcovers : pointInRect x.toInt32 y.toInt32 clip = true ↔ InDirty c.info dirty x y := by
      rw [hpoint, ← hiff]
      unfold Rect.Covers
      omega
    by_cases hin : InDirty c.info dirty x y
    · rw [if_pos hin, hcovers.mpr hin]
      rfl
    · rw [if_neg hin, Bool.eq_false_iff.mpr (fun h => hin (hcovers.mp h))]
      rfl

/-! ## The back buffer -/

theorem toNat_backAddress (hx : x.toNat < 2048) (hy : y.toNat < 2048) :
    (backAddress x y).toNat = y.toNat * 2048 + x.toNat := by
  have hwidth : kBackBufferMaxWidth.toNat = 2048 := rfl
  unfold backAddress
  rw [UInt32.toNat_add, UInt32.toNat_mul, hwidth]
  omega

/-- The pixel of an index of the back buffer. -/
def inClip (info : FramebufferInfo) (dirty : Rect) (i : UInt32) : Bool :=
  decide (InDirty info dirty (i % kBackBufferMaxWidth) (i / kBackBufferMaxWidth))

theorem inClip_backAddress (hx : x.toNat < 2048) (hy : y.toNat < 2048) :
    inClip info dirty (backAddress x y) = decide (InDirty info dirty x y) := by
  have haddress := toNat_backAddress hx hy
  have hwidth : kBackBufferMaxWidth.toNat = 2048 := rfl
  have hcolumn : backAddress x y % kBackBufferMaxWidth = x := by
    apply UInt32.toNat_inj.mp
    rw [UInt32.toNat_mod, haddress, hwidth]
    omega
  have hrow : backAddress x y / kBackBufferMaxWidth = y := by
    apply UInt32.toNat_inj.mp
    rw [UInt32.toNat_div, haddress, hwidth]
    omega
  unfold inClip
  rw [hcolumn, hrow]

theorem InDirty.screen (h : InDirty info dirty x y) : InDirty info (screenRect info) x y := by
  obtain ⟨-, -, hx, hy⟩ := h
  have hzero : (0 : UInt32).toNat = 0 := rfl
  unfold InDirty screenRect
  dsimp only
  omega

variable {c : Canvas}

/-- **Clipping leaves out the stores elsewhere.** -/
theorem stores_clip (hwidth : c.info.width.toNat ≤ 2048) (hheight : c.info.height.toNat ≤ 2048)
    (hx : dirty.x.toNat + dirty.width.toNat < 2 ^ 32) (hy : dirty.y.toNat + dirty.height.toNat < 2 ^ 32)
    (dots : List Dot) :
    (c.beginDrawToBackBuffer dirty).stores dots =
      ((c.beginDrawToBackBuffer (screenRect c.info)).stores dots).filter fun w => inClip c.info dirty w.1 := by
  have hzero : (0 : UInt32).toNat = 0 := rfl
  have hscreenx : (screenRect c.info).x.toNat + (screenRect c.info).width.toNat < 2 ^ 32 := by
    have := c.info.width.toNat_lt
    show (0 : UInt32).toNat + c.info.width.toNat < 2 ^ 32
    omega
  have hscreeny : (screenRect c.info).y.toNat + (screenRect c.info).height.toNat < 2 ^ 32 := by
    have := c.info.height.toNat_lt
    show (0 : UInt32).toNat + c.info.height.toNat < 2 ^ 32
    omega
  induction dots with
  | nil => rfl
  | cons dot dots ih =>
      have hdirty := target_dirty (c := c) (x := dot.x) (y := dot.y) hwidth hheight hx hy
      have hscreen := target_dirty (c := c) (x := dot.x) (y := dot.y) hwidth hheight hscreenx hscreeny
      by_cases hin : InDirty c.info (screenRect c.info) dot.x dot.y
      · rw [if_pos hin] at hscreen
        rw [Canvas.stores_cons_some hscreen, List.filter_cons]
        dsimp only
        obtain ⟨-, -, hdotx, hdoty⟩ := hin
        rw [inClip_backAddress (by omega) (by omega)]
        by_cases hclip : InDirty c.info dirty dot.x dot.y
        · rw [if_pos hclip] at hdirty
          rw [Canvas.stores_cons_some hdirty, ih, if_pos (decide_eq_true hclip)]
          rfl
        · rw [if_neg hclip] at hdirty
          rw [Canvas.stores_cons_none hdirty, ih, if_neg (by simpa using hclip)]
      · rw [if_neg hin] at hscreen
        rw [if_neg fun hclip => hin hclip.screen] at hdirty
        rw [Canvas.stores_cons_none hscreen, Canvas.stores_cons_none hdirty, ih]

/-- Every store of a clipped sequence is to a pixel of the rectangle. -/
theorem stores_mem (hwidth : c.info.width.toNat ≤ 2048) (hheight : c.info.height.toNat ≤ 2048)
    (hx : dirty.x.toNat + dirty.width.toNat < 2 ^ 32) (hy : dirty.y.toNat + dirty.height.toNat < 2 ^ 32)
    {dots : List Dot} {w : UInt32 × UInt32} (hw : w ∈ (c.beginDrawToBackBuffer dirty).stores dots) :
    ∃ x y, InDirty c.info dirty x y ∧ w.1 = backAddress x y := by
  unfold Canvas.stores at hw
  obtain ⟨dot, -, hdot⟩ := List.mem_filterMap.mp hw
  rw [target_dirty hwidth hheight hx hy] at hdot
  split_ifs at hdot with hin
  · cases hdot
    exact ⟨dot.x, dot.y, hin, rfl⟩
  · cases hdot

theorem clipped (hwidth : c.info.width.toNat ≤ 2048) (hheight : c.info.height.toNat ≤ 2048)
    (hx : dirty.x.toNat + dirty.width.toNat < 2 ^ 32) (hy : dirty.y.toNat + dirty.height.toNat < 2 ^ 32)
    (dots : List Dot) : Clipped c dirty dots := by
  have hdraw := Canvas.draw_backBuffer (c := c.beginDrawToBackBuffer dirty) rfl dots
  have hfull := Canvas.draw_backBuffer (c := c.beginDrawToBackBuffer (screenRect c.info)) rfl dots
  refine ⟨fun x y hin => ?_, fun i hi => ?_, fun w hw => ?_, ?_⟩
  · rw [hdraw, hfull]
    dsimp only
    rw [stores_clip hwidth hheight hx hy]
    apply Lib.storeAll_filter (p := inClip c.info dirty) _ rfl
    obtain ⟨-, -, hlx, hly⟩ := id hin
    rw [inClip_backAddress (by omega) (by omega)]
    exact decide_eq_true hin
  · rw [hdraw]
    dsimp only
    apply Lib.storeAll_of_not_mem
    intro hmem
    obtain ⟨w, hw, rfl⟩ := List.mem_map.mp hmem
    obtain ⟨x, y, hin, haddress⟩ := stores_mem hwidth hheight hx hy hw
    exact hi x y hin haddress
  · obtain ⟨x, y, hin, haddress⟩ := stores_mem hwidth hheight hx hy hw
    obtain ⟨-, -, hlx, hly⟩ := hin
    have htotal : kBackBufferPixels.toNat = 2048 * 2048 := rfl
    rw [haddress, UInt32.lt_iff_toNat_lt, toNat_backAddress (by omega) (by omega), htotal]
    omega
  · rw [hdraw]
    rfl

/-! ## The copy -/

theorem copied (hwidth : c.info.width.toNat ≤ 2048) (hheight : c.info.height.toNat ≤ 2048)
    (hx : dirty.x.toNat + dirty.width.toNat < 2 ^ 32) (hy : dirty.y.toNat + dirty.height.toNat < 2 ^ 32) :
    Copied c dirty := by
  have hclip := intersectRect_screen c.info hx hy
  have hlastx := c.info.width.toNat_lt
  have hlasty := c.info.height.toNat_lt
  have hready : c.backBufferReady = true := by
    unfold Canvas.backBufferReady
    rw [Bool.and_eq_true, decide_eq_true_eq, decide_eq_true_eq, UInt32.le_iff_toNat_le, UInt32.le_iff_toNat_le]
    exact ⟨hwidth, hheight⟩
  have hcopy : c.copyBackBufferToFramebuffer dirty =
      if rectEmpty (intersectRect dirty (screenRect c.info)) then c
      else (points (intersectRect dirty (screenRect c.info)).x (intersectRect dirty (screenRect c.info)).y
        ((intersectRect dirty (screenRect c.info)).x + (intersectRect dirty (screenRect c.info)).width)
        ((intersectRect dirty (screenRect c.info)).y + (intersectRect dirty (screenRect c.info)).height)).foldl
          Canvas.copyPixel c := by
    unfold Canvas.copyBackBufferToFramebuffer
    rw [hready]
    rfl
  generalize intersectRect dirty (screenRect c.info) = clip at hclip hcopy
  dsimp only at hclip
  cases hempty : rectEmpty clip with
  | true =>
      rw [hempty, if_pos rfl] at hcopy
      have hnone : ∀ x y, ¬ InDirty c.info dirty x y := by
        intro x y hin
        obtain ⟨-, -, hiff⟩ := hclip x y
        have hcovers := hiff.mpr hin
        unfold rectEmpty at hempty
        simp only [Bool.or_eq_true, beq_iff_eq] at hempty
        have hzero : (0 : UInt32).toNat = 0 := rfl
        rcases hempty with hzerox | hzeroy
        · rw [hzerox] at hcovers
          omega
        · rw [hzeroy] at hcovers
          omega
      refine ⟨fun _ x y hin => absurd hin (hnone x y), fun i _ => ?_, ?_⟩
      · rw [hcopy]
      · rw [hcopy]
  | false =>
      rw [hempty, if_neg Bool.false_ne_true, Canvas.copyPixels_eq] at hcopy
      have hmem : ∀ p, p ∈ points clip.x clip.y (clip.x + clip.width) (clip.y + clip.height) ↔
          InDirty c.info dirty p.1 p.2 := by
        intro p
        obtain ⟨hright, hbottom, hiff⟩ := hclip p.1 p.2
        rw [mem_points, toNat_add (by omega), toNat_add (by omega)]
        exact hiff
      refine ⟨fun hdistinct x y hin => ?_, fun i hi => ?_, by rw [hcopy]⟩
      · rw [hcopy]
        apply Lib.storeAll_map (f := fun p : UInt32 × UInt32 => p.2 * c.info.pixelsPerScanline + p.1)
          (v := fun p => c.backBuffer (p.2 * kBackBufferMaxWidth + p.1)) (x := (x, y)) ?_ ((hmem (x, y)).mpr hin)
        intro p hp q hq hpq
        obtain ⟨-, -, hpx, hpy⟩ := (hmem p).mp hp
        obtain ⟨-, -, hqx, hqy⟩ := (hmem q).mp hq
        obtain ⟨hxs, hys⟩ := hdistinct p.1 p.2 q.1 q.2 hpx hpy hqx hqy hpq
        exact Prod.ext hxs hys
      · rw [hcopy]
        apply Lib.storeAll_of_not_mem
        intro hstored
        rw [List.map_map] at hstored
        obtain ⟨p, hp, rfl⟩ := List.mem_map.mp hstored
        exact hi p.1 p.2 ((hmem p).mp hp) rfl

/-- On a framebuffer whose rows are as long as the screen and whose indices do not wrap, every pixel has its own
    address. -/
theorem distinctPixels_of_stride (hstride : info.width.toNat ≤ info.pixelsPerScanline.toNat)
    (hsize : info.pixelsPerScanline.toNat * info.height.toNat ≤ 2 ^ 32) : DistinctPixels info := by
  intro x y x' y' hx hy hx' hy' heq
  have hindex : ∀ x y : UInt32, x.toNat < info.width.toNat → y.toNat < info.height.toNat →
      (frontAddress info x y).toNat = y.toNat * info.pixelsPerScanline.toNat + x.toNat := by
    intro x y hx hy
    have hrow : (y.toNat + 1) * info.pixelsPerScanline.toNat ≤ info.height.toNat * info.pixelsPerScanline.toNat :=
      Nat.mul_le_mul_right _ hy
    rw [Nat.add_mul, Nat.one_mul, Nat.mul_comm info.height.toNat] at hrow
    unfold frontAddress
    rw [UInt32.toNat_add, UInt32.toNat_mul, Nat.mod_eq_of_lt (a := y.toNat * _) (by omega)]
    exact Nat.mod_eq_of_lt (by omega)
  have hnat := congrArg UInt32.toNat heq
  rw [hindex x y hx hy, hindex x' y' hx' hy'] at hnat
  have hrow : y.toNat = y'.toNat := by
    have hdiv : (y.toNat * info.pixelsPerScanline.toNat + x.toNat) / info.pixelsPerScanline.toNat =
        (y'.toNat * info.pixelsPerScanline.toNat + x'.toNat) / info.pixelsPerScanline.toNat := by rw [hnat]
    rw [Nat.mul_comm, Nat.mul_add_div (by omega), Nat.mul_comm y'.toNat, Nat.mul_add_div (by omega),
      Nat.div_eq_of_lt (by omega), Nat.div_eq_of_lt (by omega)] at hdiv
    omega
  rw [hrow] at hnat
  exact ⟨UInt32.toNat_inj.mp (by omega), UInt32.toNat_inj.mp hrow⟩

/-- **Clipped rendering.** On a screen of at most 2048 by 2048 pixels, and for a rectangle whose edges do not wrap, a
    sequence of `DrawPixel` calls does inside the rectangle what it does without clipping, changes no other pixel, and
    stays in the back buffer; the copy changes the pixels of the rectangle and no others, and brings them to what the back
    buffer has if every pixel has an address of its own. -/
theorem clipped_rendering (c : Canvas) (dirty : Rect) (dots : List Dot) (hwidth : c.info.width.toNat ≤ 2048)
    (hheight : c.info.height.toNat ≤ 2048) (hx : dirty.x.toNat + dirty.width.toNat < 2 ^ 32)
    (hy : dirty.y.toNat + dirty.height.toNat < 2 ^ 32) :
    Clipped c dirty dots ∧ Copied ((c.beginDrawToBackBuffer dirty).draw dots) dirty := by
  refine ⟨clipped hwidth hheight hx hy dots, ?_⟩
  have hdraw := Canvas.draw_backBuffer (c := c.beginDrawToBackBuffer dirty) rfl dots
  have hinfo : ((c.beginDrawToBackBuffer dirty).draw dots).info = c.info := by
    rw [hdraw]
    rfl
  apply copied
  · rw [hinfo]
    exact hwidth
  · rw [hinfo]
    exact hheight
  · exact hx
  · exact hy

/-- A point is drawn on a screen of 1024 by 768 pixels. -/
theorem clipped_rendering_small :
    Clipped { info := smallScreen } ⟨10, 20, 30, 40⟩ [⟨12, 22, 0xFFFFFFFF⟩] ∧
    Copied (({ info := smallScreen } : Canvas).beginDrawToBackBuffer ⟨10, 20, 30, 40⟩ |>.draw [⟨12, 22, 0xFFFFFFFF⟩])
      ⟨10, 20, 30, 40⟩ :=
  clipped_rendering { info := smallScreen } ⟨10, 20, 30, 40⟩ [⟨12, 22, 0xFFFFFFFF⟩] (by decide) (by decide) (by decide)
    (by decide)

/-- A framebuffer that `FramebufferValid` accepts, whose rows are so long that the index of every other row is that of
    the first. -/
def wrappedScreen : FramebufferInfo := { baseAddress := 1, width := 320, height := 200, pixelsPerScanline := 0x80000000 }

/-- **Two pixels of one address.** The third row is drawn, and copied over the first. -/
theorem copy_overwritten :
    framebufferValid wrappedScreen = true ∧
    let drawn := (({ info := wrappedScreen } : Canvas).beginDrawToBackBuffer ⟨0, 0, 1, 3⟩).draw [⟨0, 2, 0xFFFFFFFF⟩]
    InDirty wrappedScreen ⟨0, 0, 1, 3⟩ 0 0 ∧
    (drawn.copyBackBufferToFramebuffer ⟨0, 0, 1, 3⟩).framebuffer (frontAddress wrappedScreen 0 0) ≠
      drawn.backBuffer (backAddress 0 0) := by
  refine ⟨by decide, ?_⟩
  decide +kernel

end Gui
end UefiBoot
