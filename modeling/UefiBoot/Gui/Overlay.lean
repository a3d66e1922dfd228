import UefiBoot.Gui.Line

/-!
# `Gui.Overlay` — the cursor over the screen

The cursor is drawn straight into the framebuffer, after the block of 20 by 20 pixels that begins at the pointer has
been saved, and it is taken away by writing that block back. The shapes are drawn from the pointer by rectangles and
lines of their own, so what matters is that no shape leaves the block (`drawCursor_block`), wherever the pointer is:
then the screen under the cursor is always the one before the cursor was there.
-/

namespace UefiBoot
namespace Gui

open WindowManager (clampToScreen)

abbrev kCursorBackupSize : Nat := 20
def kCursorHeight : UInt32 := 16

/-- `kTheme.cursor`. -/
def cursorColor : UInt32 := 0xFFFFFFFF

/-- `kTheme.cursor_shadow`. -/
def cursorShadow : UInt32 := 0xFF101820

/-! ## Shapes, as calls of `DrawPixel` -/

def fillRect (info : FramebufferInfo) (rect : Rect) (color : UInt32) : List Dot :=
  let maxX := rect.x + rect.width
  let maxY := rect.y + rect.height
  (points rect.x rect.y (if maxX < info.width then maxX else info.width)
    (if maxY < info.height then maxY else info.height)).map fun p => ⟨p.1, p.2, color⟩

/-- The end of `DrawCursor`, which draws the arrow. -/
def drawArrow (info : FramebufferInfo) (x y : UInt32) : List Dot :=
  fillRect info ⟨x + 2, y + 2, 2, kCursorHeight⟩ cursorShadow ++ fillRect info ⟨x + 4, y + 10, 2, 6⟩ cursorShadow ++
    fillRect info ⟨x, y, 2, kCursorHeight⟩ cursorColor ++ fillRect info ⟨x + 2, y + 2, 2, 12⟩ cursorColor ++
    fillRect info ⟨x + 4, y + 4, 2, 8⟩ cursorColor ++ fillRect info ⟨x + 6, y + 6, 2, 4⟩ cursorColor

def drawCursor (info : FramebufferInfo) (mouseX mouseY : Int32) (kind : CursorKind) : List Dot :=
  let x := if mouseX < 0 then 0 else mouseX.toUInt32
  let y := if mouseY < 0 then 0 else mouseY.toUInt32
  match kind with
  | .hand =>
    fillRect info ⟨x + 3, y + 2, 4, 14⟩ cursorShadow ++ fillRect info ⟨x + 1, y + 6, 12, 8⟩ cursorShadow ++
      fillRect info ⟨x + 2, y + 1, 4, 14⟩ cursorColor ++ fillRect info ⟨x, y + 5, 12, 8⟩ cursorColor
  | .move =>
    drawLine x.toInt32 (y + 8).toInt32 (x + 16).toInt32 (y + 8).toInt32 cursorColor ++
      drawLine (x + 8).toInt32 y.toInt32 (x + 8).toInt32 (y + 16).toInt32 cursorColor ++
      fillRect info ⟨x + 7, y + 7, 3, 3⟩ cursorColor
  | .arrow | .resize => drawArrow info x y

/-! ## The cursor and the block under it -/

/-- The array of pixels by column and row. -/
structure CursorBackup where
  x      : Int32 := 0
  y      : Int32 := 0
  pixels : Fin kCursorBackupSize → Fin kCursorBackupSize → UInt32 := fun _ _ => 0
  valid  : Bool := false

/-- The screen and the globals of the cursor. -/
structure Overlay where
  canvas     : Canvas := {}
  mouseX     : Int32 := 0
  mouseY     : Int32 := 0
  cursorKind : CursorKind := .arrow
  backup     : CursorBackup := {}

/-- The offsets of the block, row by row. -/
def blockOffsets : List (Fin kCursorBackupSize × Fin kCursorBackupSize) :=
  (List.finRange kCursorBackupSize).flatMap fun py => (List.finRange kCursorBackupSize).map fun px => (px, py)

/-- A coordinate of the block. -/
def blockAt (start : Int32) (offset : Fin kCursorBackupSize) : Int32 := start + Int32.ofNat offset

namespace Overlay

def saveCursorBackground (s : Overlay) : Overlay :=
  let pixels := fun px py =>
    let sx := blockAt s.mouseX px
    let sy := blockAt s.mouseY py
    if sx ≥ 0 ∧ sy ≥ 0 then s.canvas.readRawPixel sx.toUInt32 sy.toUInt32 else 0
  { s with backup := { x := s.mouseX, y := s.mouseY, pixels := pixels, valid := true } }

/-- The body of the loops of `RestoreCursorBackground`. -/
def restorePixel (backup : CursorBackup) (c : Canvas) (offset : Fin kCursorBackupSize × Fin kCursorBackupSize) :
    Canvas :=
  let sx := blockAt backup.x offset.1
  let sy := blockAt backup.y offset.2
  if sx ≥ 0 ∧ sy ≥ 0 then c.writeRawPixel sx.toUInt32 sy.toUInt32 (backup.pixels offset.1 offset.2) else c

def restoreCursorBackground (s : Overlay) : Overlay :=
  if !s.backup.valid then s
  else
    { s with
      canvas := blockOffsets.foldl (restorePixel s.backup) s.canvas
      backup := { s.backup with valid := false } }

def paintCursor (s : Overlay) : Overlay :=
  let s := s.saveCursorBackground
  { s with canvas := s.canvas.draw (drawCursor s.canvas.info s.mouseX s.mouseY s.cursorKind) }

/-- `MoveCursorOnly`, where `UpdateHoverState` finds a kind of cursor. -/
def moveCursorOnly (s : Overlay) (x y : Int32) (hover : CursorKind) : Overlay :=
  let s := s.restoreCursorBackground
  { s with
    mouseX := clampToScreen x s.canvas.info.width
    mouseY := clampToScreen y s.canvas.info.height
    cursorKind := hover }.paintCursor

end Overlay

/-! ## Every shape stays in the block -/

/-- A dot of the block that begins at a pointer. -/
def InBlock (x y : Nat) (dot : Dot) : Prop :=
  (x ≤ dot.x.toNat ∧ dot.x.toNat < x + kCursorBackupSize) ∧ y ≤ dot.y.toNat ∧ dot.y.toNat < y + kCursorBackupSize

variable {info : FramebufferInfo} {x y : Nat}

/-- The dots of a rectangle inside the block. -/
theorem fillRect_block {rect : Rect} (color : UInt32) (hx : x ≤ rect.x.toNat)
    (hright : rect.x.toNat + rect.width.toNat ≤ x + 20) (hy : y ≤ rect.y.toNat)
    (hbottom : rect.y.toNat + rect.height.toNat ≤ y + 20) (hlx : x + 20 < 2 ^ 32) (hly : y + 20 < 2 ^ 32) :
    ∀ dot ∈ fillRect info rect color, InBlock x y dot := by
  intro dot hdot
  unfold fillRect at hdot
  obtain ⟨p, hp, rfl⟩ := List.mem_map.mp hdot
  have hmaxX := toNat_min (rect.x + rect.width) info.width
  have hmaxY := toNat_min (rect.y + rect.height) info.height
  rw [toNat_add (by omega)] at hmaxX hmaxY
  rw [mem_points, hmaxX, hmaxY] at hp
  have hsize : kCursorBackupSize = 20 := rfl
  unfold InBlock
  dsimp only
  omega

/-- **No shape leaves the block**: at every pointer on the screen, whatever the kind of the cursor is. -/
theorem drawCursor_block {mouseX mouseY : Int32} (hx : 0 ≤ mouseX.toInt) (hx' : mouseX.toInt < 2 ^ 30)
    (hy : 0 ≤ mouseY.toInt) (hy' : mouseY.toInt < 2 ^ 30) (kind : CursorKind) :
    ∀ dot ∈ drawCursor info mouseX mouseY kind, InBlock mouseX.toInt.toNat mouseY.toInt.toNat dot := by
  have hsize : kCursorBackupSize = 20 := rfl
  have hposx : ¬ mouseX < 0 := Int32.not_lt.mpr (Int32.le_iff_toInt_le.mpr hx)
  have hposy : ¬ mouseY < 0 := Int32.not_lt.mpr (Int32.le_iff_toInt_le.mpr hy)
  have hmx := toUInt32_toNat hx
  have hmy := toUInt32_toNat hy
  -- the corner of a shape, a few pixels from the pointer
  have hcorner : ∀ (v k : UInt32), v.toNat < 2 ^ 30 → k.toNat ≤ 20 → (v + k).toNat = v.toNat + k.toNat :=
    fun v k hv hk => toNat_add (by omega)
  unfold drawCursor
  rw [if_neg hposx, if_neg hposy]
  generalize mouseX.toUInt32 = px at hmx ⊢
  generalize mouseY.toUInt32 = py at hmy ⊢
  have hpx : px.toNat < 2 ^ 30 := by omega
  have hpy : py.toNat < 2 ^ 30 := by omega
  have hpoint : mouseX.toInt.toNat = px.toNat ∧ mouseY.toInt.toNat = py.toNat := by omega
  rw [hpoint.1, hpoint.2]
  have hshape : ∀ (dx dy w h color : UInt32), dx.toNat + w.toNat ≤ 20 → dy.toNat + h.toNat ≤ 20 →
      ∀ dot ∈ fillRect info ⟨px + dx, py + dy, w, h⟩ color, InBlock px.toNat py.toNat dot := by
    intro dx dy w h color hw hh
    have hcx := hcorner px dx hpx (by omega)
    have hcy := hcorner py dy hpy (by omega)
    exact fillRect_block color (by dsimp only; omega) (by dsimp only; omega) (by dsimp only; omega)
      (by dsimp only; omega) (by omega) (by omega)
  have hcast : ∀ v : UInt32, v.toNat < 2 ^ 31 → v.toInt32.toInt = v.toNat := by
    intro v hv
    have hcases := toInt32_toInt v
    omega
  have harrow : ∀ dot ∈ drawArrow info px py, InBlock px.toNat py.toNat dot := by
    intro dot hdot
    unfold drawArrow at hdot
    simp only [List.mem_append] at hdot
    rcases hdot with ((((hdot | hdot) | hdot) | hdot) | hdot) | hdot
    · exact hshape 2 2 2 kCursorHeight _ (by decide) (by decide) dot hdot
    · exact hshape 4 10 2 6 _ (by decide) (by decide) dot hdot
    · rw [← UInt32.add_zero px, ← UInt32.add_zero py] at hdot
      exact hshape 0 0 2 kCursorHeight _ (by decide) (by decide) dot hdot
    · exact hshape 2 2 2 12 _ (by decide) (by decide) dot hdot
    · exact hshape 4 4 2 8 _ (by decide) (by decide) dot hdot
    · exact hshape 6 6 2 4 _ (by decide) (by decide) dot hdot
  intro dot hdot
  cases kind with
  | hand =>
      simp only [List.mem_append] at hdot
      rcases hdot with ((hdot | hdot) | hdot) | hdot
      · exact hshape 3 2 4 14 _ (by decide) (by decide) dot hdot
      · exact hshape 1 6 12 8 _ (by decide) (by decide) dot hdot
      · exact hshape 2 1 4 14 _ (by decide) (by decide) dot hdot
      · rw [← UInt32.add_zero px] at hdot
        exact hshape 0 5 12 8 _ (by decide) (by decide) dot hdot
  | move =>
      have height := hcorner py 8 hpy (by decide)
      have hright := hcorner px 16 hpx (by decide)
      have hmiddle := hcorner px 8 hpx (by decide)
      have hbottom := hcorner py 16 hpy (by decide)
      have h8 : (8 : UInt32).toNat = 8 := rfl
      have h16 : (16 : UInt32).toNat = 16 := rfl
      have hpxi := hcast px (by omega)
      have hpyi := hcast py (by omega)
      have hpy8 := hcast (py + 8) (by omega)
      have hpx16 := hcast (px + 16) (by omega)
      have hpx8 := hcast (px + 8) (by omega)
      have hpy16 := hcast (py + 16) (by omega)
      simp only [List.mem_append] at hdot
      unfold InBlock
      rcases hdot with (hdot | hdot) | hdot
      · have hline := drawLine_box (by omega) (by omega) dot hdot
        omega
      · have hline := drawLine_box (by omega) (by omega) dot hdot
        omega
      · exact hshape 7 7 3 3 _ (by decide) (by decide) dot hdot
  | arrow => exact harrow dot hdot
  | resize => exact harrow dot hdot

/-! ## Saving and restoring -/

/-- The store of `RestoreCursorBackground` for one pixel of the block, if that is on the screen. -/
def blockStore (backup : CursorBackup) (info : FramebufferInfo)
    (offset : Fin kCursorBackupSize × Fin kCursorBackupSize) : Option (UInt32 × UInt32) :=
  let sx := blockAt backup.x offset.1
  let sy := blockAt backup.y offset.2
  if sx ≥ 0 ∧ sy ≥ 0 ∧ ¬ (sx.toUInt32 ≥ info.width ∨ sy.toUInt32 ≥ info.height) then
    some (frontAddress info sx.toUInt32 sy.toUInt32, backup.pixels offset.1 offset.2)
  else none

def blockStores (backup : CursorBackup) (info : FramebufferInfo) : List (UInt32 × UInt32) :=
  blockOffsets.filterMap (blockStore backup info)

theorem mem_blockOffsets (offset : Fin kCursorBackupSize × Fin kCursorBackupSize) : offset ∈ blockOffsets := by
  unfold blockOffsets
  rw [List.mem_flatMap]
  exact ⟨offset.2, List.mem_finRange _, List.mem_map.mpr ⟨offset.1, List.mem_finRange _, rfl⟩⟩

namespace Overlay

variable {orig : Pixels} {s : Overlay}

theorem restorePixels_eq (backup : CursorBackup) (c : Canvas)
    (l : List (Fin kCursorBackupSize × Fin kCursorBackupSize)) :
    l.foldl (restorePixel backup) c =
      { c with framebuffer := Lib.storeAll c.framebuffer (l.filterMap (blockStore backup c.info)) } := by
  induction l generalizing c with
  | nil => rfl
  | cons offset l ih =>
      rw [List.foldl_cons, ih, List.filterMap_cons]
      unfold restorePixel blockStore Canvas.writeRawPixel
      dsimp only
      by_cases hpos : blockAt backup.x offset.1 ≥ 0 ∧ blockAt backup.y offset.2 ≥ 0
      · by_cases hscreen : (blockAt backup.x offset.1).toUInt32 ≥ c.info.width ∨
            (blockAt backup.y offset.2).toUInt32 ≥ c.info.height
        · rw [if_pos hpos, if_pos hscreen, if_neg fun hall => hall.2.2 hscreen]
        · rw [if_pos hpos, if_neg hscreen, if_pos ⟨hpos.1, hpos.2, hscreen⟩]
          rfl
      · rw [if_neg hpos, if_neg fun hall => hpos ⟨hall.1, hall.2.1⟩]

/-- The cursor is on the screen, drawn straight into it, and what was there before is `orig`. -/
structure Saved (orig : Pixels) (s : Overlay) : Prop where
  valid  : s.backup.valid = true
  direct : s.canvas.toBackBuffer = false ∧ s.canvas.clipEnabled = false
  block  : ∀ w ∈ blockStores s.backup s.canvas.info, w.2 = orig w.1
  others : ∀ i, i ∉ (blockStores s.backup s.canvas.info).map Prod.fst → s.canvas.framebuffer i = orig i

/-- The cursor is not on the screen. -/
structure Clean (orig : Pixels) (s : Overlay) : Prop where
  valid  : s.backup.valid = false
  direct : s.canvas.toBackBuffer = false ∧ s.canvas.clipEnabled = false
  pixels : s.canvas.framebuffer = orig

/-- **Restoring** a block takes the cursor away. -/
theorem Saved.restore (h : Saved orig s) : Clean orig s.restoreCursorBackground := by
  unfold restoreCursorBackground
  rw [h.valid, if_neg (by decide), restorePixels_eq]
  exact ⟨rfl, h.direct, Lib.storeAll_restore h.block h.others⟩

/-- With no block pending nothing is restored. -/
theorem Clean.restore (h : Clean orig s) : s.restoreCursorBackground = s := by
  unfold restoreCursorBackground
  rw [h.valid]
  rfl

theorem restore_info (s : Overlay) : s.restoreCursorBackground.canvas.info = s.canvas.info := by
  unfold restoreCursorBackground
  split_ifs
  · rfl
  · dsimp only
    rw [restorePixels_eq]

theorem blockAt_toInt {start : Int32} (h : 0 ≤ start.toInt) (h' : start.toInt < 2 ^ 30) (offset : Fin kCursorBackupSize) :
    (blockAt start offset).toInt = start.toInt + offset := by
  have hlt : (offset : Nat) < 20 := offset.isLt
  have hoffset : (Int32.ofNat offset).toInt = offset := Int32.toInt_ofNat_of_lt (by omega)
  unfold blockAt
  rw [Lib.toInt_add_of_range (by omega) (by omega), hoffset]

/-- A coordinate of a dot of the block. -/
theorem exists_blockAt {start : Int32} (h : 0 ≤ start.toInt) (h' : start.toInt < 2 ^ 30) {v : UInt32}
    (hv : start.toInt.toNat ≤ v.toNat ∧ v.toNat < start.toInt.toNat + kCursorBackupSize) :
    ∃ offset : Fin kCursorBackupSize, blockAt start offset ≥ 0 ∧ (blockAt start offset).toUInt32 = v := by
  have hsize : kCursorBackupSize = 20 := rfl
  have hzero : (0 : Int32).toInt = 0 := rfl
  let offset : Fin kCursorBackupSize := ⟨v.toNat - start.toInt.toNat, by omega⟩
  have hat : (blockAt start offset).toInt = v.toNat := by
    have hoffset : ((offset : Nat) : Int) = v.toNat - start.toInt := by
      show ((v.toNat - start.toInt.toNat : Nat) : Int) = _
      omega
    rw [blockAt_toInt h h', hoffset]
    omega
  refine ⟨offset, Int32.le_iff_toInt_le.mpr (by omega), UInt32.toNat_inj.mp ?_⟩
  have hcast := toUInt32_toNat (v := blockAt start offset) (by omega)
  omega

/-- What is saved is what the framebuffer shows. -/
theorem saved_block {w : UInt32 × UInt32}
    (hw : w ∈ blockStores s.saveCursorBackground.backup s.saveCursorBackground.canvas.info) :
    w.2 = s.canvas.framebuffer w.1 := by
  obtain ⟨offset, -, hstore⟩ := List.mem_filterMap.mp hw
  unfold blockStore saveCursorBackground at hstore
  dsimp only at hstore
  split_ifs at hstore with hin hpos
  · -- on the screen, where the pixel was read
    cases hstore
    unfold Canvas.readRawPixel
    exact if_neg hin.2.2
  · exact absurd ⟨hin.1, hin.2.1⟩ hpos

/-- The cursor is drawn to addresses of the block only. -/
theorem stores_block (hdirect : s.canvas.toBackBuffer = false ∧ s.canvas.clipEnabled = false)
    (hx : 0 ≤ s.mouseX.toInt) (hx' : s.mouseX.toInt < 2 ^ 30) (hy : 0 ≤ s.mouseY.toInt) (hy' : s.mouseY.toInt < 2 ^ 30)
    {w : UInt32 × UInt32}
    (hw : w ∈ s.canvas.stores (drawCursor s.canvas.info s.mouseX s.mouseY s.cursorKind)) :
    w.1 ∈ (blockStores s.saveCursorBackground.backup s.canvas.info).map Prod.fst := by
  obtain ⟨dot, hdot, hstore⟩ := List.mem_filterMap.mp hw
  obtain ⟨i, htarget, rfl⟩ := Option.map_eq_some_iff.mp hstore
  have hblock := drawCursor_block hx hx' hy hy' s.cursorKind dot hdot
  obtain ⟨px, hpx, hdotx⟩ := exists_blockAt hx hx' hblock.1
  obtain ⟨py, hpy, hdoty⟩ := exists_blockAt hy hy' hblock.2
  unfold Canvas.target Canvas.activeStride at htarget
  rw [hdirect.1, hdirect.2, Bool.false_and, if_neg Bool.false_ne_true, if_neg Bool.false_ne_true] at htarget
  split_ifs at htarget with hscreen
  cases htarget
  have hblockStore : blockStore s.saveCursorBackground.backup s.canvas.info (px, py) =
      some (frontAddress s.canvas.info dot.x dot.y, s.saveCursorBackground.backup.pixels px py) := by
    unfold blockStore
    dsimp only [saveCursorBackground]
    rw [hdotx, hdoty, if_pos ⟨hpx, hpy, hscreen⟩]
  exact List.mem_map.mpr ⟨_, List.mem_filterMap.mpr ⟨(px, py), mem_blockOffsets _, hblockStore⟩, rfl⟩

/-- **Painting** the cursor saves the block that it is drawn in. -/
theorem Clean.paint (h : Clean orig s) (hx : 0 ≤ s.mouseX.toInt) (hx' : s.mouseX.toInt < 2 ^ 30)
    (hy : 0 ≤ s.mouseY.toInt) (hy' : s.mouseY.toInt < 2 ^ 30) : Saved orig s.paintCursor := by
  have hdirect : s.saveCursorBackground.canvas.toBackBuffer = false := h.direct.1
  unfold paintCursor
  dsimp only
  rw [Canvas.draw_framebuffer hdirect]
  refine ⟨rfl, h.direct, fun w hw => ?_, fun i hi => ?_⟩
  · rw [← h.pixels]
    exact saved_block hw
  · have houtside : i ∉ (s.canvas.stores (drawCursor s.canvas.info s.mouseX s.mouseY s.cursorKind)).map Prod.fst := by
      intro hmem
      obtain ⟨w, hw, rfl⟩ := List.mem_map.mp hmem
      exact hi (stores_block h.direct hx hx' hy hy' hw)
    rw [← h.pixels]
    exact Lib.storeAll_of_not_mem houtside

theorem paint_info (h : s.canvas.toBackBuffer = false) : s.paintCursor.canvas.info = s.canvas.info := by
  have hdirect : s.saveCursorBackground.canvas.toBackBuffer = false := h
  unfold paintCursor
  dsimp only
  rw [Canvas.draw_framebuffer hdirect]
  rfl

/-! ## Moving -/

theorem clampToScreen_range (position : Int32) {size : UInt32} (h : 1 ≤ size.toNat) (h' : size.toNat < 2 ^ 30) :
    0 ≤ (clampToScreen position size).toInt ∧ (clampToScreen position size).toInt < 2 ^ 30 := by
  have hzero : (0 : Int32).toInt = 0 := rfl
  have hone : (1 : UInt32).toNat = 1 := rfl
  have hsize := toInt32_toInt size
  have hlast := toInt32_toInt (size - 1)
  rw [UInt32.toNat_sub_of_le _ _ (UInt32.le_iff_toNat_le.mpr (by omega))] at hlast
  unfold clampToScreen
  split_ifs with hneg hbig
  · omega
  · omega
  · rw [Int32.lt_iff_toInt_lt] at hneg
    rw [ge_iff_le, Int32.le_iff_toInt_le] at hbig
    omega

/-- What all moves keep: the screen is known, and the cursor is either on it or not. -/
structure Reversible (orig : Pixels) (info : FramebufferInfo) (s : Overlay) : Prop where
  info    : s.canvas.info = info
  overlay : Clean orig s ∨ Saved orig s

theorem Reversible.restore (h : Reversible orig info s) : Clean orig s.restoreCursorBackground := by
  cases h.overlay with
  | inl hclean =>
      rw [hclean.restore]
      exact hclean
  | inr hsaved => exact hsaved.restore

theorem Reversible.moveCursorOnly (h : Reversible orig info s) (hwidth : 1 ≤ info.width.toNat ∧ info.width.toNat < 2 ^ 30)
    (hheight : 1 ≤ info.height.toNat ∧ info.height.toNat < 2 ^ 30) (x y : Int32) (hover : CursorKind) :
    Reversible orig info (s.moveCursorOnly x y hover) := by
  have hinfo : s.restoreCursorBackground.canvas.info = info := (restore_info s).trans h.info
  obtain ⟨hvalid, hdirect, hpixels⟩ := h.restore
  unfold Overlay.moveCursorOnly
  generalize s.restoreCursorBackground = t at hinfo hvalid hdirect hpixels ⊢
  dsimp only
  rw [hinfo]
  have hx := clampToScreen_range x hwidth.1 hwidth.2
  have hy := clampToScreen_range y hheight.1 hheight.2
  refine ⟨(paint_info ?_).trans hinfo, .inr (Clean.paint ⟨hvalid, hdirect, hpixels⟩ hx.1 hx.2 hy.1 hy.2)⟩
  exact hdirect.1

/-- A sequence of moves, each with the kind of cursor found. -/
def moveAll (s : Overlay) (moves : List (Int32 × Int32 × CursorKind)) : Overlay :=
  moves.foldl (fun s move => s.moveCursorOnly move.1 move.2.1 move.2.2) s

theorem Reversible.moveAll (h : Reversible orig info s) (hwidth : 1 ≤ info.width.toNat ∧ info.width.toNat < 2 ^ 30)
    (hheight : 1 ≤ info.height.toNat ∧ info.height.toNat < 2 ^ 30) (moves : List (Int32 × Int32 × CursorKind)) :
    Reversible orig info (s.moveAll moves) := by
  induction moves generalizing s with
  | nil => exact h
  | cons move moves ih => exact ih (h.moveCursorOnly hwidth hheight move.1 move.2.1 move.2.2)

/-- **The cursor is reversible**: after any moves, restoring the block gives back the framebuffer that was there before
the first of them. -/
theorem cursor_reversible (s : Overlay) (moves : List (Int32 × Int32 × CursorKind)) (hvalid : s.backup.valid = false)
    (hdirect : s.canvas.toBackBuffer = false ∧ s.canvas.clipEnabled = false)
    (hwidth : 1 ≤ s.canvas.info.width.toNat ∧ s.canvas.info.width.toNat < 2 ^ 30)
    (hheight : 1 ≤ s.canvas.info.height.toNat ∧ s.canvas.info.height.toNat < 2 ^ 30) :
    (s.moveAll moves).restoreCursorBackground.canvas.framebuffer = s.canvas.framebuffer := by
  have hstart : Reversible s.canvas.framebuffer s.canvas.info s := ⟨rfl, .inl ⟨hvalid, hdirect, rfl⟩⟩
  exact (hstart.moveAll hwidth hheight moves).restore.pixels

/-- Over the lower right corner, then past the left edge. -/
theorem cursor_reversible_corner :
    (moveAll { canvas := { info := smallScreen } } [(1023, 767, .hand), (-5, 760, .move)]
      ).restoreCursorBackground.canvas.framebuffer = fun _ => 0 :=
  cursor_reversible { canvas := { info := smallScreen } } [(1023, 767, .hand), (-5, 760, .move)] rfl ⟨rfl, rfl⟩
    (by decide) (by decide)

end Overlay

end Gui
end UefiBoot
