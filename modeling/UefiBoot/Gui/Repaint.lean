import UefiBoot.Gui.Compose
import UefiBoot.Gui.Geometry
import UefiBoot.Gui.Rectangles
import UefiBoot.Lib.Run

/-!
# `Gui.Repaint` — drawing a part of the desktop again

While a window is dragged, every move draws the desktop again: all of it, or, when `g_DebugFullRedraw` is off, the part
around the window's old and new place. `Shows` says that the screen has the picture of its desktop, under the cursor.
`composeDesktop_shows` and `redrawDirtyRegion_shows` are what the two ways of drawing do for it: the partial one needs
that outside its rectangle the old picture is as good as the new one.

A launch that still counts down its transition changes the colour of its buttons in time, which no rectangle covers
(`Quiet`).
-/

namespace UefiBoot
namespace Gui

/-! ## Rectangles around what has changed -/

def expandRect (info : FramebufferInfo) (rect : Rect) (amount : UInt32) : Rect :=
  let x := if rect.x > amount then rect.x - amount else 0
  let y := if rect.y > amount then rect.y - amount else 0
  let x2 := rect.x + rect.width + amount
  let y2 := rect.y + rect.height + amount
  let maxX := if x2 < info.width then x2 else info.width
  let maxY := if y2 < info.height then y2 else info.height
  if maxX > x ∧ maxY > y then { x := x, y := y, width := maxX - x, height := maxY - y } else {}

def cursorRectAt (info : FramebufferInfo) (x y : Int32) : Rect :=
  let cx := if x < 0 then 0 else x.toUInt32
  let cy := if y < 0 then 0 else y.toUInt32
  intersectRect ⟨cx, cy, UInt32.ofNat kCursorBackupSize, UInt32.ofNat kCursorBackupSize⟩ (screenRect info)

def windowVisualRect (info : FramebufferInfo) (window : Window) : Rect :=
  if !window.visible || window.minimized then {} else expandRect info window.bounds 18

/-- A move of a dragged window, before `UpdateHoverState`. -/
def WindowManager.dragTo (wm : WindowManager) (index : Nat) (x y : Int32) : WindowManager :=
  let wm := { wm.setMouse x y with dragging := true }
  wm.moveWindow index (wm.mouseX - wm.dragOffsetX) (wm.mouseY - wm.dragOffsetY)

/-! ## The screen -/

/-- The desktop with what it is drawn on. -/
structure Screen (K : Type) where
  desktop         : Desktop K
  canvas          : Canvas
  backup          : CursorBackup := {}
  debugFullRedraw : Bool := true

namespace Screen

variable {K : Type} (s : Screen K)

def overlay : Overlay :=
  { canvas := s.canvas
    mouseX := s.desktop.wm.mouseX
    mouseY := s.desktop.wm.mouseY
    cursorKind := s.desktop.wm.cursorKind
    backup := s.backup }

def restoreCursorBackground : Screen K :=
  { s with
    canvas := s.overlay.restoreCursorBackground.canvas
    backup := s.overlay.restoreCursorBackground.backup }

def paintCursor : Screen K :=
  { s with
    canvas := s.overlay.paintCursor.canvas
    backup := s.overlay.paintCursor.backup }

def composeDesktop : Screen K :=
  let begun := if s.canvas.backBufferReady then s.canvas.beginDrawToBackBuffer (screenRect s.canvas.info)
    else s.canvas.beginDrawToFramebuffer
  let drawn := (begun.draw s.desktop.picture).beginDrawToFramebuffer
  let shown := if s.canvas.backBufferReady then drawn.copyBackBufferToFramebuffer (screenRect s.canvas.info) else drawn
  { { s with canvas := shown, backup := { s.backup with valid := false } }.paintCursor with
    desktop := s.desktop.composeDesktop }

def redrawDirtyRegion (dirty : Rect) : Screen K :=
  if !s.canvas.backBufferReady || s.debugFullRedraw then s.composeDesktop
  else
    let clipped := intersectRect dirty (screenRect s.canvas.info)
    if rectEmpty clipped then s.composeDesktop
    else
      let drawn := ((s.canvas.beginDrawToBackBuffer clipped).draw s.desktop.picture).beginDrawToFramebuffer
      { { s with canvas := drawn.copyBackBufferToFramebuffer clipped }.paintCursor with
        desktop := s.desktop.composeDesktop }

/-- A move of the pointer while a window is dragged. -/
def dragTo (index : Nat) (x y : Int32) : Screen K :=
  let info := s.desktop.wm.framebuffer
  let visual := fun (wm : WindowManager) => ((wm.windows[index]?).map (windowVisualRect info)).getD {}
  let oldWindowRect := visual s.desktop.wm
  let oldCursorRect := cursorRectAt info s.desktop.wm.mouseX s.desktop.wm.mouseY
  let s := s.restoreCursorBackground
  let wm := s.desktop.wm.dragTo index x y
  let newWindowRect := visual wm
  let newCursorRect := cursorRectAt info wm.mouseX wm.mouseY
  { s with desktop := { s.desktop with wm := wm.updateHoverState } }.redrawDirtyRegion
    (unionRect (unionRect oldWindowRect newWindowRect) (unionRect oldCursorRect newCursorRect))

/-- `DispatchEvent` on a move of the pointer. -/
def mouseMove (event : GuiEvent) : Screen K :=
  match s.desktop.dragged with
  | some index => s.dragTo index event.x event.y
  | none       =>
    let s := s.restoreCursorBackground
    { s with desktop := s.desktop.mouseMove event }.paintCursor

/-- The desktop of the screen is the one of `Desktop.dispatchEvent`. -/
theorem composeDesktop_desktop : s.composeDesktop.desktop = s.desktop.composeDesktop := rfl

theorem redrawDirtyRegion_desktop (dirty : Rect) : (s.redrawDirtyRegion dirty).desktop = s.desktop.composeDesktop := by
  unfold redrawDirtyRegion
  split
  next => rfl
  next =>
    dsimp only
    split <;> rfl

theorem mouseMove_desktop (event : GuiEvent) : (s.mouseMove event).desktop = s.desktop.mouseMove event := by
  unfold mouseMove Desktop.mouseMove
  cases hdragged : s.desktop.dragged with
  | some index =>
      dsimp only
      unfold dragTo
      dsimp only
      rw [redrawDirtyRegion_desktop]
      rfl
  | none =>
      show s.desktop.mouseMove event = _
      unfold Desktop.mouseMove
      rw [hdragged]

end Screen

/-! ## The part that is drawn again -/

section Rectangles

variable {info : FramebufferInfo} {a b rect : Rect} {x y : UInt32}

/-- The rectangle ends on the screen, of which there are at most 2048 by 2048 pixels. -/
structure WithinScreen (info : FramebufferInfo) (rect : Rect) : Prop where
  width  : info.width.toNat ≤ 2048
  height : info.height.toNat ≤ 2048
  right  : rect.x.toNat + rect.width.toNat ≤ info.width.toNat
  bottom : rect.y.toNat + rect.height.toNat ≤ info.height.toNat

theorem WithinScreen.empty (hwidth : info.width.toNat ≤ 2048) (hheight : info.height.toNat ≤ 2048) :
    WithinScreen info {} := ⟨hwidth, hheight, Nat.zero_le _, Nat.zero_le _⟩

theorem rectEmpty_iff : rectEmpty rect = true ↔ rect.width.toNat = 0 ∨ rect.height.toNat = 0 := by
  unfold rectEmpty
  rw [Bool.or_eq_true, beq_iff_eq, beq_iff_eq, ← UInt32.toNat_inj, ← UInt32.toNat_inj]
  rfl

theorem not_inDirty_empty (h : rectEmpty rect = true) : ¬ InDirty info rect x y := by
  rw [rectEmpty_iff] at h
  unfold InDirty
  omega

theorem unionRect_edges (ha : WithinScreen info a) (hb : WithinScreen info b) (hsome : rectEmpty a = false)
    (hsome' : rectEmpty b = false) :
    (unionRect a b).x.toNat = min a.x.toNat b.x.toNat ∧ (unionRect a b).y.toNat = min a.y.toNat b.y.toNat ∧
      (unionRect a b).x.toNat + (unionRect a b).width.toNat =
        max (a.x.toNat + a.width.toNat) (b.x.toNat + b.width.toNat) ∧
      (unionRect a b).y.toNat + (unionRect a b).height.toNat =
        max (a.y.toNat + a.height.toNat) (b.y.toNat + b.height.toNat) := by
  obtain ⟨hwidth, hheight, harx, hary⟩ := ha
  obtain ⟨-, -, hbrx, hbry⟩ := hb
  have hax := toNat_add (a := a.x) (b := a.width) (by omega)
  have hay := toNat_add (a := a.y) (b := a.height) (by omega)
  have hbx := toNat_add (a := b.x) (b := b.width) (by omega)
  have hby := toNat_add (a := b.y) (b := b.height) (by omega)
  have hx1 := toNat_min a.x b.x
  have hy1 := toNat_min a.y b.y
  have hx2 := toNat_max (a.x + a.width) (b.x + b.width)
  have hy2 := toNat_max (a.y + a.height) (b.y + b.height)
  unfold unionRect
  rw [hsome, hsome']
  simp only [Bool.false_eq_true, if_false]
  generalize (if a.x < b.x then a.x else b.x) = x1 at hx1 ⊢
  generalize (if a.y < b.y then a.y else b.y) = y1 at hy1 ⊢
  generalize (if a.x + a.width > b.x + b.width then a.x + a.width else b.x + b.width) = x2 at hx2 ⊢
  generalize (if a.y + a.height > b.y + b.height then a.y + a.height else b.y + b.height) = y2 at hy2 ⊢
  have hw := UInt32.toNat_sub_of_le x2 x1 (UInt32.le_iff_toNat_le.mpr (by omega))
  have hh := UInt32.toNat_sub_of_le y2 y1 (UInt32.le_iff_toNat_le.mpr (by omega))
  omega

theorem WithinScreen.union (ha : WithinScreen info a) (hb : WithinScreen info b) : WithinScreen info (unionRect a b) := by
  cases hsome : rectEmpty a with
  | true =>
      unfold unionRect
      rwa [if_pos hsome]
  | false =>
      cases hsome' : rectEmpty b with
      | true =>
          unfold unionRect
          rwa [hsome, if_neg Bool.false_ne_true, if_pos hsome']
      | false =>
          obtain ⟨-, -, hright, hbottom⟩ := unionRect_edges ha hb hsome hsome'
          obtain ⟨hwidth, hheight, harx, hary⟩ := ha
          obtain ⟨-, -, hbrx, hbry⟩ := hb
          exact ⟨hwidth, hheight, by omega, by omega⟩

/-- The union has the pixels of both. -/
theorem inDirty_union (ha : WithinScreen info a) (hb : WithinScreen info b) (h : InDirty info a x y ∨ InDirty info b x y) :
    InDirty info (unionRect a b) x y := by
  cases hsome : rectEmpty a with
  | true =>
      unfold unionRect
      rw [if_pos hsome]
      exact h.resolve_left (not_inDirty_empty hsome)
  | false =>
      cases hsome' : rectEmpty b with
      | true =>
          unfold unionRect
          rw [hsome, if_neg Bool.false_ne_true, if_pos hsome']
          exact h.resolve_right (not_inDirty_empty hsome')
      | false =>
          obtain ⟨hx, hy, hright, hbottom⟩ := unionRect_edges ha hb hsome hsome'
          unfold InDirty at h ⊢
          omega

theorem cursorRectAt_within (hwidth : info.width.toNat ≤ 2048) (hheight : info.height.toNat ≤ 2048) (x y : Int32) :
    WithinScreen info (cursorRectAt info x y) := by
  have hcast : ∀ v : Int32, (if v < 0 then 0 else v.toUInt32).toNat < 2 ^ 31 := by
    intro v
    split
    next => decide
    next hpos =>
      have hzero : (0 : Int32).toInt = 0 := rfl
      have hv : 0 ≤ v.toInt := Int32.le_iff_toInt_le.mp (Int32.not_lt.mp hpos)
      have hnat := toUInt32_toNat hv
      have hlt := v.toInt_lt
      omega
  have hsize : (UInt32.ofNat kCursorBackupSize).toNat = 20 := rfl
  have hx := hcast x
  have hy := hcast y
  unfold cursorRectAt
  dsimp only
  generalize hrect : (⟨if x < 0 then 0 else x.toUInt32, if y < 0 then 0 else y.toUInt32, UInt32.ofNat kCursorBackupSize,
    UInt32.ofNat kCursorBackupSize⟩ : Rect) = rect
  have hrectX : rect.x.toNat + rect.width.toNat < 2 ^ 32 := by
    subst hrect
    dsimp only
    omega
  have hrectY : rect.y.toNat + rect.height.toNat < 2 ^ 32 := by
    subst hrect
    dsimp only
    omega
  obtain ⟨hright, hbottom, -⟩ := intersectRect_screen info hrectX hrectY 0 0
  exact ⟨hwidth, hheight, hright, hbottom⟩

/-- The window's rectangle has the pixels of its margin. -/
theorem windowVisualRect_spec {window : Window} (hwidth : info.width.toNat ≤ 2048) (hheight : info.height.toNat ≤ 2048)
    (hin : InBuffer window) :
    WithinScreen info (windowVisualRect info window) ∧
      (window.visible = true → window.minimized = false → ∀ x y : UInt32, x.toNat < info.width.toNat →
        y.toNat < info.height.toNat →
        (((visualArea window).left ≤ x.toNat ∧ x.toNat < (visualArea window).right) ∧
          (visualArea window).top ≤ y.toNat ∧ y.toNat < (visualArea window).bottom) →
        InDirty info (windowVisualRect info window) x y) := by
  obtain ⟨hright, hbottom⟩ := hin
  unfold windowVisualRect
  split
  next hhidden =>
    refine ⟨.empty hwidth hheight, fun hvisible hminimized => ?_⟩
    rw [hvisible, hminimized] at hhidden
    cases hhidden
  next =>
    have h18 : (18 : UInt32).toNat = 18 := rfl
    have hzero : (0 : UInt32).toNat = 0 := rfl
    have hedgeX : (window.bounds.x + window.bounds.width + 18).toNat =
        window.bounds.x.toNat + window.bounds.width.toNat + 18 := by
      rw [UInt32.toNat_add, UInt32.toNat_add, h18]
      omega
    have hedgeY : (window.bounds.y + window.bounds.height + 18).toNat =
        window.bounds.y.toNat + window.bounds.height.toNat + 18 := by
      rw [UInt32.toNat_add, UInt32.toNat_add, h18]
      omega
    have hback : ∀ v : UInt32, (if v > 18 then v - 18 else 0).toNat = v.toNat - 18 := by
      intro v
      split
      next hmore =>
        rw [gt_iff_lt, UInt32.lt_iff_toNat_lt] at hmore
        rw [UInt32.toNat_sub_of_le _ _ (UInt32.le_iff_toNat_le.mpr (by omega)), h18]
      next hless =>
        rw [gt_iff_lt, UInt32.lt_iff_toNat_lt] at hless
        omega
    have hx1 := hback window.bounds.x
    have hy1 := hback window.bounds.y
    have hx2 := toNat_min (window.bounds.x + window.bounds.width + 18) info.width
    have hy2 := toNat_min (window.bounds.y + window.bounds.height + 18) info.height
    unfold expandRect visualArea InDirty
    dsimp only
    generalize (if window.bounds.x > 18 then window.bounds.x - 18 else 0) = x1 at hx1 ⊢
    generalize (if window.bounds.y > 18 then window.bounds.y - 18 else 0) = y1 at hy1 ⊢
    generalize (if window.bounds.x + window.bounds.width + 18 < info.width
      then window.bounds.x + window.bounds.width + 18 else info.width) = x2 at hx2 ⊢
    generalize (if window.bounds.y + window.bounds.height + 18 < info.height
      then window.bounds.y + window.bounds.height + 18 else info.height) = y2 at hy2 ⊢
    split
    next hsome =>
      simp only [gt_iff_lt, UInt32.lt_iff_toNat_lt] at hsome
      have hw := UInt32.toNat_sub_of_le x2 x1 (UInt32.le_iff_toNat_le.mpr (by omega))
      have hh := UInt32.toNat_sub_of_le y2 y1 (UInt32.le_iff_toNat_le.mpr (by omega))
      exact ⟨⟨hwidth, hheight, by dsimp only; omega, by dsimp only; omega⟩,
        fun _ _ x y hx hy harea => by dsimp only; omega⟩
    next hnone =>
      simp only [gt_iff_lt, UInt32.lt_iff_toNat_lt] at hnone
      exact ⟨.empty hwidth hheight, fun _ _ x y hx hy harea => by omega⟩

end Rectangles

/-! ## What a redraw shows -/

/-- The pixels of the screen have the colours of the calls. -/
def Pictured (info : FramebufferInfo) (dots : List Dot) (pixels : Pixels) : Prop :=
  ∀ x y color, x.toNat < info.width.toNat → y.toNat < info.height.toNat → colorAt dots x y = some color →
    pixels (frontAddress info x y) = ({ info } : Canvas).convertColor color

/-- Two memories agree apart from the pixels of the screen. -/
def SameAround (info : FramebufferInfo) (pixels pixels' : Pixels) : Prop :=
  ∀ i, (∀ x y : UInt32, x.toNat < info.width.toNat → y.toNat < info.height.toNat → i ≠ frontAddress info x y) →
    pixels i = pixels' i

/-- A canvas on which one draws straight to the screen. -/
def Direct (c : Canvas) : Prop := c.toBackBuffer = false ∧ c.clipEnabled = false

section Canvases

variable {c : Canvas} {info : FramebufferInfo} {dots : List Dot} {dirty : Rect}

theorem copy_rest (c : Canvas) (dirty : Rect) :
    c.copyBackBufferToFramebuffer dirty =
      { c with framebuffer := (c.copyBackBufferToFramebuffer dirty).framebuffer } := by
  unfold Canvas.copyBackBufferToFramebuffer
  dsimp only
  split
  next => rfl
  next => rw [Canvas.copyPixels_eq]

/-- Drawing to the back buffer and copying a rectangle of it. -/
def repaint (c : Canvas) (dirty : Rect) (dots : List Dot) : Canvas :=
  ((c.beginDrawToBackBuffer dirty).draw dots).beginDrawToFramebuffer.copyBackBufferToFramebuffer dirty

/-- **A repaint** brings the rectangle to the picture and leaves the rest as it was. -/
theorem repaint_spec (hinfo : c.info = info) (hwithin : WithinScreen info dirty) (hdistinct : DistinctPixels info)
    (dots : List Dot) :
    (repaint c dirty dots).info = info ∧ Direct (repaint c dirty dots) ∧
      (∀ x y color, InDirty info dirty x y → colorAt dots x y = some color →
        (repaint c dirty dots).framebuffer (frontAddress info x y) = ({ info } : Canvas).convertColor color) ∧
      ∀ i, (∀ x y, InDirty info dirty x y → i ≠ frontAddress info x y) →
        (repaint c dirty dots).framebuffer i = c.framebuffer i := by
  subst hinfo
  obtain ⟨hwidth, hheight, hright, hbottom⟩ := hwithin
  have hdraw := Canvas.draw_backBuffer (c := c.beginDrawToBackBuffer dirty) rfl dots
  have hpixel := fun x y (hin : InDirty c.info dirty x y) =>
    draw_pixel hwidth hheight (by omega) (by omega) hin dots
  unfold repaint
  generalize hdrawn : (c.beginDrawToBackBuffer dirty).draw dots = drawn at hdraw hpixel ⊢
  have hrest : drawn.beginDrawToFramebuffer.info = c.info ∧
      drawn.beginDrawToFramebuffer.framebuffer = c.framebuffer := by
    rw [hdraw]
    exact ⟨rfl, rfl⟩
  have hcopied : Copied drawn.beginDrawToFramebuffer dirty := by
    apply copied
    · rw [hrest.1]
      exact hwidth
    · rw [hrest.1]
      exact hheight
    · omega
    · omega
  have hcopy := copy_rest drawn.beginDrawToFramebuffer dirty
  refine ⟨?_, ?_, fun x y color hin hcolor => ?_, fun i hi => ?_⟩
  · rw [hcopy]
    exact hrest.1
  · rw [hcopy]
    exact ⟨rfl, rfl⟩
  · have hshown := hcopied.pixel (by rw [hrest.1]; exact hdistinct) x y (by rw [hrest.1]; exact hin)
    rw [hrest.1] at hshown
    rw [hshown]
    refine (hpixel x y hin).trans ?_
    rw [hcolor]
    rfl
  · rw [hcopied.other i (by rw [hrest.1]; exact hi), hrest.2]

theorem inDirty_screen {x y : UInt32} :
    InDirty info (screenRect info) x y ↔ x.toNat < info.width.toNat ∧ y.toNat < info.height.toNat := by
  have hzero : (0 : UInt32).toNat = 0 := rfl
  unfold InDirty screenRect
  dsimp only
  omega

theorem WithinScreen.screen (hwidth : info.width.toNat ≤ 2048) (hheight : info.height.toNat ≤ 2048) :
    WithinScreen info (screenRect info) := by
  have hzero : (0 : UInt32).toNat = 0 := rfl
  refine ⟨hwidth, hheight, ?_, ?_⟩ <;> unfold screenRect <;> dsimp only <;> omega

theorem backBufferReady_of (hwidth : c.info.width.toNat ≤ 2048) (hheight : c.info.height.toNat ≤ 2048) :
    c.backBufferReady = true := by
  unfold Canvas.backBufferReady
  rw [Bool.and_eq_true, decide_eq_true_eq, decide_eq_true_eq, UInt32.le_iff_toNat_le, UInt32.le_iff_toNat_le]
  exact ⟨hwidth, hheight⟩

/-- Where a direct canvas stores. -/
theorem stores_direct (hinfo : c.info = info) (h : Direct c) (dots : List Dot) :
    c.stores dots = ({ info } : Canvas).stores dots := by
  subst hinfo
  have htarget : ∀ x y, c.target x y = ({ info := c.info } : Canvas).target x y := by
    intro x y
    unfold Canvas.target Canvas.activeStride
    rw [h.1, h.2]
    rfl
  unfold Canvas.stores
  simp only [htarget]
  rfl

/-- A direct canvas stores to pixels of the screen. -/
theorem stores_screen {w : UInt32 × UInt32} (hw : w ∈ ({ info } : Canvas).stores dots) :
    ∃ x y : UInt32, (x.toNat < info.width.toNat ∧ y.toNat < info.height.toNat) ∧ w.1 = frontAddress info x y := by
  obtain ⟨dot, -, hdot⟩ := List.mem_filterMap.mp hw
  obtain ⟨i, htarget, rfl⟩ := Option.map_eq_some_iff.mp hdot
  unfold Canvas.target at htarget
  split at htarget
  next => cases htarget
  next hscreen =>
    split at htarget
    next => cases htarget
    next =>
      cases htarget
      rw [ge_iff_le, ge_iff_le, UInt32.le_iff_toNat_le, UInt32.le_iff_toNat_le] at hscreen
      dsimp only at hscreen
      exact ⟨dot.x, dot.y, by omega, rfl⟩

end Canvases

namespace Screen

variable {K : Type} {s : Screen K} {info : FramebufferInfo} {base orig : Pixels}

/-- The cursor, as stores to the framebuffer. -/
def cursorStores (info : FramebufferInfo) (wm : WindowManager) : List (UInt32 × UInt32) :=
  ({ info } : Canvas).stores (drawCursor info wm.mouseX wm.mouseY wm.cursorKind)

/-- The screen shows its desktop, with the cursor on it. -/
structure Shows (info : FramebufferInfo) (base : Pixels) (s : Screen K) : Prop where
  canvas  : s.canvas.info = info
  overlay : ∃ orig, Overlay.Saved orig s.overlay ∧ Pictured info s.desktop.picture orig ∧ SameAround info orig base ∧
    s.canvas.framebuffer = Lib.storeAll orig (cursorStores info s.desktop.wm)

/-- The pointer is on the screen. -/
structure Pointed (wm : WindowManager) : Prop where
  x : 0 ≤ wm.mouseX.toInt ∧ wm.mouseX.toInt < 2 ^ 30
  y : 0 ≤ wm.mouseY.toInt ∧ wm.mouseY.toInt < 2 ^ 30

/-- Painting the cursor over the picture. -/
theorem shows_paintCursor (hinfo : s.canvas.info = info) (hdirect : Direct s.canvas) (hvalid : s.backup.valid = false)
    (hpointed : Pointed s.desktop.wm) (hpicture : Pictured info s.desktop.picture s.canvas.framebuffer)
    (hbase : SameAround info s.canvas.framebuffer base) : Shows info base s.paintCursor := by
  have hclean : Overlay.Clean s.canvas.framebuffer s.overlay := ⟨hvalid, hdirect, rfl⟩
  refine ⟨(Overlay.paint_info (s := s.overlay) hdirect.1).trans hinfo, s.canvas.framebuffer,
    hclean.paint hpointed.x.1 hpointed.x.2 hpointed.y.1 hpointed.y.2, hpicture, hbase, ?_⟩
  have hdraw := Canvas.draw_framebuffer (c := s.canvas) hdirect.1
    (drawCursor s.canvas.info s.desktop.wm.mouseX s.desktop.wm.mouseY s.desktop.wm.cursorKind)
  show (s.canvas.draw (drawCursor s.canvas.info s.desktop.wm.mouseX s.desktop.wm.mouseY s.desktop.wm.cursorKind)).framebuffer
    = _
  rw [hdraw]
  dsimp only
  rw [stores_direct hinfo hdirect, hinfo]
  rfl

/-- No application is on its way into a window. -/
def Quiet (apps : Apps) : Prop := ∀ i, (apps.runtimes i).valid = true → (apps.runtimes i).transitionTicks = 0

instance (apps : Apps) : Decidable (Quiet apps) := inferInstanceAs (Decidable (∀ _, _))

/-- Then nothing of the desktop changes by drawing it. -/
theorem composeDesktop_quiet {d : Desktop K} (h : Quiet d.apps) : d.composeDesktop = d := by
  have hsame : (fun i => Desktop.advanceTransition (d.apps.runtimes i)) = d.apps.runtimes := by
    funext i
    unfold Desktop.advanceTransition
    refine if_neg fun hpending => ?_
    rw [h i hpending.1] at hpending
    exact absurd hpending.2 (by decide)
  unfold Desktop.composeDesktop Desktop.advanceDesktopTransitions
  rw [hsame]

/-- The screens on which a redraw shows what it should: the back buffer has room, and no two pixels share an address. -/
structure Sound (info : FramebufferInfo) : Prop where
  valid    : framebufferValid info = true
  width    : info.width.toNat ≤ 2048
  height   : info.height.toNat ≤ 2048
  distinct : DistinctPixels info

theorem composeDesktop_eq (hinfo : s.canvas.info = info) (hready : s.canvas.backBufferReady = true)
    (hquiet : Quiet s.desktop.apps) :
    s.composeDesktop = ({ s with
      canvas := repaint s.canvas (screenRect info) s.desktop.picture
      backup := { s.backup with valid := false } } : Screen K).paintCursor := by
  unfold composeDesktop repaint
  generalize s.desktop.picture = dots
  rw [composeDesktop_quiet hquiet, hinfo]
  simp only [hready, if_true]
  rfl

/-- **A full redraw**, whatever the screen has shown before. -/
theorem composeDesktop_shows (hsound : Sound info) (hinfo : s.canvas.info = info)
    (hquiet : Quiet s.desktop.apps) (hpointed : Pointed s.desktop.wm)
    (hbase : SameAround info s.canvas.framebuffer base) : Shows info base s.composeDesktop := by
  have hready : s.canvas.backBufferReady = true :=
    backBufferReady_of (by rw [hinfo]; exact hsound.width) (by rw [hinfo]; exact hsound.height)
  obtain ⟨hrinfo, hdirect, hpixel, hother⟩ := repaint_spec hinfo
    (WithinScreen.screen hsound.width hsound.height) hsound.distinct s.desktop.picture
  have hpicture : Pictured info s.desktop.picture (repaint s.canvas (screenRect info) s.desktop.picture).framebuffer :=
    fun x y color hx hy hcolor => hpixel x y color (inDirty_screen.mpr ⟨hx, hy⟩) hcolor
  have haround : SameAround info (repaint s.canvas (screenRect info) s.desktop.picture).framebuffer base := by
    intro i hi
    refine (hother i fun x y hin => ?_).trans (hbase i hi)
    obtain ⟨hx, hy⟩ := inDirty_screen.mp hin
    exact hi x y hx hy
  rw [composeDesktop_eq hinfo hready hquiet]
  generalize repaint s.canvas (screenRect info) s.desktop.picture = drawn at hrinfo hdirect hpicture haround ⊢
  exact shows_paintCursor hrinfo hdirect rfl hpointed hpicture haround

/-- **A partial redraw**: what it leaves out must be as the new picture has it. -/
theorem redrawDirtyRegion_shows (hsound : Sound info) (hinfo : s.canvas.info = info)
    (hquiet : Quiet s.desktop.apps) (hpointed : Pointed s.desktop.wm)
    (hclean : Overlay.Clean orig s.overlay) (hbase : SameAround info orig base) {dirty : Rect}
    (hwithin : WithinScreen info dirty) {old : List Dot} (hold : Pictured info old orig)
    (hsame : ∀ x y, x.toNat < info.width.toNat → y.toNat < info.height.toNat → ¬ InDirty info dirty x y →
      colorAt s.desktop.picture x y = colorAt old x y) :
    Shows info base (s.redrawDirtyRegion dirty) := by
  have hpixels : s.canvas.framebuffer = orig := hclean.pixels
  have hfull : Shows info base s.composeDesktop :=
    composeDesktop_shows hsound hinfo hquiet hpointed (by rw [hpixels]; exact hbase)
  unfold redrawDirtyRegion
  split
  next => exact hfull
  next =>
    dsimp only
    split
    next => exact hfull
    next =>
      rw [hinfo, composeDesktop_quiet hquiet]
      have hdirtyX : dirty.x.toNat + dirty.width.toNat < 2 ^ 32 := by
        have hright := hwithin.right
        have hwidth := hwithin.width
        omega
      have hdirtyY : dirty.y.toNat + dirty.height.toNat < 2 ^ 32 := by
        have hbottom := hwithin.bottom
        have hheight := hwithin.height
        omega
      have hclip := intersectRect_screen info hdirtyX hdirtyY
      -- the rectangle is cut to the screen once more, which does not change its pixels
      have hin : ∀ x y, InDirty info (intersectRect dirty (screenRect info)) x y ↔ InDirty info dirty x y := by
        intro x y
        obtain ⟨-, -, hiff⟩ := hclip x y
        rw [← hiff]
        constructor
        · rintro ⟨hx, hy, -⟩
          exact ⟨hx, hy⟩
        · intro hboth
          exact ⟨hboth.1, hboth.2, (hiff.mp hboth).2.2⟩
      have hclipWithin : WithinScreen info (intersectRect dirty (screenRect info)) :=
        ⟨hsound.width, hsound.height, (hclip 0 0).1, (hclip 0 0).2.1⟩
      obtain ⟨hrinfo, hdirect, hpixel, hother⟩ :=
        repaint_spec hinfo hclipWithin hsound.distinct s.desktop.picture
      have hpicture : Pictured info s.desktop.picture
          (repaint s.canvas (intersectRect dirty (screenRect info)) s.desktop.picture).framebuffer := by
        intro x y color hx hy hcolor
        by_cases hdirty : InDirty info dirty x y
        · exact hpixel x y color ((hin x y).mpr hdirty) hcolor
        · -- a pixel that is not redrawn
          have hkept := hother (frontAddress info x y) fun x' y' hin' heq => by
            obtain ⟨-, -, hx', hy'⟩ := (hin x' y').mp hin'
            obtain ⟨rfl, rfl⟩ := hsound.distinct x y x' y' hx hy hx' hy' heq
            exact hdirty ((hin x y).mp hin')
          rw [hsame x y hx hy hdirty] at hcolor
          rw [hkept, hpixels]
          exact hold x y color hx hy hcolor
      have haround : SameAround info
          (repaint s.canvas (intersectRect dirty (screenRect info)) s.desktop.picture).framebuffer base := by
        intro i hi
        rw [← hbase i hi, ← hpixels]
        exact hother i fun x y hin' => hi x y hin'.2.2.1 hin'.2.2.2
      change Shows info base ({ s with
        canvas := repaint s.canvas (intersectRect dirty (screenRect info)) s.desktop.picture } : Screen K).paintCursor
      generalize repaint s.canvas (intersectRect dirty (screenRect info)) s.desktop.picture = drawn
        at hrinfo hdirect hpicture haround ⊢
      exact shows_paintCursor hrinfo hdirect hclean.valid hpointed hpicture haround

end Screen

end Gui
end UefiBoot
