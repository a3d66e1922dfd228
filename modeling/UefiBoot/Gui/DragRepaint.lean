import UefiBoot.Gui.Maximize
import UefiBoot.Gui.Repaint
import UefiBoot.Gui.Works

/-!
# `Gui.DragRepaint` — any number of moves of a dragged window

A move changes the bounds of one window, the pointer and what it hovers over (`Held.dragTo`). A window without focus does
not look at the pointer, and the task bar not at the bounds, so two pictures differ in the old and the new margin of that
window only (`picture_moved`), and one move after the other keeps the screen up to date (`Dragging.mouseMove`).
`drag_repaint` is the result for whole drags.

The contents have to fit (`ContentsFit`): `DrawApplicationContents` does not clip to the window, so what it draws further
out stays behind when the window goes.
-/

namespace UefiBoot
namespace Gui

/-! ## What a move changes -/

namespace WindowManager

theorem rememberAppPlacement_eq (wm : WindowManager) (app : AppKind) (bounds : Rect) :
    wm.rememberAppPlacement app bounds = { wm with placements := (wm.rememberAppPlacement app bounds).placements } := by
  unfold rememberAppPlacement
  split
  next => rfl
  next => split <;> rfl

theorem updateHoverState_eq (wm : WindowManager) :
    ∃ control hovered kind, wm.updateHoverState =
      { wm with hoveredControl := control, hoveredWindowIndex := hovered, cursorKind := kind } := by
  unfold updateHoverState
  dsimp only
  split_ifs
  · exact ⟨_, _, _, rfl⟩
  · split
    next => exact ⟨_, _, _, rfl⟩
    next => split_ifs <;> exact ⟨_, _, _, rfl⟩

/-- From `wm` to `wm'` the window `index` has moved to the bounds, and nothing else that the picture shows has changed
    but what the pointer hovers over. -/
structure Moved (index : Nat) (window : Window) (bounds : Rect) (wm wm' : WindowManager) : Prop where
  before            : wm.windows[index]? = some window
  windows           : wm'.windows = wm.windows.set index { window with bounds := bounds }
  framebuffer       : wm'.framebuffer = wm.framebuffer
  activeDesktop     : wm'.activeDesktop = wm.activeDesktop
  notificationText  : wm'.notificationText = wm.notificationText
  notificationColor : wm'.notificationColor = wm.notificationColor
  leftButtonDown    : wm'.leftButtonDown = wm.leftButtonDown
  dragWindowIndex   : wm'.dragWindowIndex = wm.dragWindowIndex

variable {wm wm' : WindowManager} {index : Nat} {window : Window} {info : FramebufferInfo}

theorem Moved.updateHoverState {bounds : Rect} (h : Moved index window bounds wm wm') :
    Moved index window bounds wm wm'.updateHoverState := by
  obtain ⟨control, hovered, kind, heq⟩ := updateHoverState_eq wm'
  rw [heq]
  exact ⟨h.before, h.windows, h.framebuffer, h.activeDesktop, h.notificationText, h.notificationColor, h.leftButtonDown,
    h.dragWindowIndex⟩

/-- **A move of the window** keeps its size and keeps it inside. -/
theorem moveWindow_moved (wm : WindowManager) (hvalid : framebufferValid info = true) (hinfo : wm.framebuffer = info)
    (hwindow : wm.windows[index]? = some window) (hinside : Inside info window) (x y : Int32) :
    ∃ bounds, Moved index window bounds wm (wm.moveWindow index x y) ∧ Inside info { window with bounds := bounds } ∧
      bounds.width = window.bounds.width ∧ bounds.height = window.bounds.height := by
  unfold moveWindow
  rw [hwindow]
  dsimp only
  split
  next =>
    refine ⟨window.bounds, ⟨hwindow, ?_, rfl, rfl, rfl, rfl, rfl, rfl⟩, hinside, rfl, rfl⟩
    obtain ⟨hlt, hget⟩ := List.getElem?_eq_some_iff.mp hwindow
    show wm.windows = wm.windows.set index window
    rw [← hget, List.set_getElem_self]
  next =>
    obtain ⟨hx, hy, hwidth, hheight⟩ := usableDesktopRect_toNat hvalid
    have hright := hinside.right
    have htop := hinside.top
    have hbottom := hinside.bottom
    unfold place
    rw [rememberAppPlacement_eq, hinfo]
    generalize hbounds : clampWindowToUsableArea info { window.bounds with
      x := if x < 0 then 0 else x.toUInt32
      y := if y < 0 then 0 else y.toUInt32 } window.app = bounds
    refine ⟨bounds, ⟨hwindow, ?_, rfl, rfl, rfl, rfl, rfl, rfl⟩, Inside.of_clamp hvalid _ hbounds.symm, ?_, ?_⟩ <;>
      subst hbounds
    · exact setWindow_windows hwindow _
    · exact clampSize_eq hinside.minWidth (by dsimp only; omega)
    · exact clampSize_eq hinside.minHeight (by dsimp only; omega)

theorem moveWindow_mouse (wm : WindowManager) (index : Nat) (x y : Int32) :
    (wm.moveWindow index x y).mouseX = wm.mouseX ∧ (wm.moveWindow index x y).mouseY = wm.mouseY := by
  unfold moveWindow
  split
  next => exact ⟨rfl, rfl⟩
  next =>
    split
    next => exact ⟨rfl, rfl⟩
    next =>
      unfold place
      rw [rememberAppPlacement_eq]
      exact ⟨rfl, rfl⟩

/-- The pointer after a move is on the screen. -/
theorem dragTo_pointed (wm : WindowManager)
    (hwidth : 1 ≤ wm.framebuffer.width.toNat ∧ wm.framebuffer.width.toNat ≤ 2048)
    (hheight : 1 ≤ wm.framebuffer.height.toNat ∧ wm.framebuffer.height.toNat ≤ 2048) (index : Nat) (x y : Int32) :
    Screen.Pointed (wm.dragTo index x y).updateHoverState := by
  obtain ⟨control, hovered, kind, heq⟩ := updateHoverState_eq (wm.dragTo index x y)
  rw [heq]
  unfold dragTo
  constructor <;> dsimp only
  · rw [(moveWindow_mouse _ _ _ _).1]
    exact Overlay.clampToScreen_range x hwidth.1 (by omega)
  · rw [(moveWindow_mouse _ _ _ _).2]
    exact Overlay.clampToScreen_range y hheight.1 (by omega)

end WindowManager

/-! ## Two pictures -/

open WindowManager

theorem forall₂_set {α : Type*} {R : α → α → Prop} {l : List α} {i : Nat} {a b : α} (hi : l[i]? = some a) (hab : R a b)
    (hothers : ∀ j c, j ≠ i → l[j]? = some c → R c c) : List.Forall₂ R l (l.set i b) := by
  rw [List.forall₂_iff_get]
  refine ⟨List.length_set.symm, fun j hj hj' => ?_⟩
  rw [List.get_eq_getElem, List.get_eq_getElem, List.getElem_set]
  split
  next heq =>
    subst heq
    rw [List.getElem?_eq_getElem hj] at hi
    rwa [Option.some.inj hi]
  next hne => exact hothers j _ (Ne.symm hne) (List.getElem?_eq_getElem hj)

theorem colorAt_flatMap_congr {x y : UInt32} {f f' : Window → List Dot} {ws ws' : List Window}
    (h : List.Forall₂ (fun w w' => colorAt (f' w') x y = colorAt (f w) x y) ws ws') :
    colorAt (ws'.flatMap f') x y = colorAt (ws.flatMap f) x y := by
  induction h with
  | nil => rfl
  | cons hhead _ ih => rw [List.flatMap_cons, List.flatMap_cons, colorAt_append, colorAt_append, hhead, ih]

theorem taskbarButtons_congr {framebuffer : FramebufferInfo} {activeDesktop : UInt8} {ws ws' : List Window}
    (h : List.Forall₂ (fun w w' => w'.visible = w.visible ∧ w'.desktop = w.desktop ∧ w'.app = w.app) ws ws')
    (i : Nat) (x : UInt32) :
    taskbarButtons framebuffer activeDesktop ws' i x = taskbarButtons framebuffer activeDesktop ws i x := by
  induction h generalizing i x with
  | nil => rfl
  | cons hhead _ ih =>
      unfold taskbarButtons
      rw [hhead.1, hhead.2.1, hhead.2.2]
      simp only [ih]

namespace Desktop

variable {K : Type} {d d' : Desktop K} {index : Nat} {window : Window} {bounds : Rect} {info : FramebufferInfo}
  {x y : UInt32}

/-- Outside its margin a window draws nothing. -/
theorem composeWindow_outside (hroomy : d.Roomy window) (hwidth : info.width.toNat ≤ 2048)
    (hheight : info.height.toNat ≤ 2048) (hx : x.toNat < info.width.toNat) (hy : y.toNat < info.height.toNat)
    (hout : ¬ InDirty info (windowVisualRect info window) x y) (active : Bool) :
    colorAt (d.composeWindow window active) x y = none := by
  obtain ⟨-, hmargin⟩ := windowVisualRect_spec hwidth hheight hroomy.inBuffer
  by_cases hhidden : (!window.visible || window.minimized || window.desktop != d.wm.activeDesktop) = true
  · unfold composeWindow
    rw [if_pos hhidden]
    rfl
  · simp only [Bool.or_eq_true, Bool.not_eq_true', not_or, Bool.not_eq_false, Bool.not_eq_true] at hhidden
    exact (composeWindow_holds hroomy active).colorAt fun harea => hout (hmargin hhidden.1.1 hhidden.1.2 x y hx hy harea)

theorem drawApplicationContents_congr (hframebuffer : d'.wm.framebuffer = d.wm.framebuffer) (happs : d'.apps = d.apps)
    (w : Window) : d'.drawApplicationContents w = d.drawApplicationContents w := by
  unfold drawApplicationContents drawTerminalContents drawSystemMonitorContents
  rw [hframebuffer, happs]

/-- A window without focus does not look at the pointer. -/
theorem composeWindow_congr (h : Moved index window bounds d.wm d'.wm) (happs : d'.apps = d.apps) (w : Window) :
    d'.composeWindow w false = d.composeWindow w false := by
  unfold composeWindow drawWindowControl windowBorder
  rw [drawApplicationContents_congr h.framebuffer happs, h.framebuffer, h.activeDesktop]
  simp only [Bool.false_and]

theorem paintBars_congr (h : Moved index window bounds d.wm d'.wm) (happs : d'.apps = d.apps) :
    d'.paintBars = d.paintBars := by
  unfold paintBars drawLauncherButton
  rw [h.framebuffer, h.notificationText, h.notificationColor, happs]

/-- The task bar does not look at the bounds. -/
theorem paintTaskbar_congr (h : Moved index window bounds d.wm d'.wm) (happs : d'.apps = d.apps) :
    d'.paintTaskbar = d.paintTaskbar := by
  have hbuttons : drawTaskbar d'.wm = drawTaskbar d.wm := by
    unfold drawTaskbar
    rw [h.framebuffer, h.activeDesktop, h.windows]
    apply taskbarButtons_congr
    exact forall₂_set h.before ⟨rfl, rfl, rfl⟩ fun _ _ _ _ => ⟨rfl, rfl, rfl⟩
  unfold paintTaskbar
  rw [hbuttons]
  congr 1
  funext button
  have hbutton : ∀ w rect, d'.drawTaskbarButton w rect = d.drawTaskbarButton w rect := by
    intro w rect
    unfold drawTaskbarButton
    rw [h.framebuffer, happs]
  obtain ⟨hlt, -⟩ := List.getElem?_eq_some_iff.mp h.before
  rw [h.windows, List.getElem?_set]
  by_cases heq : index = button.1
  · rw [if_pos heq, if_pos hlt, ← heq, h.before]
    exact hbutton { window with bounds := bounds } button.2
  · rw [if_neg heq]
    cases d.wm.windows[button.1]? with
    | none => rfl
    | some w => exact hbutton w button.2

/-- **Two pictures** before and after a move agree outside the old and the new margin of the window. -/
theorem picture_moved (h : Moved index window bounds d.wm d'.wm) (happs : d'.apps = d.apps) (hroomy : d.Roomy window)
    (hroomy' : d'.Roomy { window with bounds := bounds })
    (hfocus : ∀ j w, j ≠ index → d.wm.windows[j]? = some w → w.focused = false) (hwidth : info.width.toNat ≤ 2048)
    (hheight : info.height.toNat ≤ 2048) (hx : x.toNat < info.width.toNat) (hy : y.toNat < info.height.toNat)
    (hold : ¬ InDirty info (windowVisualRect info window) x y)
    (hnew : ¬ InDirty info (windowVisualRect info { window with bounds := bounds }) x y) :
    colorAt d'.picture x y = colorAt d.picture x y := by
  have hwindows : colorAt (d'.wm.windows.flatMap fun w => d'.composeWindow w w.focused) x y =
      colorAt (d.wm.windows.flatMap fun w => d.composeWindow w w.focused) x y := by
    rw [h.windows]
    refine colorAt_flatMap_congr (forall₂_set h.before ?_ fun j w hne hw => ?_)
    · rw [composeWindow_outside hroomy' hwidth hheight hx hy hnew, composeWindow_outside hroomy hwidth hheight hx hy hold]
    · rw [hfocus j w hne hw, composeWindow_congr h happs]
  unfold picture
  rw [paintBars_congr h happs, paintTaskbar_congr h happs, h.framebuffer]
  simp only [colorAt_append, hwindows]

/-! ## A step -/

/-- The window `index` is dragged. It is inside the usable area, its contents fit, and no other window has the focus. -/
structure Held (info : FramebufferInfo) (index : Nat) (d : Desktop K) : Prop where
  framebuffer : d.wm.framebuffer = info
  dragged     : d.dragged = some index
  quiet       : Screen.Quiet d.apps
  window      : ∃ window, d.wm.windows[index]? = some window ∧ Inside info window ∧
    100 ≤ window.bounds.width.toNat ∧ d.ContentsFit window
  focus       : ∀ j w, j ≠ index → d.wm.windows[j]? = some w → w.focused = false

theorem inBuffer_of_inside (hsound : Screen.Sound info) (hinside : Inside info window) : InBuffer window := by
  obtain ⟨hx, hy, hwidth, hheight⟩ := usableDesktopRect_toNat hsound.valid
  have hscreenWidth := hsound.width
  have hscreenHeight := hsound.height
  have hright := hinside.right
  have hbottom := hinside.bottom
  exact ⟨by omega, by omega⟩

/-- **One move**: it moves the window, which stays what `Held` asks for. -/
theorem Held.dragTo (hsound : Screen.Sound info) (h : Held info index d) (x y : Int32) :
    ∃ window bounds, Moved index window bounds d.wm (d.wm.dragTo index x y) ∧ d.Roomy window ∧
      Roomy { d with wm := (d.wm.dragTo index x y).updateHoverState } { window with bounds := bounds } ∧
      Held info index { d with wm := (d.wm.dragTo index x y).updateHoverState } := by
  obtain ⟨hframebuffer, hdragged, hquiet, ⟨window, hwindow, hinside, hleast, hfit⟩, hfocus⟩ := h
  obtain ⟨bounds, hmove, hinside', hwidth, hheight⟩ := moveWindow_moved
    { d.wm.setMouse x y with dragging := true } hsound.valid hframebuffer hwindow hinside
    (({ d.wm.setMouse x y with dragging := true } : WindowManager).mouseX - d.wm.dragOffsetX)
    (({ d.wm.setMouse x y with dragging := true } : WindowManager).mouseY - d.wm.dragOffsetY)
  have hmoved : Moved index window bounds d.wm (d.wm.dragTo index x y) :=
    ⟨hmove.before, hmove.windows, hmove.framebuffer, hmove.activeDesktop, hmove.notificationText,
      hmove.notificationColor, hmove.leftButtonDown, hmove.dragWindowIndex⟩
  have hhover := hmoved.updateHoverState
  have hfit' : ContentsFit { d with wm := (d.wm.dragTo index x y).updateHoverState } { window with bounds := bounds } := by
    obtain ⟨hacross, hdown⟩ := hfit
    rw [← hwidth] at hacross
    rw [← hheight] at hdown
    exact ⟨hacross, hdown⟩
  have hleast' : 100 ≤ bounds.width.toNat := by rwa [hwidth]
  refine ⟨window, bounds, hmoved, ⟨inBuffer_of_inside hsound hinside, hleast, hfit⟩,
    ⟨inBuffer_of_inside hsound hinside', hleast', hfit'⟩, hhover.framebuffer.trans hframebuffer, ?_, hquiet,
    ⟨{ window with bounds := bounds }, ?_, hinside', hleast', hfit'⟩, fun j w hne hw => ?_⟩
  · unfold Desktop.dragged at hdragged ⊢
    dsimp only
    rw [hhover.leftButtonDown, hhover.dragWindowIndex]
    exact hdragged
  · obtain ⟨hlt, -⟩ := List.getElem?_eq_some_iff.mp hwindow
    show (d.wm.dragTo index x y).updateHoverState.windows[index]? = _
    rw [hhover.windows, List.getElem?_set_self hlt]
  · change (d.wm.dragTo index x y).updateHoverState.windows[j]? = _ at hw
    rw [hhover.windows, List.getElem?_set_ne (Ne.symm hne)] at hw
    exact hfocus j w hne hw

end Desktop

namespace Screen

variable {K : Type} {s s' : Screen K} {info : FramebufferInfo} {base : Pixels} {index : Nat}

theorem Sound.sizes (h : Sound info) :
    (1 ≤ info.width.toNat ∧ info.width.toNat ≤ 2048) ∧ 1 ≤ info.height.toNat ∧ info.height.toNat ≤ 2048 := by
  obtain ⟨hvalid, hscreenWidth, hscreenHeight, -⟩ := h
  unfold framebufferValid at hvalid
  simp only [Bool.and_eq_true, decide_eq_true_eq] at hvalid
  have hwidth : 320 ≤ info.width.toNat := UInt32.le_iff_toNat_le.mp hvalid.1.1.2
  have hheight : 200 ≤ info.height.toNat := UInt32.le_iff_toNat_le.mp hvalid.1.2
  omega

/-- A move begins by taking the cursor away. -/
theorem Shows.restore (h : Shows info base s) :
    s.restoreCursorBackground.canvas.info = info ∧
      ∃ orig, Overlay.Clean orig s.restoreCursorBackground.overlay ∧ Pictured info s.desktop.picture orig ∧
        SameAround info orig base := by
  obtain ⟨hcanvas, orig, hsaved, hpicture, haround, -⟩ := h
  obtain ⟨hvalid, hdirect, hpixels⟩ := hsaved.restore
  exact ⟨(Overlay.restore_info s.overlay).trans hcanvas, orig, ⟨hvalid, hdirect, hpixels⟩, hpicture, haround⟩

/-- **One move keeps the screen up to date.** -/
theorem Shows.dragTo (hsound : Sound info) (hheld : s.desktop.Held info index) (h : Shows info base s) (x y : Int32) :
    Shows info base (s.dragTo index x y) := by
  obtain ⟨hinfo, orig, hclean, hpicture, haround⟩ := h.restore
  obtain ⟨window, bounds, hmoved, hroomy, hroomy', hheld'⟩ := hheld.dragTo hsound x y
  have hwidth := hsound.width
  have hheight := hsound.height
  have hmargin := (windowVisualRect_spec hwidth hheight hroomy.inBuffer).1
  have hmargin' := (windowVisualRect_spec hwidth hheight hroomy'.inBuffer).1
  have hcursor := cursorRectAt_within hwidth hheight s.desktop.wm.mouseX s.desktop.wm.mouseY
  have hcursor' := cursorRectAt_within hwidth hheight (s.desktop.wm.dragTo index x y).mouseX
    (s.desktop.wm.dragTo index x y).mouseY
  have hwindow' : (s.desktop.wm.dragTo index x y).windows[index]? = some { window with bounds := bounds } := by
    obtain ⟨hlt, -⟩ := List.getElem?_eq_some_iff.mp hmoved.before
    rw [hmoved.windows, List.getElem?_set_self hlt]
  have hpointed := WindowManager.dragTo_pointed s.desktop.wm (by rw [hheld.framebuffer]; exact hsound.sizes.1)
    (by rw [hheld.framebuffer]; exact hsound.sizes.2) index x y
  unfold Screen.dragTo
  dsimp only
  rw [hheld.framebuffer, hmoved.before]
  change Shows info base (redrawDirtyRegion _ (unionRect (unionRect _ (((s.desktop.wm.dragTo index x y).windows[index]?.map
    (windowVisualRect info)).getD {})) _))
  rw [hwindow']
  refine redrawDirtyRegion_shows (s := { s.restoreCursorBackground with
      desktop := { s.desktop with wm := (s.desktop.wm.dragTo index x y).updateHoverState } }) hsound hinfo hheld'.quiet hpointed ⟨hclean.valid, hclean.direct, hclean.pixels⟩ haround
    ((hmargin.union hmargin').union (hcursor.union hcursor')) hpicture fun x' y' hx hy hout => ?_
  refine Desktop.picture_moved (d := s.desktop) hmoved.updateHoverState rfl hroomy hroomy' hheld.focus hwidth hheight hx hy
    (fun hin => hout ?_) fun hin => hout ?_
  · exact inDirty_union (hmargin.union hmargin') (hcursor.union hcursor') (.inl (inDirty_union hmargin hmargin' (.inl hin)))
  · exact inDirty_union (hmargin.union hmargin') (hcursor.union hcursor') (.inl (inDirty_union hmargin hmargin' (.inr hin)))

/-- The cursor, too, is drawn on the screen only. -/
theorem Shows.around (h : Shows info base s) : SameAround info s.canvas.framebuffer base := by
  obtain ⟨-, orig, -, -, haround, hpixels⟩ := h
  intro i hi
  rw [hpixels, Lib.storeAll_of_not_mem]
  · exact haround i hi
  · intro hmem
    obtain ⟨w, hw, rfl⟩ := List.mem_map.mp hmem
    obtain ⟨x, y, ⟨hx, hy⟩, heq⟩ := stores_screen hw
    exact hi x y hx hy heq

/-- What a screen shows of a desktop is settled, pixel by pixel. -/
theorem Shows.unique (h : Shows info base s) (h' : Shows info base s') (hdesktop : s'.desktop = s.desktop)
    (hframebuffer : s.desktop.wm.framebuffer = info) : s'.canvas.framebuffer = s.canvas.framebuffer := by
  obtain ⟨-, orig, -, hpicture, haround, hpixels⟩ := h
  obtain ⟨-, orig', -, hpicture', haround', hpixels'⟩ := h'
  rw [hdesktop] at hpicture' hpixels'
  have horig : orig' = orig := by
    funext i
    by_cases hpixel : ∃ x y : UInt32, x.toNat < info.width.toNat ∧ y.toNat < info.height.toNat ∧ i = frontAddress info x y
    · obtain ⟨x, y, hx, hy, rfl⟩ := hpixel
      obtain ⟨color, hcolor⟩ := s.desktop.picture_covers (by rw [hframebuffer]; exact hx) (by rw [hframebuffer]; exact hy)
      rw [hpicture' x y color hx hy hcolor, hpicture x y color hx hy hcolor]
    · have hout : ∀ x y : UInt32, x.toNat < info.width.toNat → y.toNat < info.height.toNat → i ≠ frontAddress info x y :=
        fun x y hx hy heq => hpixel ⟨x, y, hx, hy, heq⟩
      rw [haround' i hout, haround i hout]
  rw [hpixels', hpixels, horig]

/-! ## A run -/

/-- The screen, with full redraws or without. -/
def setFullRedraw (s : Screen K) (full : Bool) : Screen K := { s with debugFullRedraw := full }

/-- The screen after a drag that begins with the desktop drawn. -/
def dragged (s : Screen K) (moves : List GuiEvent) : Screen K := Lib.run mouseMove s.composeDesktop moves

/-- What a drag keeps. -/
structure Dragging (info : FramebufferInfo) (base : Pixels) (index : Nat) (s : Screen K) : Prop where
  shows   : Shows info base s
  held    : s.desktop.Held info index
  pointed : Pointed s.desktop.wm

theorem Dragging.mouseMove (hsound : Sound info) (h : Dragging info base index s) (event : GuiEvent) :
    Dragging info base index (s.mouseMove event) := by
  obtain ⟨hshows, hheld, -⟩ := h
  obtain ⟨window, bounds, -, -, -, hheld'⟩ := hheld.dragTo hsound event.x event.y
  have hpointed := WindowManager.dragTo_pointed s.desktop.wm (by rw [hheld.framebuffer]; exact hsound.sizes.1)
    (by rw [hheld.framebuffer]; exact hsound.sizes.2) index event.x event.y
  have hmoved : s.mouseMove event = s.dragTo index event.x event.y := by
    unfold Screen.mouseMove
    rw [hheld.dragged]
  have hdesktop : (s.dragTo index event.x event.y).desktop =
      { s.desktop with wm := (s.desktop.wm.dragTo index event.x event.y).updateHoverState } := by
    unfold Screen.dragTo
    dsimp only
    rw [redrawDirtyRegion_desktop]
    exact composeDesktop_quiet hheld'.quiet
  rw [hmoved]
  refine ⟨hshows.dragTo hsound hheld event.x event.y, ?_, ?_⟩
  · rw [hdesktop]
    exact hheld'
  · rw [hdesktop]
    exact hpointed

theorem run_desktop (s : Screen K) (moves : List GuiEvent) :
    (Lib.run mouseMove s moves).desktop = Lib.run Desktop.mouseMove s.desktop moves := by
  induction moves generalizing s with
  | nil => rfl
  | cons event moves ih => rw [Lib.run_cons, ih, mouseMove_desktop, Lib.run_cons]

/-- A drag keeps it, with full redraws or without. -/
theorem Dragging.of_held (hsound : Sound info) (hinfo : s.canvas.info = info) (hpointed : Pointed s.desktop.wm)
    (hheld : s.desktop.Held info index) (moves : List GuiEvent) (full : Bool) :
    Dragging info s.canvas.framebuffer index ((s.setFullRedraw full).dragged moves) ∧
      ((s.setFullRedraw full).dragged moves).desktop = Lib.run Desktop.mouseMove s.desktop moves := by
  have hdesktop : (s.setFullRedraw full).composeDesktop.desktop = s.desktop := by
    rw [composeDesktop_desktop]
    exact composeDesktop_quiet hheld.quiet
  have hshows : Shows info s.canvas.framebuffer (s.setFullRedraw full).composeDesktop :=
    composeDesktop_shows (s := s.setFullRedraw full) hsound hinfo hheld.quiet hpointed fun _ _ => rfl
  unfold dragged
  generalize (s.setFullRedraw full).composeDesktop = drawn at hdesktop hshows ⊢
  have hstart : Dragging info s.canvas.framebuffer index drawn :=
    ⟨hshows, by rw [hdesktop]; exact hheld, by rw [hdesktop]; exact hpointed⟩
  refine ⟨Lib.run_invariant (fun _ event h => h.mouseMove hsound event) hstart moves, ?_⟩
  rw [run_desktop, hdesktop]

/-- **Partial redraws are enough**: take hold of a window that has room for its contents, with the desktop drawn and no
    launch under way. After any number of moves, wherever they go, the framebuffer is what a full redraw would make it,
    and the same whether the moves have drawn all of the desktop or only what they have touched. -/
theorem drag_repaint (hsound : Sound info) (hinfo : s.canvas.info = info) (hpointed : Pointed s.desktop.wm)
    (hheld : s.desktop.Held info index) (moves : List GuiEvent) :
    (∀ full, ((s.setFullRedraw full).dragged moves).composeDesktop.canvas.framebuffer =
        ((s.setFullRedraw full).dragged moves).canvas.framebuffer) ∧
      ((s.setFullRedraw false).dragged moves).canvas.framebuffer =
        ((s.setFullRedraw true).dragged moves).canvas.framebuffer ∧
      ∀ full, ((s.setFullRedraw full).dragged moves).desktop = Lib.run Desktop.mouseMove s.desktop moves := by
  have hdragging := fun full => Dragging.of_held hsound hinfo hpointed hheld moves full
  refine ⟨fun full => ?_, ?_, fun full => (hdragging full).2⟩
  · obtain ⟨⟨hshows, hheld', hpointed'⟩, -⟩ := hdragging full
    have hagain : Shows info s.canvas.framebuffer ((s.setFullRedraw full).dragged moves).composeDesktop :=
      composeDesktop_shows hsound hshows.canvas hheld'.quiet hpointed' hshows.around
    refine hshows.unique hagain ?_ hheld'.framebuffer
    rw [composeDesktop_desktop, composeDesktop_quiet hheld'.quiet]
  · obtain ⟨hfull, hfullDesktop⟩ := hdragging true
    obtain ⟨hpart, hpartDesktop⟩ := hdragging false
    exact hfull.shows.unique hpart.shows (hpartDesktop.trans hfullDesktop.symm) hfull.held.framebuffer

/-- A calculator that is held, over a terminal without focus. -/
def heldCalculator : Screen Unit :=
  { canvas := { info := smallScreen }
    desktop :=
      { kernel := ()
        wm :=
          { framebuffer := smallScreen
            windows :=
              [{ bounds := ⟨200, 150, 560, 320⟩, visible := true, app := .terminalEmulator },
                { bounds := ⟨100, 100, 360, 260⟩, visible := true, focused := true, app := .calculator }]
            leftButtonDown := true
            dragWindowIndex := some 1
            mouseX := 120
            mouseY := 110 } } }

theorem drag_repaint_calculator :
    ((heldCalculator.setFullRedraw false).dragged [{ x := 600, y := 300 }, { x := -40, y := 9000 }]).canvas.framebuffer =
      ((heldCalculator.setFullRedraw true).dragged [{ x := 600, y := 300 }, { x := -40, y := 9000 }]).canvas.framebuffer := by
  have hvalid : framebufferValid smallScreen = true := by decide
  have hsound : Sound smallScreen :=
    ⟨hvalid, by decide, by decide, distinctPixels_of_stride (by decide) (by decide)⟩
  have hpointed : Pointed heldCalculator.desktop.wm := ⟨by decide, by decide⟩
  have hinside : Inside smallScreen { bounds := ⟨100, 100, 360, 260⟩, visible := true, focused := true, app := .calculator } :=
    Inside.of_clamp hvalid ⟨100, 100, 360, 260⟩ (by decide)
  have hheld : heldCalculator.desktop.Held smallScreen 1 := by
    refine ⟨rfl, rfl, by decide, ⟨_, rfl, hinside, by decide, by decide⟩, fun j w hne hw => ?_⟩
    match j with
    | 0     => exact Option.some.inj hw ▸ rfl
    | 1     => exact absurd rfl hne
    | _ + 2 => cases hw
  have hinfo : heldCalculator.canvas.info = smallScreen := rfl
  exact (drag_repaint hsound hinfo hpointed hheld _).2.1

end Screen

end Gui
end UefiBoot
