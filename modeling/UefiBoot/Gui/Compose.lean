import UefiBoot.Gui.Bars
import UefiBoot.Gui.Contents
import UefiBoot.Gui.Clipping

/-!
# `Gui.Compose` — the desktop as a picture

`ComposeDesktop` and `RedrawDirtyRegion` make the same calls of `DrawPixel`: the wallpaper, the icons, the bars, the
windows from back to front, and the task bar. `Desktop.picture` is the list of them. The last call for a point gives it
its colour (`colorAt`, `draw_pixel`), so what a window changes are the points that it draws, and these lie in its margin
(`composeWindow_holds`).
-/

namespace UefiBoot
namespace Gui

def kWindowBorder : UInt32 := 2

def drawShadow (info : FramebufferInfo) (bounds : Rect) : List Dot :=
  fillRect info ⟨bounds.x + 14, bounds.y + 16, bounds.width, bounds.height⟩ kDesktopTheme.shadowFar ++
    fillRect info ⟨bounds.x + 9, bounds.y + 10, bounds.width, bounds.height⟩ kDesktopTheme.shadowMid ++
    fillRect info ⟨bounds.x + 4, bounds.y + 5, bounds.width, bounds.height⟩ kDesktopTheme.shadowNear

def drawDesktopIcons (info : FramebufferInfo) : List Dot :=
  let x : UInt32 := 24
  let y := kTopBarHeight + 28
  let y' := y + 72
  drawImage info ⟨x, y, 28, 24⟩ 0xFF33485A ++
    fillRect info ⟨x + 4, y + 5, 20, 14⟩ kTheme.accent ++
    drawText info x (y + 34) (text "Files") kTheme.text ++
    drawImage info ⟨x + 3, y', 22, 28⟩ 0xFF38404A ++
    fillRect info ⟨x + 7, y' + 5, 14, 18⟩ kTheme.minimize ++
    drawText info x (y' + 38) (text "Disk") kTheme.text

/-- The columns at which `DrawWallpaper` draws a line. -/
def wallpaperColumns (width : UInt32) : List UInt32 :=
  (List.range ((width.toNat + 47) / 48)).map fun n => UInt32.ofNat (n * 48)

def drawWallpaper (info : FramebufferInfo) : List Dot :=
  fillRect info ⟨0, 0, info.width, info.height⟩ kDesktopTheme.desktopBottom ++
    fillRect info ⟨0, 0, info.width, info.height / 4⟩ kDesktopTheme.desktopTop ++
    (wallpaperColumns info.width).flatMap fun x =>
      drawLine x.toInt32 kTopBarHeight.toInt32 (x + 120).toInt32 (info.height - kTaskBarHeight).toInt32 0xFF1D2631

namespace Desktop

variable {K : Type} (d : Desktop K)

/-- A launcher button of `DrawBars`. -/
def drawLauncherButton (app : ApplicationDescriptor) (rect : Rect) : List Dot :=
  let info := d.wm.framebuffer
  let runtime := (d.apps.findAppRuntime app.app).map d.apps.runtimes
  let running := runtime.any fun runtime =>
    runtime.state = .running || runtime.state = .minimized || runtime.state = .notResponding
  let opening := runtime.any fun runtime => runtime.transitionTicks > 0
  let failed := runtime.any fun runtime => runtime.state = .failed
  let fill : UInt32 := if failed then 0xFF4A2630 else if opening then 0xFF35452E else if running then 0xFF243A34 else 0xFF26313D
  let edge := if failed then kTheme.close else if opening then kTheme.minimize
    else if running then kTheme.maximize else kDesktopTheme.borderInactive
  fillRect info rect fill ++ drawRect info rect edge ++
    fillRect info ⟨rect.x + 8, rect.y + 7, 18, 18⟩ edge ++
    drawText info (rect.x + 32) (rect.y + 11) (text app.id) (if running then kTheme.text else kTheme.textMuted)

/-- `DrawBars`. -/
def paintBars : List Dot :=
  let info := d.wm.framebuffer
  fillRect info ⟨0, 0, info.width, kTopBarHeight⟩ kDesktopTheme.panel ++
    fillRect info ⟨0, kTopBarHeight - 1, info.width, 1⟩ kDesktopTheme.panelEdge ++
    fillRect info ⟨0, info.height - kTaskBarHeight, info.width, kTaskBarHeight⟩ kDesktopTheme.panel ++
    fillRect info ⟨0, info.height - kTaskBarHeight, info.width, 1⟩ kDesktopTheme.panelEdge ++
    fillRect info ⟨14, 12, 14, 14⟩ kTheme.accent ++
    drawText info 38 12 (text "Antigravity OS") kTheme.text ++
    drawText info 190 12 (text "CPU 3%") kTheme.textMuted ++
    drawText info 282 12 (text "RAM 12 MB") kTheme.textMuted ++
    drawText info 410 12 (text "FPS 60") kTheme.textMuted ++
    (if d.wm.notificationText.isSome then
      fillRect info ⟨500, 7, 220, 24⟩ 0xFF111821 ++ drawRect info ⟨500, 7, 220, 24⟩ d.wm.notificationColor ++
        drawCText info 508 12 d.wm.notificationText d.wm.notificationColor
    else []) ++
    (if info.width > 92 then drawText info (info.width - 82) 12 (text "22:45") kTheme.text else []) ++
    (drawBars info).flatMap fun button => d.drawLauncherButton button.1 button.2

/-- A button of `DrawTaskbar`. -/
def drawTaskbarButton (window : Window) (rect : Rect) : List Dot :=
  let info := d.wm.framebuffer
  let opening := ((d.apps.findAppRuntime window.app).map d.apps.runtimes).any fun runtime => runtime.transitionTicks > 0
  let fill : UInt32 := if window.focused then 0xFF345164 else if window.minimized then 0xFF1C242E else 0xFF2D3945
  let edge := if opening then kTheme.minimize else if window.focused then kTheme.accent
    else if window.minimized then kDesktopTheme.borderInactive else kTheme.borderActive
  fillRect info rect fill ++ drawRect info rect edge ++
    (if window.minimized then fillRect info ⟨rect.x + 6, rect.y + 18, rect.width - 12, 3⟩ kTheme.minimize else []) ++
    drawCText info (rect.x + 10) (rect.y + 7) window.title (if window.minimized then kTheme.textMuted else kTheme.text)

/-- `DrawTaskbar`. -/
def paintTaskbar : List Dot :=
  (drawTaskbar d.wm).flatMap fun button =>
    match d.wm.windows[button.1]? with
    | none        => []
    | some window => d.drawTaskbarButton window button.2

def drawWindowControl (window : Window) (control : WindowControl) (active : Bool) : List Dot :=
  let info := d.wm.framebuffer
  let rect := controlButtonRect window control
  let hovered := active && d.wm.hoveredControl = control && d.wm.hoveredWindowIndex.isSome
  let color := if control = .close then (if hovered then kTheme.close else kDesktopTheme.buttonIdle)
    else if hovered then kDesktopTheme.buttonHover else kDesktopTheme.buttonIdle
  let icon := if control = .close then kTheme.close
    else if control = .minimize then kTheme.minimize else kTheme.maximize
  fillRect info rect color ++
    if control = .close then
      drawLine (rect.x + 5).toInt32 (rect.y + 5).toInt32 (rect.x + 11).toInt32 (rect.y + 11).toInt32 icon ++
        drawLine (rect.x + 11).toInt32 (rect.y + 5).toInt32 (rect.x + 5).toInt32 (rect.y + 11).toInt32 icon
    else if control = .minimize then fillRect info ⟨rect.x + 4, rect.y + 11, 8, 2⟩ icon
    else if window.maximized then
      drawRect info ⟨rect.x + 4, rect.y + 5, 8, 7⟩ icon ++ drawRect info ⟨rect.x + 2, rect.y + 7, 8, 7⟩ icon
    else drawRect info ⟨rect.x + 4, rect.y + 4, 8, 8⟩ icon

/-- The loop of `ComposeWindow` over the lines of the border. -/
def windowBorder (window : Window) (active : Bool) : List Dot :=
  (List.range kWindowBorder.toNat).flatMap fun n =>
    let i := UInt32.ofNat n
    drawRect d.wm.framebuffer
      ⟨window.bounds.x + i, window.bounds.y + i, window.bounds.width - i * 2, window.bounds.height - i * 2⟩
      (if active then kTheme.borderActive else kDesktopTheme.borderInactive)

def composeWindow (window : Window) (active : Bool) : List Dot :=
  if !window.visible || window.minimized || window.desktop != d.wm.activeDesktop then []
  else
    let info := d.wm.framebuffer
    let bounds := window.bounds
    let titlePixels := if bounds.width > 100 then bounds.width - 100 else 36
    let title := copyTextLimited 32 window.title (titlePixels / 12).toNat
    drawShadow info bounds ++
      fillRect info bounds window.color ++
      fillRect info ⟨bounds.x, bounds.y, bounds.width, kTitleBarHeight⟩
        (if active then kDesktopTheme.titleActive else kDesktopTheme.titleInactive) ++
      fillRect info ⟨bounds.x, bounds.y + kTitleBarHeight - 1, bounds.width, 1⟩
        (if active then kTheme.borderActive else kDesktopTheme.borderInactive) ++
      drawText info (bounds.x + 12) (bounds.y + 8) title (if active then kTheme.text else kTheme.textMuted) ++
      d.drawWindowControl window .minimize active ++
      d.drawWindowControl window .maximize active ++
      d.drawWindowControl window .close active ++
      d.windowBorder window active ++
      d.drawApplicationContents window

/-- The calls of `DrawPixel` that draw the desktop. -/
def picture : List Dot :=
  drawWallpaper d.wm.framebuffer ++ drawDesktopIcons d.wm.framebuffer ++ d.paintBars ++
    d.wm.windows.flatMap (fun window => d.composeWindow window window.focused) ++ d.paintTaskbar

end Desktop

/-! ## A window stays in its margin -/

variable {window : Window} {info : FramebufferInfo}

namespace InBuffer

theorem add_x (h : InBuffer window) (n : Nat) (hn : n ≤ 2048) :
    (window.bounds.x + UInt32.ofNat n).toNat = window.bounds.x.toNat + n := by
  have hright := h.right
  have hvalue : (UInt32.ofNat n).toNat = n := UInt32.toNat_ofNat_of_lt' (Nat.lt_of_le_of_lt hn (by decide))
  rw [toNat_add (by omega), hvalue]

theorem add_y (h : InBuffer window) (n : Nat) (hn : n ≤ 2048) :
    (window.bounds.y + UInt32.ofNat n).toNat = window.bounds.y.toNat + n := by
  have hbottom := h.bottom
  have hvalue : (UInt32.ofNat n).toNat = n := UInt32.toNat_ofNat_of_lt' (Nat.lt_of_le_of_lt hn (by decide))
  rw [toNat_add (by omega), hvalue]

/-- A rectangle at an offset from the corner of the window. -/
theorem spans (h : InBuffer window) (dx dy w l : Nat) {px py width height : UInt32}
    (hpx : px.toNat = window.bounds.x.toNat + dx) (hpy : py.toNat = window.bounds.y.toNat + dy) (hw : width.toNat = w)
    (hl : height.toNat = l) (hwidth : dx + w ≤ window.bounds.width.toNat + 18)
    (hheight : dy + l ≤ window.bounds.height.toNat + 18) :
    (visualArea window).Spans px.toNat py.toNat width.toNat height.toNat := by
  have hright := h.right
  have hbottom := h.bottom
  unfold visualArea
  exact ⟨by dsimp only; omega, by dsimp only; omega, by dsimp only; omega, by dsimp only; omega, by dsimp only; omega⟩

theorem shadow (h : InBuffer window) : (visualArea window).Holds (drawShadow info window.bounds) := by
  unfold drawShadow
  simp only [Area.holds_append]
  refine ⟨⟨?_, ?_⟩, ?_⟩
  · exact Area.holds_fillRect _ (h.spans 14 16 window.bounds.width.toNat window.bounds.height.toNat
      (h.add_x 14 (by decide)) (h.add_y 16 (by decide)) rfl rfl (by omega) (by omega))
  · exact Area.holds_fillRect _ (h.spans 9 10 window.bounds.width.toNat window.bounds.height.toNat
      (h.add_x 9 (by decide)) (h.add_y 10 (by decide)) rfl rfl (by omega) (by omega))
  · exact Area.holds_fillRect _ (h.spans 4 5 window.bounds.width.toNat window.bounds.height.toNat
      (h.add_x 4 (by decide)) (h.add_y 5 (by decide)) rfl rfl (by omega) (by omega))

/-- The corner of a control. -/
theorem control (h : InBuffer window) (hwidth : 100 ≤ window.bounds.width.toNat) (control : WindowControl) :
    ∃ n, n + 25 ≤ window.bounds.width.toNat ∧
      (controlButtonRect window control).x.toNat = window.bounds.x.toNat + n ∧
      (controlButtonRect window control).y.toNat = window.bounds.y.toNat + 7 := by
  have hright := h.right
  have hy : (controlButtonRect window control).y.toNat = window.bounds.y.toNat + 7 := h.add_y 7 (by decide)
  have hedge : (window.bounds.x + window.bounds.width).toNat = window.bounds.x.toNat + window.bounds.width.toNat :=
    toNat_add (by omega)
  have hsub : ∀ (v : UInt32) (n : Nat), n ≤ v.toNat → (v - UInt32.ofNat n).toNat = v.toNat - n := by
    intro v n hn
    have hlt := v.toNat_lt
    have hvalue : (UInt32.ofNat n).toNat = n := UInt32.toNat_ofNat_of_lt' (by show n < 2 ^ 32; omega)
    rw [UInt32.toNat_sub_of_le _ _ (UInt32.le_iff_toNat_le.mpr (by omega)), hvalue]
  have hfirst : (window.bounds.x + window.bounds.width - 9 - kButtonSize).toNat =
      window.bounds.x.toNat + window.bounds.width.toNat - 25 := by
    have hnine : (window.bounds.x + window.bounds.width - 9).toNat = _ := hsub _ 9 (by omega)
    have hsize : (window.bounds.x + window.bounds.width - 9 - kButtonSize).toNat = _ := hsub _ 16 (by omega)
    omega
  have hslot : ∀ (slot : UInt32) (k : Nat), slot * (kButtonSize + kButtonGap) = UInt32.ofNat k → k ≤ 46 →
      (window.bounds.x + window.bounds.width - 9 - kButtonSize - slot * (kButtonSize + kButtonGap)).toNat =
        window.bounds.x.toNat + (window.bounds.width.toNat - 25 - k) := by
    intro slot k heq hk
    rw [heq, hsub _ k (by omega), hfirst]
    omega
  cases control with
  | none => exact ⟨_, by omega, hslot 0 0 rfl (by decide), hy⟩
  | close => exact ⟨_, by omega, hslot 0 0 rfl (by decide), hy⟩
  | maximize => exact ⟨_, by omega, hslot 1 23 rfl (by decide), hy⟩
  | minimize => exact ⟨_, by omega, hslot 2 46 rfl (by decide), hy⟩

end InBuffer

namespace Desktop

variable {K : Type} {d : Desktop K}

theorem drawWindowControl_holds (h : InBuffer window) (hwidth : 100 ≤ window.bounds.width.toNat)
    (hheight : 44 ≤ window.bounds.height.toNat) (control : WindowControl) (active : Bool) :
    (visualArea window).Holds (d.drawWindowControl window control active) := by
  obtain ⟨n, hn, hx, hy⟩ := h.control hwidth control
  have hright := h.right
  have hbottom := h.bottom
  have hrest : (controlButtonRect window control).width.toNat = 16 ∧
      (controlButtonRect window control).height.toNat = 16 := ⟨rfl, rfl⟩
  unfold drawWindowControl
  generalize controlButtonRect window control = rect at hx hy hrest ⊢
  dsimp only
  have hadd : ∀ (v : UInt32) (k : Nat), v.toNat + k < 2 ^ 20 → (v + UInt32.ofNat k).toNat = v.toNat + k := by
    intro v k hk
    have hvalue : (UInt32.ofNat k).toNat = k := UInt32.toNat_ofNat_of_lt' (by show k < 2 ^ 32; omega)
    rw [toNat_add (by omega), hvalue]
  have hpart : ∀ (dx dy : Nat) (width height : UInt32), dx + width.toNat ≤ 16 → dy + height.toNat ≤ 16 →
      (visualArea window).Spans (rect.x + UInt32.ofNat dx).toNat (rect.y + UInt32.ofNat dy).toNat width.toNat
        height.toNat := by
    intro dx dy width height hdx hdy
    have hpx := hadd rect.x dx (by omega)
    have hpy := hadd rect.y dy (by omega)
    exact h.spans (n + dx) (7 + dy) _ _ (by omega) (by omega) rfl rfl (by omega) (by omega)
  have hend : ∀ (v : UInt32) (k : Nat), v.toNat + k < 2 ^ 20 → (v + UInt32.ofNat k).toInt32.toInt = v.toNat + k := by
    intro v k hk
    have hcast := toInt32_toInt (v + UInt32.ofNat k)
    have hvalue := hadd v k hk
    omega
  rw [Area.holds_append]
  constructor
  · have hwhole := hpart 0 0 rect.width rect.height (by omega) (by omega)
    rw [show UInt32.ofNat 0 = 0 from rfl, UInt32.add_zero, UInt32.add_zero] at hwhole
    exact Area.holds_fillRect _ hwhole
  · split
    next =>
      have hx5 : (rect.x + 5).toInt32.toInt = _ := hend rect.x 5 (by omega)
      have hx11 : (rect.x + 11).toInt32.toInt = _ := hend rect.x 11 (by omega)
      have hy5 : (rect.y + 5).toInt32.toInt = _ := hend rect.y 5 (by omega)
      have hy11 : (rect.y + 11).toInt32.toInt = _ := hend rect.y 11 (by omega)
      rw [Area.holds_append]
      unfold visualArea
      constructor <;>
        exact Area.holds_drawLine _ (by dsimp only; omega) (by dsimp only; omega) (by dsimp only; omega)
          (by dsimp only; omega) (by dsimp only; omega) (by dsimp only; omega) (by dsimp only; omega)
          (by dsimp only; omega) (by dsimp only; omega)
    next =>
      split
      next => exact Area.holds_fillRect _ (hpart 4 11 8 2 (by decide) (by decide))
      next =>
        split
        next =>
          rw [Area.holds_append]
          exact ⟨Area.holds_drawRect _ (hpart 4 5 8 7 (by decide) (by decide)) (by decide : 2 ≤ (8 : UInt32).toNat)
              (by decide : 2 ≤ (7 : UInt32).toNat),
            Area.holds_drawRect _ (hpart 2 7 8 7 (by decide) (by decide)) (by decide : 2 ≤ (8 : UInt32).toNat)
              (by decide : 2 ≤ (7 : UInt32).toNat)⟩
        next =>
          exact Area.holds_drawRect _ (hpart 4 4 8 8 (by decide) (by decide)) (by decide : 2 ≤ (8 : UInt32).toNat)
            (by decide : 2 ≤ (8 : UInt32).toNat)

theorem windowBorder_holds (h : InBuffer window) (hwidth : 100 ≤ window.bounds.width.toNat)
    (hheight : 44 ≤ window.bounds.height.toNat) (active : Bool) :
    (visualArea window).Holds (d.windowBorder window active) := by
  have hright := h.right
  have hbottom := h.bottom
  refine Area.holds_flatMap fun n hn => ?_
  have hn : n < 2 := List.mem_range.mp hn
  have hx := h.add_x n (by omega)
  have hy := h.add_y n (by omega)
  have hsize : ∀ v : UInt32, 44 ≤ v.toNat → (v - UInt32.ofNat n * 2).toNat = v.toNat - n * 2 := by
    intro v hv
    have htwice : (UInt32.ofNat n * 2).toNat = n * 2 := by
      have h2 : (2 : UInt32).toNat = 2 := rfl
      rw [UInt32.toNat_mul, UInt32.toNat_ofNat', h2]
      omega
    rw [UInt32.toNat_sub_of_le _ _ (UInt32.le_iff_toNat_le.mpr (by omega)), htwice]
  have hw := hsize window.bounds.width (by omega)
  have hl := hsize window.bounds.height (by omega)
  exact Area.holds_drawRect _ (h.spans n n _ _ hx hy hw hl (by omega) (by omega)) (by dsimp only; omega)
    (by dsimp only; omega)

/-- A window that has room for its title bar and its contents. -/
structure Roomy (d : Desktop K) (window : Window) : Prop where
  inBuffer : InBuffer window
  width    : 100 ≤ window.bounds.width.toNat
  fit      : d.ContentsFit window

theorem Roomy.height (h : d.Roomy window) : 44 ≤ window.bounds.height.toNat := by
  have hfit := h.fit.2
  have hleast : 14 ≤ contentsHeight window.app := by cases window.app <;> decide
  omega

theorem composeWindow_holds (h : d.Roomy window) (active : Bool) :
    (visualArea window).Holds (d.composeWindow window active) := by
  obtain ⟨hin, hwidth, hfit⟩ := h
  have hheight := Roomy.height ⟨hin, hwidth, hfit⟩
  have hright := hin.right
  have hbottom := hin.bottom
  have h30 : kTitleBarHeight.toNat = 30 := rfl
  have h1 : (1 : UInt32).toNat = 1 := rfl
  unfold composeWindow
  split
  next => exact Area.holds_nil _
  next =>
    dsimp only
    simp only [Area.holds_append]
    refine ⟨⟨⟨⟨⟨⟨⟨⟨⟨?_, ?_⟩, ?_⟩, ?_⟩, ?_⟩, ?_⟩, ?_⟩, ?_⟩, ?_⟩, ?_⟩
    · exact hin.shadow
    · exact Area.holds_fillRect _ (hin.spans 0 0 _ _ rfl rfl rfl rfl (by omega) (by omega))
    · exact Area.holds_fillRect _ (hin.spans 0 0 window.bounds.width.toNat 30 rfl rfl rfl h30 (by omega) (by omega))
    · have hline : (window.bounds.y + kTitleBarHeight - 1).toNat = window.bounds.y.toNat + 29 := by
        have hbar : (window.bounds.y + kTitleBarHeight).toNat = window.bounds.y.toNat + 30 := hin.add_y 30 (by decide)
        rw [UInt32.toNat_sub_of_le _ _ (UInt32.le_iff_toNat_le.mpr (by omega)), hbar, h1]
        omega
      exact Area.holds_fillRect _ (hin.spans 0 29 window.bounds.width.toNat 1 rfl hline rfl h1 (by omega) (by omega))
    · -- the title is cut to the pixels that the controls leave it
      have hpixels : 12 * ((if window.bounds.width > 100 then window.bounds.width - 100 else 36) / 12).toNat ≤
          window.bounds.width.toNat := by
        have h100 : (100 : UInt32).toNat = 100 := rfl
        have h36 : (36 : UInt32).toNat = 36 := rfl
        have h12 : (12 : UInt32).toNat = 12 := rfl
        rw [UInt32.toNat_div, h12]
        split
        next hmore =>
          rw [gt_iff_lt, UInt32.lt_iff_toNat_lt] at hmore
          rw [UInt32.toNat_sub_of_le _ _ (UInt32.le_iff_toNat_le.mpr (by omega))]
          omega
        next => omega
      have hchars := length_copyTextLimited_le 32 window.title
        ((if window.bounds.width > 100 then window.bounds.width - 100 else 36) / 12).toNat
      have hx : (window.bounds.x + 12).toNat = _ := hin.add_x 12 (by decide)
      have hy : (window.bounds.y + 8).toNat = _ := hin.add_y 8 (by decide)
      unfold visualArea
      exact Area.holds_drawText _ ⟨by dsimp only; omega, by dsimp only; omega, by dsimp only; omega, by dsimp only; omega,
        by dsimp only; omega⟩
    · exact drawWindowControl_holds hin hwidth hheight _ _
    · exact drawWindowControl_holds hin hwidth hheight _ _
    · exact drawWindowControl_holds hin hwidth hheight _ _
    · exact windowBorder_holds hin hwidth hheight _
    · exact contents_hold hin hfit

end Desktop

/-! ## The colour of a point -/

/-- A call of `DrawPixel` as a store to the point. -/
def Dot.store (dot : Dot) : (UInt32 × UInt32) × UInt32 := ((dot.x, dot.y), dot.color)

/-- The colour that the calls leave at a point. -/
def colorAt (dots : List Dot) (x y : UInt32) : Option UInt32 := Lib.lastStore (dots.map Dot.store) (x, y)

variable {dots dots' : List Dot} {x y : UInt32}

theorem colorAt_append : colorAt (dots ++ dots') x y = (colorAt dots' x y).or (colorAt dots x y) := by
  unfold colorAt
  rw [List.map_append, Lib.lastStore_append]

theorem colorAt_cons (dot : Dot) :
    colorAt (dot :: dots) x y = (colorAt dots x y).or (if dot.x = x ∧ dot.y = y then some dot.color else none) := by
  unfold colorAt
  rw [List.map_cons, Lib.lastStore_cons]
  simp only [Dot.store, Prod.mk.injEq]

theorem colorAt_eq_none_iff : colorAt dots x y = none ↔ ∀ dot ∈ dots, ¬ (dot.x = x ∧ dot.y = y) := by
  unfold colorAt
  rw [Lib.lastStore_eq_none_iff]
  simp only [List.forall_mem_map, Dot.store, ne_eq, Prod.mk.injEq]

/-- Outside the area of a shape it leaves no colour. -/
theorem Area.Holds.colorAt {area : Area} (h : area.Holds dots)
    (hout : ¬ ((area.left ≤ x.toNat ∧ x.toNat < area.right) ∧ area.top ≤ y.toNat ∧ y.toNat < area.bottom)) :
    colorAt dots x y = none := by
  rw [colorAt_eq_none_iff]
  rintro dot hdot ⟨rfl, rfl⟩
  exact hout (h dot hdot)

/-- **The back buffer after clipped calls**, by pixel. -/
theorem draw_pixel {c : Canvas} {dirty : Rect} (hwidth : c.info.width.toNat ≤ 2048) (hheight : c.info.height.toNat ≤ 2048)
    (hx : dirty.x.toNat + dirty.width.toNat < 2 ^ 32) (hy : dirty.y.toNat + dirty.height.toNat < 2 ^ 32)
    (hin : InDirty c.info dirty x y) (dots : List Dot) :
    ((c.beginDrawToBackBuffer dirty).draw dots).backBuffer (backAddress x y) =
      ((colorAt dots x y).map c.convertColor).getD (c.backBuffer (backAddress x y)) := by
  have hlast : Lib.lastStore ((c.beginDrawToBackBuffer dirty).stores dots) (backAddress x y) =
      (colorAt dots x y).map c.convertColor := by
    induction dots with
    | nil => rfl
    | cons dot dots ih =>
        have htarget := target_dirty (c := c) (x := dot.x) (y := dot.y) hwidth hheight hx hy
        rw [colorAt_cons, Option.map_or]
        by_cases hdot : InDirty c.info dirty dot.x dot.y
        · rw [if_pos hdot] at htarget
          rw [Canvas.stores_cons_some htarget, Lib.lastStore_cons, ih]
          obtain ⟨-, -, hdotx, hdoty⟩ := hdot
          obtain ⟨-, -, hpx, hpy⟩ := id hin
          -- two pixels of one address are the same
          have hsame : backAddress dot.x dot.y = backAddress x y ↔ dot.x = x ∧ dot.y = y := by
            constructor
            · intro heq
              have hnat := congrArg UInt32.toNat heq
              rw [toNat_backAddress (by omega) (by omega), toNat_backAddress (by omega) (by omega)] at hnat
              exact ⟨UInt32.toNat_inj.mp (by omega), UInt32.toNat_inj.mp (by omega)⟩
            · rintro ⟨rfl, rfl⟩
              rfl
          by_cases heq : dot.x = x ∧ dot.y = y
          · rw [if_pos heq, if_pos (hsame.mpr heq)]
            rfl
          · rw [if_neg heq, if_neg fun h => heq (hsame.mp h)]
            rfl
        · rw [if_neg hdot] at htarget
          rw [Canvas.stores_cons_none htarget, ih, if_neg]
          · rw [Option.map_none, Option.or_none]
          · rintro ⟨rfl, rfl⟩
            exact hdot hin
  have hdraw := Canvas.draw_backBuffer (c := c.beginDrawToBackBuffer dirty) rfl dots
  rw [hdraw]
  dsimp only
  rw [Lib.storeAll_apply, hlast]
  rfl

/-- The wallpaper is everywhere. -/
theorem colorAt_fillScreen (hx : x.toNat < info.width.toNat) (hy : y.toNat < info.height.toNat) (color : UInt32) :
    colorAt (fillRect info ⟨0, 0, info.width, info.height⟩ color) x y ≠ none := by
  intro hnone
  rw [colorAt_eq_none_iff] at hnone
  refine hnone ⟨x, y, color⟩ ?_ ⟨rfl, rfl⟩
  have hzero : (0 : UInt32).toNat = 0 := rfl
  unfold fillRect
  dsimp only
  rw [UInt32.zero_add, UInt32.zero_add, ite_self, ite_self]
  exact List.mem_map.mpr ⟨(x, y), mem_points.mpr ⟨⟨Nat.zero_le _, hx⟩, Nat.zero_le _, hy⟩, rfl⟩

/-- The picture has a colour for every pixel of the screen. -/
theorem Desktop.picture_covers {K : Type} (d : Desktop K) (hx : x.toNat < d.wm.framebuffer.width.toNat)
    (hy : y.toNat < d.wm.framebuffer.height.toNat) : ∃ color, colorAt d.picture x y = some color := by
  have hor : ∀ {o o' : Option UInt32}, o' ≠ none → o.or o' ≠ none := by
    intro o o' h
    cases o with
    | none => exact h
    | some v => exact Option.some_ne_none v
  have hcovered : colorAt d.picture x y ≠ none := by
    unfold Desktop.picture drawWallpaper
    simp only [colorAt_append]
    exact hor (hor (hor (hor (hor (hor (colorAt_fillScreen hx hy _))))))
  exact Option.ne_none_iff_exists'.mp hcovered

end Gui
end UefiBoot
