import UefiBoot.Gui.State
import UefiBoot.Lib.Select
import UefiBoot.Lib.Stacking

/-!
# `Gui.Windows` — windows, focus and the pointer

The functions of `gui.cpp` that work on the windows alone. A function that takes a `Window&` takes the index of the
window here, since every caller passes an element of `g_Windows`. Coordinates are unsigned in a window and signed in
an event, and the casts between them are those of the source.
-/

namespace UefiBoot
namespace Gui

def framebufferValid (framebuffer : FramebufferInfo) : Bool :=
  framebuffer.baseAddress != 0 && framebuffer.width ≥ 320 && framebuffer.height ≥ 200 &&
    framebuffer.pixelsPerScanline ≥ framebuffer.width

/-! ## Geometry -/

def usableDesktopRect (framebuffer : FramebufferInfo) : Rect :=
  let top := kTopBarHeight + 8
  let bottom :=
    if framebuffer.height > kTaskBarHeight + 8 then framebuffer.height - kTaskBarHeight - 8 else framebuffer.height
  { x := 0, y := top, width := framebuffer.width
    height := if bottom > top then bottom - top else framebuffer.height }

def appMinWidth (app : AppKind) : UInt32 := ((findApplication app).map (·.minWidth)).getD kDefaultAppMinWidth
def appMinHeight (app : AppKind) : UInt32 := ((findApplication app).map (·.minHeight)).getD kDefaultAppMinHeight

/-- One dimension of `ClampWindowToUsableArea`. -/
def clampSize (size minimum usable : UInt32) : UInt32 :=
  let size := if size < minimum ∧ usable ≥ minimum then minimum else size
  if size > usable then usable else size

/-- One coordinate of `ClampWindowToUsableArea`. -/
def clampOffset (offset size start usable : UInt32) : UInt32 :=
  let limit := if usable > size then start + usable - size else start
  if offset < start then start else if offset > limit then limit else offset

def clampWindowToUsableArea (framebuffer : FramebufferInfo) (bounds : Rect) (app : AppKind) : Rect :=
  let usable := usableDesktopRect framebuffer
  let width := clampSize bounds.width (appMinWidth app) usable.width
  let height := clampSize bounds.height (appMinHeight app) usable.height
  { x := clampOffset bounds.x width usable.x usable.width
    y := clampOffset bounds.y height usable.y usable.height
    width := width
    height := height }

def centerWindowInUsableArea (framebuffer : FramebufferInfo) (width height : UInt32) (app : AppKind) : Rect :=
  let usable := usableDesktopRect framebuffer
  clampWindowToUsableArea framebuffer
    { x := if usable.width > width then usable.x + (usable.width - width) / 2 else usable.x
      y := if usable.height > height then usable.y + (usable.height - height) / 2 else usable.y
      width := width
      height := height } app

def pointInRect (x y : Int32) (rect : Rect) : Bool :=
  x ≥ rect.x.toInt32 && y ≥ rect.y.toInt32 &&
    x < (rect.x + rect.width).toInt32 && y < (rect.y + rect.height).toInt32

/-- The cast of a coordinate of a window. -/
theorem toInt32_toInt (v : UInt32) :
    v.toNat < 2 ^ 31 ∧ v.toInt32.toInt = v.toNat ∨ 2 ^ 31 ≤ v.toNat ∧ v.toInt32.toInt = v.toNat - 2 ^ 32 := by
  have hlt := v.toNat_lt
  have htoInt : v.toInt32.toInt = (v.toNat : Int).bmod (2 ^ 32) := BitVec.toInt_eq_toNat_bmod _
  rw [htoInt, Int.bmod_def]
  split_ifs <;> omega

def pointInTitleBar (x y : Int32) (window : Window) : Bool :=
  pointInRect x y { x := window.bounds.x, y := window.bounds.y, width := window.bounds.width, height := kTitleBarHeight }

def controlButtonRect (window : Window) (control : WindowControl) : Rect :=
  let slot : UInt32 := match control with
    | .maximize      => 1
    | .minimize      => 2
    | .none | .close => 0
  { x := window.bounds.x + window.bounds.width - 9 - kButtonSize - slot * (kButtonSize + kButtonGap)
    y := window.bounds.y + (kTitleBarHeight - kButtonSize) / 2
    width := kButtonSize
    height := kButtonSize }

def hitWindowControl (x y : Int32) (window : Window) : WindowControl :=
  if pointInRect x y (controlButtonRect window .close) then .close
  else if pointInRect x y (controlButtonRect window .maximize) then .maximize
  else if pointInRect x y (controlButtonRect window .minimize) then .minimize
  else .none

inductive SnapEdge where
  | left
  | right
  | top
  deriving DecidableEq

namespace WindowManager

def showNotification (wm : WindowManager) (text : String) (color : UInt32) : WindowManager :=
  { wm with notificationText := some text, notificationColor := color }

def windowCount (wm : WindowManager) : Nat := wm.windows.length

/-- A store to fields of `g_Windows[index]`. -/
def setWindow (wm : WindowManager) (index : Nat) (f : Window → Window) : WindowManager :=
  { wm with windows := wm.windows.modify index f }

/-! ## Placements -/

def findAppPlacement (wm : WindowManager) (app : AppKind) : Option (Fin kMaxWindows) :=
  Lib.firstSlot fun i => (wm.placements i).valid && (wm.placements i).app == app

def rememberAppPlacement (wm : WindowManager) (app : AppKind) (bounds : Rect) : WindowManager :=
  match wm.findAppPlacement app with
  | some i =>
    { wm with placements := Function.update wm.placements i { wm.placements i with lastBounds := bounds } }
  | none =>
    match Lib.firstSlot (fun i => !(wm.placements i).valid) with
    | some i => { wm with placements := Function.update wm.placements i ⟨app, bounds, true⟩ }
    | none   => wm

def initialWindowBounds (wm : WindowManager) (app : ApplicationDescriptor) (ordinal : UInt32) : Rect :=
  match wm.findAppPlacement app.app with
  | some i => clampWindowToUsableArea wm.framebuffer (wm.placements i).lastBounds app.app
  | none   =>
    let centered := centerWindowInUsableArea wm.framebuffer app.preferredWidth app.preferredHeight app.app
    let stagger := (ordinal % 3) * 28
    clampWindowToUsableArea wm.framebuffer { centered with x := centered.x + stagger, y := centered.y + stagger } app.app

/-! ## Stacking and focus -/

/-- Shown on the active desktop. -/
def shown (wm : WindowManager) (window : Window) : Bool :=
  window.visible && !window.minimized && window.desktop == wm.activeDesktop

def findTopWindowAt (wm : WindowManager) (x y : Int32) (titleBarOnly : Bool) : Option Nat :=
  Lib.topIdx (fun window => wm.shown window &&
    if titleBarOnly then pointInTitleBar x y window else pointInRect x y window.bounds) wm.windows

/-- A window that is in front already stays where it is, and then the drag index stays too. -/
def bringWindowToFront (wm : WindowManager) (index : Nat) : Option Nat × WindowManager :=
  if index ≥ wm.windowCount ∨ index + 1 = wm.windowCount then
    (if index < wm.windowCount then some index else none, wm)
  else
    (some (wm.windowCount - 1),
      { wm with windows := Lib.toTop wm.windows index, dragWindowIndex := some (wm.windowCount - 1) })

def findTopVisibleWindow (wm : WindowManager) : Option Nat := Lib.topIdx wm.shown wm.windows

def clearWindowFocus (wm : WindowManager) : WindowManager :=
  { wm with windows := wm.windows.map fun window => { window with focused := false }, activeWindowIndex := none }

def focusWindow (wm : WindowManager) (index : Nat) : Bool × WindowManager :=
  if !(wm.windows[index]?).any wm.shown then (false, wm)
  else
    match wm.clearWindowFocus.bringWindowToFront index with
    | (none, wm)       => (false, wm)
    | (some front, wm) =>
      (true, { wm with activeWindowIndex := some front }.setWindow front fun window => { window with focused := true })

def focusTopVisibleWindow (wm : WindowManager) : WindowManager :=
  match wm.findTopVisibleWindow with
  | some top => (wm.focusWindow top).2
  | none     => wm.clearWindowFocus

def switchVirtualDesktop (wm : WindowManager) (desktop : UInt8) : Bool × WindowManager :=
  if desktop ≥ kVirtualDesktopCount then (false, wm)
  else (true, { wm with activeDesktop := desktop, dragWindowIndex := none }.focusTopVisibleWindow)

/-- `if (g_ActiveDesktop != desktop) SwitchVirtualDesktop(desktop)`. -/
def switchTo (wm : WindowManager) (desktop : UInt8) : WindowManager :=
  if wm.activeDesktop ≠ desktop then (wm.switchVirtualDesktop desktop).2 else wm

def findWindowByApp (wm : WindowManager) (app : AppKind) (desktop : UInt8) : Option Nat :=
  wm.windows.findIdx? fun window => window.app == app && window.desktop == desktop

/-! ## Moving and resizing -/

/-- `ClampWindowToUsableArea` on a window and `RememberAppPlacement` of the result. -/
def place (wm : WindowManager) (index : Nat) (window : Window) (bounds : Rect) : WindowManager :=
  let bounds := clampWindowToUsableArea wm.framebuffer bounds window.app
  (wm.setWindow index fun window => { window with bounds := bounds }).rememberAppPlacement window.app bounds

def moveWindow (wm : WindowManager) (index : Nat) (x y : Int32) : WindowManager :=
  match wm.windows[index]? with
  | none        => wm
  | some window =>
    if window.maximized then wm
    else
      wm.place index window { window.bounds with
        x := if x < 0 then 0 else x.toUInt32
        y := if y < 0 then 0 else y.toUInt32 }

def addWindow (wm : WindowManager) (title : Option String) (bounds : Rect) (color : UInt32) (app : AppKind)
    (desktop : UInt8) (processId threadId : UInt64) : Bool × WindowManager :=
  if title.isNone ∨ bounds.width = 0 ∨ bounds.height = 0 ∨ desktop ≥ kVirtualDesktopCount ∨
      wm.windowCount ≥ kMaxWindows then (false, wm)
  else
    let bounds := clampWindowToUsableArea wm.framebuffer bounds app
    let window : Window :=
      { title := title, bounds := bounds, restoreBounds := bounds, color := color, visible := true, minimized := false,
        maximized := false, focused := false, app := app, desktop := desktop, processId := processId,
        threadId := threadId }
    (true, { wm.rememberAppPlacement app bounds with windows := wm.windows ++ [window] })

def resizeWindow (wm : WindowManager) (index : Nat) (width height : UInt32) : Bool × WindowManager :=
  match wm.windows[index]? with
  | none        => (false, wm)
  | some window =>
    if window.maximized then (false, wm)
    else
      let resized := { window.bounds with width := width, height := height }
      let bounds := clampWindowToUsableArea wm.framebuffer resized window.app
      (bounds.width ≥ appMinWidth window.app && bounds.height ≥ appMinHeight window.app,
        wm.place index window resized)

def snapWindow (wm : WindowManager) (index : Nat) (edge : SnapEdge) : Bool × WindowManager :=
  match wm.windows[index]? with
  | none        => (false, wm)
  | some window =>
    if wm.framebuffer.width = 0 ∨ wm.framebuffer.height ≤ kTopBarHeight + kTaskBarHeight then (false, wm)
    else
      let usable := usableDesktopRect wm.framebuffer
      let half := usable.width / 2
      let bounds := match edge with
        | .top   => usable
        | .left  => { x := usable.x, y := usable.y, width := half, height := usable.height }
        | .right => { x := usable.x + half, y := usable.y, width := usable.width - half, height := usable.height }
      let wm := wm.setWindow index fun window =>
        { window with restoreBounds := window.bounds, maximized := edge == .top }
      (true, wm.place index window bounds)

/-- Maximising leaves the remembered placement alone, and so the window comes back where it was. -/
def toggleMaximizeWindow (wm : WindowManager) (index : Nat) : WindowManager :=
  match wm.windows[index]? with
  | none        => wm
  | some window =>
    if window.maximized then
      (wm.setWindow index fun window => { window with maximized := false }).place index window window.restoreBounds
    else
      let usable := usableDesktopRect wm.framebuffer
      let bounds := clampWindowToUsableArea wm.framebuffer
        { x := usable.x + 8
          y := usable.y
          width := if usable.width > 16 then usable.width - 16 else usable.width
          height := usable.height } window.app
      wm.setWindow index fun window =>
        { window with restoreBounds := window.bounds, bounds := bounds, maximized := true }

/-! ## The pointer -/

/-- One coordinate of `ClampMouseToScreen`. -/
def clampToScreen (position : Int32) (size : UInt32) : Int32 :=
  if position < 0 then 0
  else if position ≥ size.toInt32 then (size - 1).toInt32
  else position

/-- Storing a position to `g_MouseX` and `g_MouseY`, and `ClampMouseToScreen`. -/
def setMouse (wm : WindowManager) (x y : Int32) : WindowManager :=
  { wm with mouseX := clampToScreen x wm.framebuffer.width, mouseY := clampToScreen y wm.framebuffer.height }

/-- The loop of `FindTaskbarWindowAt` over the windows from an index on. -/
def taskbarScan (activeDesktop : UInt8) (x y buttonY : Int32) : List Window → Nat → Int32 → Option Nat
  | [], _, _ => none
  | window :: windows, i, buttonX =>
    if !window.visible || window.desktop != activeDesktop then
      taskbarScan activeDesktop x y buttonY windows (i + 1) buttonX
    else
      let buttonWidth : Int32 := if window.app = .terminalEmulator then 112 else 156
      let button : Rect :=
        { x := buttonX.toUInt32, y := buttonY.toUInt32, width := buttonWidth.toUInt32, height := 26 }
      if pointInRect x y button then some i
      else taskbarScan activeDesktop x y buttonY windows (i + 1) (buttonX + (buttonWidth + 10))

def findTaskbarWindowAt (wm : WindowManager) (x y : Int32) : Option Nat :=
  if y < (wm.framebuffer.height - kTaskBarHeight + 36).toInt32 then none
  else
    taskbarScan wm.activeDesktop x y (wm.framebuffer.height - kTaskBarHeight + 40).toInt32 wm.windows 0 18

/-- The loop of `FindLauncherAppAt`. -/
def launcherScan (x y launcherY : Int32) : List ApplicationDescriptor → Int32 → Option ApplicationDescriptor
  | [], _ => none
  | app :: apps, buttonX =>
    let button : Rect :=
      { x := buttonX.toUInt32, y := launcherY.toUInt32, width := kLauncherButtonWidth, height := kLauncherButtonHeight }
    if pointInRect x y button then some app
    else launcherScan x y launcherY apps (buttonX + (kLauncherButtonWidth + 8).toInt32)

def findLauncherAppAt (wm : WindowManager) (x y : Int32) : Option ApplicationDescriptor :=
  let launcherY := (wm.framebuffer.height - kTaskBarHeight + 8).toInt32
  if y < launcherY ∨ y ≥ launcherY + kLauncherButtonHeight.toInt32 then none
  else launcherScan x y launcherY kApplications 18

def updateHoverState (wm : WindowManager) : WindowManager :=
  let hovered := wm.findTopWindowAt wm.mouseX wm.mouseY false
  let wm := { wm with hoveredWindowIndex := hovered, hoveredControl := .none, cursorKind := .arrow }
  if (wm.findLauncherAppAt wm.mouseX wm.mouseY).isSome || (wm.findTaskbarWindowAt wm.mouseX wm.mouseY).isSome then
    { wm with cursorKind := .hand }
  else
    match hovered.bind fun i => wm.windows[i]? with
    | none        => wm
    | some window =>
      let control := hitWindowControl wm.mouseX wm.mouseY window
      let wm := { wm with hoveredControl := control }
      if control ≠ .none then { wm with cursorKind := .hand }
      else if pointInTitleBar wm.mouseX wm.mouseY window then { wm with cursorKind := .move }
      else wm

end WindowManager
end Gui
end UefiBoot
