import UefiBoot.Gui.EventQueue
import UefiBoot.Gui.Launch

/-!
# `Gui.Dispatch` — what the desktop does with an event

A pointer event moves the pointer and then works on the windows; a key goes to the application in front. Drawing
changes nothing that is kept here but the countdown of the launch animation, which every composition of the desktop
takes down by one.
-/

namespace UefiBoot
namespace Gui

/-- The keys of the calculator, by row and column. -/
def kCalculatorKeys : List (List Char) :=
  ["789/".toList, "456*".toList, "123-".toList, "C0=+".toList]

/-- `AssociatedAppForFile`. -/
def associatedAppForFile (path : Text) : AppKind :=
  if path.drop (path.length - 4) = text ".txt" then .textEditor
  else if path.drop (path.length - 4) = text ".png" then .imageViewer
  else .fileManager

variable {K : Type}

namespace Desktop

/-! ## Files and keys -/

def launchAssociatedFile (k : AppKernel K) (d : Desktop K) (path : Text) : Bool × Desktop K :=
  match associatedAppForFile path with
  | .textEditor  =>
    let (ok, apps) := d.apps.textEditorOpenFile path
    let d := { d with apps := apps }
    if !ok then (false, d) else d.launchApplicationById k (some "edit")
  | .imageViewer => d.launchApplicationById k (some "image")
  | _            => (false, d.showNotification "no file association" kTheme.close)

/-- A file that is opened is the selected one. -/
def selectFile (d : Desktop K) (path : Text) : Desktop K :=
  { d with apps := { d.apps with
    fileManager := { d.apps.fileManager with selectedPath := copyText kPathLength path, error := [] } } }

def fileManagerOpenPath (k : AppKernel K) (d : Desktop K) (path : Text) : Bool × Desktop K :=
  match d.apps.findNativeFile path with
  | none   => (false, { d with apps := d.apps.setFileManagerError (text "filesystem error") })
  | some i =>
    if !(d.apps.files i).directory then (d.selectFile path).launchAssociatedFile k path
    else
      let m := { Apps.fileManagerPushBack d.apps.fileManager d.apps.fileManager.currentPath with
        forwardCount := 0, currentPath := copyText kPathLength path, error := [] }
      (true, { d with apps := { d.apps with fileManager := m } })

/-- A key that an application handles without launching another. -/
def inApps (d : Desktop K) (handled : Bool × Apps) : Bool × Desktop K := (handled.1, { d with apps := handled.2 })

/-- A key of the file manager. -/
def fileManagerHandleKey (k : AppKernel K) (d : Desktop K) (key : UInt32) : Bool × Desktop K :=
  if isKey key 'b' then d.inApps d.apps.fileManagerBack
  else if isKey key 'f' then d.inApps d.apps.fileManagerForward
  else if isKey key 'n' then d.inApps (d.apps.fileManagerCreateFolder (text "new-folder"))
  else if isKey key 'r' then d.inApps (d.apps.nativeFileRename (text "/tmp/readme") (text "/tmp/readme-renamed"))
  else if isKey key 'c' then d.inApps (d.apps.fileManagerCopySelected (text "/tmp/readme-copy"))
  else if isKey key 'm' then d.inApps (d.apps.fileManagerMoveSelected (text "/tmp/readme-moved"))
  else if isKey key 'd' then d.inApps (d.apps.nativeFileDelete d.apps.fileManager.selectedPath)
  else if isKey key '\n' || isKey key '\r' then d.fileManagerOpenPath k d.apps.fileManager.selectedPath
  else (false, d)

def calculatorKey (d : Desktop K) (key : UInt32) : Bool × Desktop K :=
  let (ok, calculator) := Apps.calculatorHandleKey d.apps.calculator key
  (ok, { d with apps := { d.apps with calculator := calculator } })

def settingsKey (d : Desktop K) (key : UInt32) : Bool × Desktop K :=
  let (ok, settings) := Apps.settingsHandleKey d.apps.settings key
  (ok, { d with apps := { d.apps with settings := settings } })

/-- The window that has the focus. -/
def activeWindow (d : Desktop K) : Option Window := d.wm.activeWindowIndex.bind fun i => d.wm.windows[i]?

def dispatchKeyToFocusedApp (k : AppKernel K) (d : Desktop K) (key modifiers : UInt32) : Bool × Desktop K :=
  match d.activeWindow.map Window.app with
  | some .terminalEmulator => d.inApps (d.apps.terminalHandleKey key)
  | some .textEditor       => d.inApps (d.apps.textEditorHandleKey key modifiers)
  | some .calculator       => d.calculatorKey key
  | some .settings         => d.settingsKey key
  | some .fileManager      => d.fileManagerHandleKey k key
  | some .taskManager      =>
    if isKey key 'k' || isKey key 'K' || key == 127 then d.taskManagerKillFocusedApp k else (false, d)
  | _                      => (false, d)

/-! ## Clicks -/

/-- A click on the contents of the window in front. -/
def clickContents (k : AppKernel K) (d : Desktop K) (window : Window) (x y : Int32) : Desktop K :=
  let contentX := window.bounds.x + 18
  let contentY := window.bounds.y + kTitleBarHeight + 18
  match window.app with
  | .calculator  =>
    let localX := x - contentX.toInt32
    let localY := y - (contentY + 30).toInt32
    if localX ≥ 0 ∧ localY ≥ 0 then
      let col := (localX.toUInt32 / 34).toNat
      let row := (localY.toUInt32 / 28).toNat
      match (kCalculatorKeys[row]?).bind (·[col]?) with
      | some key => (d.calculatorKey key.toNat.toUInt32).2
      | none     => d
    else d
  | .fileManager =>
    if y < (contentY + 48).toInt32 then (d.inApps d.apps.fileManagerBack).2
    else (d.fileManagerOpenPath k (text "/tmp")).2
  | .taskManager => (d.taskManagerKillFocusedApp k).2
  | _            => d

def handleMouseClick (k : AppKernel K) (d : Desktop K) (x y : Int32) (button : UInt32) : Desktop K :=
  if button ≠ 0 then d
  else
    match d.wm.findLauncherAppAt x y with
    | some app => (d.launchApplicationById k (some app.id)).2
    | none     =>
      match d.wm.findTaskbarWindowAt x y with
      | some index => d.restoreWindowFromTaskbar index
      | none       =>
        match d.wm.findTopWindowAt x y false with
        | none       => d
        | some index =>
          -- the control is the one under the pointer before the window comes to the front
          let control := ((d.wm.windows[index]?).map (hitWindowControl x y)).getD .none
          let d := { d with wm := (d.wm.focusWindow index).2 }
          match d.wm.activeWindowIndex with
          | none         => d
          | some focused =>
            match control with
            | .close    => d.closeWindow k focused
            | .minimize => d.minimizeWindow focused
            | .maximize => { d with wm := d.wm.toggleMaximizeWindow focused }
            | .none     =>
              match d.wm.windows[focused]? with
              | none        => d
              | some window => d.clickContents k window x y

/-! ## Events -/

/-- The loop of `AdvanceDesktopTransitions` on one entry. -/
def advanceTransition (runtime : AppRuntimeState) : AppRuntimeState :=
  if runtime.valid ∧ runtime.transitionTicks > 0 then
    { runtime with transitionTicks := runtime.transitionTicks - 1 }
  else runtime

def advanceDesktopTransitions (d : Desktop K) : Desktop K :=
  { d with apps := { d.apps with runtimes := fun i => advanceTransition (d.apps.runtimes i) } }

/-- `ComposeDesktop`. A redraw of a dirty region ends in the same way. -/
def composeDesktop (d : Desktop K) : Desktop K := d.advanceDesktopTransitions

/-- `UpdateHoverState` and then `ComposeDesktop`. -/
def refresh (d : Desktop K) : Desktop K := ({ d with wm := d.wm.updateHoverState } : Desktop K).composeDesktop

/-- Moving the window that is being dragged. -/
def dragTo (d : Desktop K) (index : Nat) (x y : Int32) : Desktop K :=
  let wm := { d.wm.setMouse x y with dragging := true }
  ({ d with wm := wm.moveWindow index (wm.mouseX - wm.dragOffsetX) (wm.mouseY - wm.dragOffsetY) } : Desktop K).refresh

/-- The window that a move of the pointer drags. -/
def dragged (d : Desktop K) : Option Nat := if d.wm.leftButtonDown then d.wm.dragWindowIndex else none

def mouseMove (d : Desktop K) (event : GuiEvent) : Desktop K :=
  match d.dragged with
  | some index => d.dragTo index event.x event.y
  | none       => { d with wm := (d.wm.setMouse event.x event.y).updateHoverState }

/-- A press of the left button, with the pointer where the press is: the window under it and, apart from that, the
    window whose title bar is under it. -/
def pressDown (wm : WindowManager) : WindowManager :=
  { wm with
    mouseDownX := wm.mouseX
    mouseDownY := wm.mouseY
    mouseDownWindowIndex := wm.findTopWindowAt wm.mouseX wm.mouseY false
    dragWindowIndex := wm.findTopWindowAt wm.mouseX wm.mouseY true
    dragging := false }

/-- The window under the press comes to the front. -/
def raisePressed (wm : WindowManager) : WindowManager :=
  match wm.mouseDownWindowIndex with
  | none       => wm
  | some front =>
    let wm := (wm.focusWindow front).2
    if wm.dragWindowIndex = some front then { wm with dragWindowIndex := some (wm.windowCount - 1) } else wm

/-- The drag index stays only for a window that can be moved. -/
def startDrag (wm : WindowManager) : WindowManager :=
  match wm.dragWindowIndex.bind fun i => wm.windows[i]? with
  | none        => wm
  | some window =>
    if hitWindowControl wm.mouseX wm.mouseY window ≠ .none ∨ window.maximized then { wm with dragWindowIndex := none }
    else
      { wm with
        dragOffsetX := wm.mouseX - window.bounds.x.toInt32
        dragOffsetY := wm.mouseY - window.bounds.y.toInt32 }

def pressLeft (wm : WindowManager) : WindowManager := startDrag (raisePressed (pressDown wm))

def mouseDown (d : Desktop K) (event : GuiEvent) : Desktop K :=
  let wm := { d.wm with leftButtonDown := event.button == 0 }.setMouse event.x event.y
  ({ d with wm := if wm.leftButtonDown then pressLeft wm else wm } : Desktop K).refresh

/-- A release that is close to the press is a click. -/
def releaseClick (k : AppKernel K) (d : Desktop K) (button : UInt32) : Desktop K :=
  let dx := d.wm.mouseX - d.wm.mouseDownX
  let dy := d.wm.mouseY - d.wm.mouseDownY
  if d.wm.leftButtonDown ∧ !d.wm.dragging ∧ dx > -3 ∧ dx < 3 ∧ dy > -3 ∧ dy < 3 then
    d.handleMouseClick k d.wm.mouseX d.wm.mouseY button
  else d

/-- The edge of the screen at which a window that is dropped snaps. -/
def snapEdge (wm : WindowManager) : Option SnapEdge :=
  if wm.mouseY ≤ (kTopBarHeight + 8).toInt32 then some .top
  else if wm.mouseX ≤ 8 then some .left
  else if wm.mouseX ≥ (wm.framebuffer.width - 8).toInt32 then some .right
  else none

/-- Dropping the window that was dragged. -/
def dropWindow (wm : WindowManager) : WindowManager :=
  if wm.dragging then
    match wm.dragWindowIndex, snapEdge wm with
    | some index, some edge => (wm.snapWindow index edge).2
    | _, _                  => wm
  else wm

def mouseUp (k : AppKernel K) (d : Desktop K) (event : GuiEvent) : Desktop K :=
  let d := ({ d with wm := d.wm.setMouse event.x event.y } : Desktop K).releaseClick k event.button
  let wm := { dropWindow d.wm with
    leftButtonDown := false
    dragWindowIndex := none
    mouseDownWindowIndex := none
    dragging := false }
  ({ d with wm := wm } : Desktop K).refresh

/-- Scrolling the transcript of the terminal. -/
def scrollTerminal (terminal : Terminal) (delta : Int32) : Terminal :=
  let offset := terminal.scrollOffset + delta
  let offset := if offset < 0 then 0 else offset
  { terminal with scrollOffset := if offset > terminal.maxScroll then terminal.maxScroll else offset }

/-- Scrolling the text editor. -/
def scrollEditor (editor : TextEditorState) (delta : Int32) : TextEditorState :=
  if delta > 0 then { editor with scrollLine := editor.scrollLine + delta.toUInt32 }
  else if delta < 0 then
    let amount := (-delta).toUInt32
    { editor with scrollLine := if amount > editor.scrollLine then 0 else editor.scrollLine - amount }
  else editor

def mouseWheel (d : Desktop K) (event : GuiEvent) : Desktop K :=
  let apps := match d.activeWindow.map Window.app with
    | some .terminalEmulator => { d.apps with terminal := scrollTerminal d.apps.terminal event.key.toInt32 }
    | some .textEditor       => { d.apps with editor := scrollEditor d.apps.editor event.key.toInt32 }
    | _                      => d.apps
  { d with wm := d.wm.updateHoverState, apps := apps }

def keyDown (k : AppKernel K) (d : Desktop K) (event : GuiEvent) : Desktop K :=
  let (handled, d) := d.dispatchKeyToFocusedApp k event.key event.button
  if handled then d.composeDesktop
  else if event.key ≥ '1'.toNat.toUInt32 ∧ event.key ≤ '4'.toNat.toUInt32 then
    let (switched, wm) := d.wm.switchVirtualDesktop (event.key - '1'.toNat.toUInt32).toUInt8
    if switched then ({ d with wm := wm } : Desktop K).composeDesktop else d
  else d

def dispatchEvent (k : AppKernel K) (d : Desktop K) (event : GuiEvent) : Desktop K :=
  match event.type with
  | .mouseMove   => d.mouseMove event
  | .mouseDown   => d.mouseDown event
  | .mouseUp     => d.mouseUp k event
  | .mouseWheel  => d.mouseWheel event
  | .click       =>
    let d := { d with wm := d.wm.setMouse event.x event.y }
    (d.handleMouseClick k d.wm.mouseX d.wm.mouseY event.button).refresh
  | .drag        =>
    match d.dragged with
    | some index => d.dragTo index event.x event.y
    | none       => d
  | .paint       => d.composeDesktop
  | .resize      =>
    let wm := match d.wm.findTopWindowAt event.x event.y false with
      | some index => (d.wm.resizeWindow index event.button event.key).2
      | none       => d.wm
    ({ d with wm := wm } : Desktop K).composeDesktop
  | .doubleClick =>
    let wm := match d.wm.findTopWindowAt event.x event.y true with
      | some index => d.wm.toggleMaximizeWindow index
      | none       => d.wm
    ({ d with wm := wm } : Desktop K).composeDesktop
  | .keyDown     => d.keyDown k event
  | .none | .hover | .keyUp | .gamepad | .close => d

end Desktop
end Gui
end UefiBoot
