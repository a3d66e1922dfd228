import UefiBoot.Gui.Terminal
import UefiBoot.Gui.Windows

/-!
# `Gui.Launch` — the life cycle of an application

An application has an entry in `g_AppRuntimes`, a window once it has been launched, and a process of the kernel. The
functions here change them together, each storing to its own selection of the three.
-/

namespace UefiBoot
namespace Gui

namespace Apps

def findAppRuntime (a : Apps) (app : AppKind) : Option (Fin kApplicationCapacity) :=
  Lib.firstSlot fun i => (a.runtimes i).valid && (a.runtimes i).app == app

/-- `InitApplicationRegistry`: there are as many applications as entries. -/
def initApplicationRegistry (a : Apps) : Apps :=
  { a with runtimes := fun i => { app := (application i).app, valid := true } }

/-- The loop of `AppWatchdogTick` on one entry. -/
def missHeartbeat (runtime : AppRuntimeState) : AppRuntimeState :=
  if !runtime.valid || runtime.state != .running then runtime
  else
    let runtime := { runtime with missedHeartbeatCount := runtime.missedHeartbeatCount + 1 }
    if runtime.missedHeartbeatCount ≥ 3 then { runtime with state := .notResponding } else runtime

end Apps

variable {K : Type}

namespace Desktop

def showNotification (d : Desktop K) (text : String) (color : UInt32) : Desktop K :=
  { d with wm := d.wm.showNotification text color }

/-- A store to fields of `g_AppRuntimes[i]`. -/
def setRuntime (d : Desktop K) (i : Fin kApplicationCapacity) (f : AppRuntimeState → AppRuntimeState) : Desktop K :=
  { d with apps := d.apps.setRuntime i (f (d.apps.runtimes i)) }

/-- `if (runtime && runtime->state == from) runtime->state = to` for the entry of an application. -/
def changeState (d : Desktop K) (app : AppKind) (source target : AppLifecycleState) : Desktop K :=
  match d.apps.findAppRuntime app with
  | none   => d
  | some i =>
    if (d.apps.runtimes i).state = source then d.setRuntime i fun runtime => { runtime with state := target } else d

def minimizeWindow (d : Desktop K) (index : Nat) : Desktop K :=
  match d.wm.windows[index]? with
  | none        => d
  | some window =>
    let d := { d with wm := d.wm.setWindow index fun window => { window with minimized := true } }
    let d := d.changeState window.app .running .minimized
    let wm := { d.wm with dragWindowIndex := none }
    { d with wm := if wm.activeWindowIndex = some index then wm.focusTopVisibleWindow else wm }

def restoreWindowFromTaskbar (d : Desktop K) (index : Nat) : Desktop K :=
  match d.wm.windows[index]? with
  | none        => d
  | some window =>
    if !window.visible then d
    else
      let d := { d with wm := d.wm.setWindow index fun window => { window with minimized := false } }
      let d := d.changeState window.app .minimized .running
      { d with wm := (d.wm.focusWindow index).2 }

/-- The index was found before the desktop is switched, and switching may reorder the windows. -/
def restoreOrFocusRunningApp (d : Desktop K) (app : ApplicationDescriptor) : Bool × Desktop K :=
  match d.wm.findWindowByApp app.app app.desktop with
  | none          => (false, d)
  | some existing =>
    let d := { d with wm := d.wm.setWindow existing fun window =>
      { window with visible := true, minimized := false, maximized := false } }
    let d := d.changeState app.app .minimized .running
    let wm := ((d.wm.switchTo app.desktop).focusWindow existing).2
    (true, { d with wm := wm }.showNotification "app restored" kTheme.maximize)

/-- The exit of `LaunchApplication` that every failure after `Opening` takes. -/
def launchFailed (d : Desktop K) (i : Fin kApplicationCapacity) : Bool × Desktop K :=
  (false, (d.setRuntime i fun runtime => { runtime with state := .failed, transitionTicks := 0 }).showNotification
    "app launch failed" kTheme.close)

/-- The window of an application that is launched: the hidden one that it had, or a new one. -/
def launchWindow (wm : WindowManager) (app : ApplicationDescriptor) (launchCount : UInt32)
    (processId threadId : UInt64) : Bool × WindowManager :=
  let bounds := wm.initialWindowBounds app launchCount
  match wm.findWindowByApp app.app app.desktop with
  | some hidden =>
    (true, wm.setWindow hidden fun window => { window with
      title := some app.name, bounds := bounds, restoreBounds := bounds, color := app.color, visible := true,
      minimized := false, maximized := false, processId := processId, threadId := threadId })
  | none => wm.addWindow (some app.name) bounds app.color app.app app.desktop processId threadId

/-- The thread of an application in its window. -/
def setThread (wm : WindowManager) (app : ApplicationDescriptor) (threadId : UInt64) : WindowManager :=
  match wm.findWindowByApp app.app app.desktop with
  | some index => wm.setWindow index fun window => { window with threadId := threadId }
  | none       => wm

/-- The stores of `LaunchApplication` once the event loop has been started, and the switch to the desktop of the
    application. -/
def markRunning (d : Desktop K) (app : ApplicationDescriptor) (i : Fin kApplicationCapacity)
    (processId threadId : UInt64) : Desktop K :=
  { d with wm := (setThread d.wm app threadId).switchTo app.desktop }.setRuntime i fun runtime =>
    { runtime with
      state := .running, processId := processId, threadId := threadId, launchCount := runtime.launchCount + 1,
      missedHeartbeatCount := 0, transitionTicks := kLaunchTransitionTicks }

/-- The end of `LaunchApplication`. -/
def launchStarted (d : Desktop K) (app : ApplicationDescriptor) (i : Fin kApplicationCapacity)
    (processId threadId : UInt64) : Desktop K :=
  ((d.markRunning app i processId threadId).restoreOrFocusRunningApp app).2.showNotification
    "app running" kTheme.maximize

/-- `LaunchApplication` from the call of `KernelStartUserApplicationEventLoop` on. -/
def launchEventLoop (k : AppKernel K) (d : Desktop K) (app : ApplicationDescriptor) (i : Fin kApplicationCapacity)
    (processId : UInt64) : Bool × Desktop K :=
  let ((started, threadId), kernel) := k.start d.kernel processId app.id
  let d := { d with kernel := kernel }
  if !started then d.launchFailed i else (true, d.launchStarted app i processId threadId)

/-- `LaunchApplication` once it has a process. -/
def launchInWindow (k : AppKernel K) (d : Desktop K) (app : ApplicationDescriptor) (i : Fin kApplicationCapacity)
    (processId threadId : UInt64) : Bool × Desktop K :=
  let (added, wm) := launchWindow d.wm app (d.apps.runtimes i).launchCount processId threadId
  let d := { d with wm := wm }
  if !added then d.launchFailed i else d.launchEventLoop k app i processId

/-- `LaunchApplication` from the call of `KernelLaunchUserApplication` on. -/
def launchProcess (k : AppKernel K) (d : Desktop K) (app : ApplicationDescriptor) (i : Fin kApplicationCapacity) :
    Bool × Desktop K :=
  let ((launched, processId, threadId), kernel) := k.launch d.kernel app.id app.executablePath
  let d := { d with kernel := kernel }
  if !launched then d.launchFailed i else d.launchInWindow k app i processId threadId

def launchApplication (k : AppKernel K) (d : Desktop K) (app : ApplicationDescriptor) : Bool × Desktop K :=
  match d.apps.findAppRuntime app.app with
  | none   => (false, d.showNotification "missing app id" kTheme.close)
  | some i =>
    let state := (d.apps.runtimes i).state
    if state = .running ∨ state = .minimized ∨ state = .notResponding then d.restoreOrFocusRunningApp app
    else
      let d := d.setRuntime i fun runtime =>
        { runtime with state := .opening, transitionTicks := kLaunchTransitionTicks }
      d.launchProcess k app i

def launchApplicationById (k : AppKernel K) (d : Desktop K) (appId : Option String) : Bool × Desktop K :=
  match findApplicationById appId with
  | none     => (false, d.showNotification "missing app id" kTheme.close)
  | some app => d.launchApplication k app

def appWatchdogTick (d : Desktop K) : Desktop K :=
  let runtimes := fun i => Apps.missHeartbeat (d.apps.runtimes i)
  let unresponsive := (List.finRange kApplicationCapacity).any fun i =>
    (runtimes i).state == .notResponding && (d.apps.runtimes i).state == .running
  let d := { d with apps := { d.apps with runtimes := runtimes } }
  if unresponsive then d.showNotification "app not responding" kTheme.minimize else d

def appHeartbeat (d : Desktop K) (app : AppKind) : Desktop K :=
  match d.apps.findAppRuntime app with
  | none   => d
  | some i => d.setRuntime i fun runtime => { runtime with
      missedHeartbeatCount := 0, state := if runtime.state = .notResponding then .running else runtime.state }

/-- The terminal is launched only if the file manager was. -/
def initWindowManager (k : AppKernel K) (d : Desktop K) : Bool × Desktop K :=
  let d := { d with apps := d.apps.initApplicationRegistry }
  let (launched, d) := d.launchApplicationById k (some "files")
  let (launched, d) := if launched then d.launchApplicationById k (some "term") else (false, d)
  let wm := { d.wm with windowManagerReady := launched }
  (launched, { d with wm := wm.focusTopVisibleWindow })

/-- What `KernelGuiInit` has set when it calls `InitWindowManager`. -/
def reset (framebuffer : FramebufferInfo) (kernel : K) : Desktop K :=
  { wm := { framebuffer := framebuffer
            mouseX := (framebuffer.width / 2).toInt32
            mouseY := (framebuffer.height / 2).toInt32 }
    apps := Apps.initNativeAppState {}
    kernel := kernel }

/-- What `CloseWindow` does to the application of the window that is closed. -/
def endApplication (k : AppKernel K) (d : Desktop K) (window : Window) : Desktop K :=
  match d.apps.findAppRuntime window.app with
  | none   => d
  | some i =>
    if (d.apps.runtimes i).processId = window.processId then
      { d with kernel := (k.exit d.kernel (d.apps.runtimes i).processId 0).2 }.setRuntime i fun runtime =>
        { runtime with state := .notRunning, processId := 0, threadId := 0, missedHeartbeatCount := 0,
                       transitionTicks := 0 }
    else d

/-- What `CloseWindow` does to the windows. The window keeps its process id. -/
def hideWindow (wm : WindowManager) (index : Nat) : WindowManager :=
  let wm := wm.setWindow index fun window => { window with visible := false, focused := false }
  let wm := if wm.dragWindowIndex = some index then { wm with dragWindowIndex := none } else wm
  let wm := if wm.mouseDownWindowIndex = some index then { wm with mouseDownWindowIndex := none } else wm
  if wm.activeWindowIndex = some index then wm.focusTopVisibleWindow else wm

def closeWindow (k : AppKernel K) (d : Desktop K) (index : Nat) : Desktop K :=
  match d.wm.windows[index]? with
  | none        => d
  | some window =>
    let d := d.endApplication k window
    { d with wm := hideWindow d.wm index }

/-- The entry that `TaskManagerKillFocusedApp` takes. -/
def findKillableApp (d : Desktop K) : Option (Fin kApplicationCapacity) :=
  Lib.firstSlot fun i =>
    (d.apps.runtimes i).valid && (d.apps.runtimes i).processId != 0 && (d.apps.runtimes i).app != .taskManager

def taskManagerKillFocusedApp (k : AppKernel K) (d : Desktop K) : Bool × Desktop K :=
  match d.findKillableApp with
  | none   => (false, d)
  | some i =>
    (true, ({ d with kernel := (k.exit d.kernel (d.apps.runtimes i).processId 0).2 }.setRuntime i fun runtime =>
      { runtime with processId := 0, threadId := 0, state := .notRunning, transitionTicks := 0 }).showNotification
        "process terminated" kTheme.minimize)

/-- `KernelExitUserApplication` is not called here. -/
def terminalKill (d : Desktop K) (argument : Text) : Bool × Desktop K :=
  let (ok, apps) := d.apps.terminalKillProcess argument
  (ok, { d with apps := apps })

end Desktop
end Gui
end UefiBoot
