import UefiBoot.Gui.Dispatch

/-!
# `Gui.SelfTests` — the self-tests of the desktop

`KernelGuiInit` tries the desktop out before it is shown. Three of its tests work on the globals of the desktop itself:
each copies some of them first and writes these back at the end.
-/

namespace UefiBoot
namespace Gui

abbrev kFontCacheEntries : Nat := 32

/-! ## Pictures and fonts -/

/-- `ReadBe32`. -/
def readBe32 (data : List UInt8) (offset : Nat) : UInt32 :=
  ((data.getD offset 0).toUInt32 <<< 24) ||| ((data.getD (offset + 1) 0).toUInt32 <<< 16) |||
    ((data.getD (offset + 2) 0).toUInt32 <<< 8) ||| (data.getD (offset + 3) 0).toUInt32

/-- `ReadLe32`. -/
def readLe32 (data : List UInt8) (offset : Nat) : UInt32 :=
  (data.getD offset 0).toUInt32 ||| ((data.getD (offset + 1) 0).toUInt32 <<< 8) |||
    ((data.getD (offset + 2) 0).toUInt32 <<< 16) ||| ((data.getD (offset + 3) 0).toUInt32 <<< 24)

/-- The width and the height, if there are any. -/
def pictureSize (width height : UInt32) : Option (UInt32 × UInt32) :=
  if width ≠ 0 ∧ height ≠ 0 then some (width, height) else none

def decodePngHeader (data : List UInt8) : Option (UInt32 × UInt32) :=
  if data.length < 24 ∨ data.take 8 ≠ [0x89] ++ text "PNG" ++ [0x0D, 0x0A, 0x1A, 0x0A] then none
  else if (data.drop 12).take 4 ≠ text "IHDR" then none
  else pictureSize (readBe32 data 16) (readBe32 data 20)

def decodeBmpHeader (data : List UInt8) : Option (UInt32 × UInt32) :=
  if data.length < 26 ∨ data.take 2 ≠ text "BM" then none
  else pictureSize (readLe32 data 18) (readLe32 data 22)

def decodeJpegHeader (data : List UInt8) : Bool :=
  data.length ≥ 4 && data.take 2 == [0xFF, 0xD8] && data.drop (data.length - 2) == [0xFF, 0xD9]

def decodeSvgDocument (data : Text) : Bool :=
  (text "<svg").isPrefixOf (data.dropWhile fun c => c ∈ text " \n\t")

def loadTrueTypeFont (data : List UInt8) : Bool :=
  data.length ≥ 12 && (data.take 4 == [0, 1, 0, 0] || data.take 4 == text "OTTO")

structure FontCacheEntry where
  codepoint : UInt32 := 0
  pixels    : List UInt8 := []
  valid     : Bool := false
  deriving DecidableEq

/-- `g_FontCache`. -/
abbrev FontCache := Fin kFontCacheEntries → FontCacheEntry

def cacheFontGlyph (cache : FontCache) (codepoint : UInt32) (pixels : List UInt8) : Bool × FontCache :=
  match Lib.firstSlot fun i => (cache i).valid && (cache i).codepoint == codepoint || !(cache i).valid with
  | none   => (false, cache)
  | some i => (true, if (cache i).valid then cache else Function.update cache i ⟨codepoint, pixels, true⟩)

/-- The pictures that the test decodes, and the font that it loads. -/
def picturesOk : Bool :=
  let png := [0x89] ++ text "PNG" ++ [0x0D, 0x0A, 0x1A, 0x0A, 0, 0, 0, 13] ++ text "IHDR" ++ [0, 0, 0, 2, 0, 0, 0, 3]
  let bmp := text "BM" ++ List.replicate 16 0 ++ [2, 0, 0, 0, 3, 0, 0, 0]
  decodePngHeader png == some (2, 3) && decodeBmpHeader bmp == some (2, 3) &&
    decodeJpegHeader [0xFF, 0xD8, 0xFF, 0xD9] && decodeSvgDocument (text "<svg></svg>") &&
    loadTrueTypeFont [0, 1, 0, 0, 0, 0, 0, 0, 0, 0, 0, 0]

/-! ## The desktop phase -/

/-- `RunDesktopPhaseSelfTest`: the first window is the one that is copied and written back. -/
def runDesktopPhaseSelfTest (cache : FontCache) (wm : WindowManager) : Bool × FontCache × WindowManager :=
  let saved := wm.windows[0]?
  let (resizeOk, wm) := wm.resizeWindow 0 300 180
  let (snapOk, wm) := wm.snapWindow 0 .left
  let (otherOk, wm) := wm.switchVirtualDesktop 1
  let (desktopsOk, wm) := if otherOk then wm.switchVirtualDesktop 0 else (false, wm)
  let wm := saved.elim wm fun window => wm.setWindow 0 fun _ => window
  if resizeOk && snapOk && desktopsOk && picturesOk then
    let (glyphOk, cache) := cacheFontGlyph cache 'A'.toNat.toUInt32 [0x18, 0x24, 0x42, 0x7E, 0x42, 0x42, 0, 0]
    (glyphOk, cache, wm)
  else (false, cache, wm)

/-! ## The applications -/

/-- The `icon_path` of the table. -/
def iconPath : AppKind → String
  | .fileManager      => "/system/icons/files.bmp"
  | .textEditor       => "/system/icons/editor.bmp"
  | .imageViewer      => "/system/icons/images.bmp"
  | .calculator       => "/system/icons/calculator.bmp"
  | .settings         => "/system/icons/settings.bmp"
  | .taskManager      => "/system/icons/tasks.bmp"
  | .packageManager   => "/system/icons/packages.bmp"
  | .systemMonitor    => "/system/icons/monitor.bmp"
  | .terminalEmulator => "/system/icons/terminal.bmp"
  | .softwareCenter   => "/system/icons/software.bmp"

/-- `ApplicationRegistered`. -/
def applicationRegistered (app : AppKind) : Bool := kApplications.any fun descriptor => descriptor.app = app

/-- `registry_ok`, `descriptors_ok` and `paths_ok`. -/
def registryOk : Bool :=
  let apps : List AppKind := [.fileManager, .textEditor, .imageViewer, .calculator, .settings, .taskManager,
    .packageManager, .systemMonitor, .terminalEmulator, .softwareCenter]
  let absolute := fun path : String => path.toList.head? = some '/'
  apps.all applicationRegistered && apps.all (fun app => (findApplication app).isSome) &&
    [AppKind.fileManager, .terminalEmulator].all fun app =>
      (findApplication app).any (fun descriptor => absolute descriptor.executablePath) && absolute (iconPath app)

variable {K : Type}

namespace Desktop

/-- The loop that launches the applications, from an index on. -/
def launchAll (k : AppKernel K) : List ApplicationDescriptor → Bool → Desktop K → Bool × Desktop K
  | [], ok, d => (ok, d)
  | app :: apps, ok, d =>
    let (launched, d) := d.launchApplicationById k (some app.id)
    launchAll k apps (launched && ok) d

/-- `taskbar_running_ok`. -/
def taskbarRunningOk (d : Desktop K) : Bool :=
  kApplications.all fun app =>
    (d.apps.findAppRuntime app.app).any (fun i => (d.apps.runtimes i).state = .running) &&
      (d.wm.findWindowByApp app.app app.desktop).isSome

/-- The window of an application satisfies a test. -/
def windowOk (d : Desktop K) (app : ApplicationDescriptor) (test : Window → Bool) : Bool :=
  ((d.wm.findWindowByApp app.app app.desktop).bind fun i => d.wm.windows[i]?).any test

/-- `watchdog_ok`. -/
def watchdogCheck (d : Desktop K) (app : AppKind) : Bool × Desktop K :=
  match d.apps.findAppRuntime app with
  | none   => (false, d)
  | some i =>
    let d := (d.setRuntime i fun runtime => { runtime with state := .running, missedHeartbeatCount := 2 }).appWatchdogTick
    ((d.apps.runtimes i).state = .notResponding, d.appHeartbeat app)

/-- `CloseWindow` at the index that `FindWindowByApp` gives, which is none at `-1`. -/
def closeFound (k : AppKernel K) (d : Desktop K) (app : ApplicationDescriptor) : Desktop K :=
  match d.wm.findWindowByApp app.app app.desktop with
  | none            => d
  | some closeIndex => d.closeWindow k closeIndex

/-- `restore_ok`, `close_relaunch_ok` and `watchdog_ok`, for the window of an application. -/
def restartCheck (k : AppKernel K) (d : Desktop K) (app : ApplicationDescriptor) : Bool × Desktop K :=
  match d.wm.findWindowByApp app.app app.desktop with
  | none       => (false, d)
  | some index =>
    let (relaunched, d) := (d.minimizeWindow index).launchApplicationById k (some app.id)
    let restoreOk := relaunched && d.windowOk app fun window => !window.minimized
    let (relaunched, d) := (d.closeFound k app).launchApplicationById k (some app.id)
    let closeRelaunchOk := relaunched && d.windowOk app (·.visible)
    let (watchdogOk, d) := d.watchdogCheck app.app
    (restoreOk && closeRelaunchOk && watchdogOk, d)

/-- What `RunApplicationsSelfTest` does before it writes the globals back. -/
def tryApplications (k : AppKernel K) (d : Desktop K) : Bool × Desktop K :=
  let (launchAllOk, d) := launchAll k kApplications true d
  let taskbarOk := d.taskbarRunningOk
  let (missing, d) := d.launchApplicationById k (some "missing")
  let missingIdOk := !missing && d.wm.notificationText.isSome && d.wm.notificationColor == kTheme.close
  let (restartOk, d) := match findApplication .terminalEmulator with
    | none          => (false, d)
    | some terminal => d.restartCheck k terminal
  (registryOk && launchAllOk && taskbarOk && missingIdOk && restartOk, d)

/-- The placements are not among the globals that are written back. -/
def runApplicationsSelfTest (k : AppKernel K) (saved : Desktop K) : Bool × Desktop K :=
  let (ok, d) := saved.tryApplications k
  (ok,
    { d with
      wm := { d.wm with
        windows := saved.wm.windows
        activeDesktop := saved.wm.activeDesktop
        activeWindowIndex := saved.wm.activeWindowIndex
        notificationText := saved.wm.notificationText
        notificationColor := saved.wm.notificationColor }
      apps := { d.apps with runtimes := saved.apps.runtimes } })

end Desktop

/-! ## The native applications -/

namespace Apps

/-- From `rename_ok` to `delete_ok`. -/
def fileChecks (a : Apps) : Bool × Apps :=
  let exist := fun (a : Apps) (path : String) => (a.findNativeFile (text path)).isSome
  let a := { a with fileManager := { a.fileManager with selectedPath := text "/tmp/readme" } }
  let (renamed, a) := a.fileManagerMoveSelected (text "/tmp/readme-renamed")
  let renameOk := renamed && exist a "/tmp/readme-renamed"
  let (copied, a) := a.fileManagerCopySelected (text "/tmp/readme-copy")
  let copyOk := copied && exist a "/tmp/readme-copy"
  let (moved, a) := a.fileManagerMoveSelected (text "/tmp/readme-moved")
  let moveOk := moved && exist a "/tmp/readme-moved"
  let (deleted, a) := a.nativeFileDelete (text "/tmp/readme-copy")
  (renameOk && copyOk && moveOk && deleted && !exist a "/tmp/readme-copy", a)

/-- From `editor_new_ok` to `editor_wrap_scroll_ok`. -/
def editorChecks (a : Apps) : Bool × Apps :=
  let key := fun (a : Apps) (c : Char) (modifiers : UInt32) => a.textEditorHandleKey c.toNat.toUInt32 modifiers
  let (created, a) := a.textEditorNewFile
  let newOk := created && a.editor.dirty
  let a := (key a 'h' 0).2
  let a := (key a 'i' 0).2
  let cursorOk := a.editor.cursor == 2
  let (saved, a) := a.textEditorSaveAs (text "/tmp/created.txt")
  let saveAsOk := saved && (a.findNativeFile (text "/tmp/created.txt")).isSome
  let (opened, a) := a.textEditorOpenFile (text "/tmp/created.txt")
  let openOk := opened && a.editor.text == text "hi"
  let a := (key a '!' 0).2
  let (saved, a) := key a 's' 1
  let saveOk := saved && !a.editor.dirty
  let (selected, a) := key a 'a' 1
  let selectOk := selected && a.editor.selectionActive
  let a := { a with editor := { a.editor with scrollLine := 0 } }
  let wrapScrollOk := decide (a.editor.cursor > 0) && a.editor.scrollLine == 0
  (newOk && cursorOk && saveAsOk && openOk && saveOk && selectOk && wrapScrollOk, a)

/-- The keys of `calc_add_ok` to `calc_clear_ok`, each row with what the display has to show after it. -/
def calculatorChecks (c : CalculatorState) : Bool × CalculatorState :=
  let rows : List (List UInt32 × Text) :=
    [([67, 49, 50, 43, 51, 61], text "15"), ([42, 50, 61], text "30"), ([8], text "3"), ([67], text "0")]
  rows.foldl (fun (ok, c) row =>
    -- only the last key of a row is asked whether it was handled
    let (handled, c) := row.1.foldl (fun r key => calculatorHandleKey r.2 key) (false, c)
    (ok && handled && c.expression == row.2, c)) (true, c)

/-- `settings_pages_ok`, which ends at the first page that is not shown, and `settings_controls_ok`. -/
def settingsChecks (s : SettingsState) : Bool × SettingsState :=
  let (pagesOk, s) := (List.range 8).foldl (fun (ok, s) page =>
    if !ok then (false, s)
    else
      let (handled, s) := settingsHandleKey s ('1'.toNat + page).toUInt32
      (handled && s.page == page.toUInt32, s)) (true, s)
  let oldVolume := s.volume
  let (handled, s) := settingsHandleKey s '+'.toNat.toUInt32
  (pagesOk && handled && s.volume > oldVolume, s)

/-- `terminal_kill_ok` and `task_manager_ok`. -/
def processChecks (a : Apps) : Bool × Apps :=
  match a.findAppRuntime .packageManager with
  | none   => (false, a)
  | some i =>
    let a := a.setRuntime i { a.runtimes i with state := .running, processId := 4242, threadId := 4343 }
    let (killed, a) := a.terminalKillProcess (text "4242")
    let killOk := killed && (a.runtimes i).state = .notRunning
    let a := a.setRuntime i { a.runtimes i with state := .notResponding, processId := 5252 }
    (killOk && (a.runtimes i).state = .notResponding && (a.runtimes i).processId == 5252, a)

/-- The columns and rows that `TerminalReflowForWindow` stores. -/
def terminalReflowForWindow (window : Window) : UInt32 × UInt32 :=
  let contentWidth := if window.bounds.width > 36 then window.bounds.width - 36 else window.bounds.width
  let contentHeight :=
    if window.bounds.height > kTitleBarHeight + 36 then window.bounds.height - kTitleBarHeight - 36
    else window.bounds.height
  (contentWidth / 12, if contentHeight / 20 = 0 then 1 else contentHeight / 20)

/-- `terminal_resize_ok` and `terminal_selection_ok`. -/
def terminalChecks (a : Apps) : Bool × Apps :=
  let window : Window :=
    { title := some "term", bounds := ⟨0, 0, 720, 420⟩, restoreBounds := ⟨0, 0, 720, 420⟩, visible := true,
      focused := true, app := .terminalEmulator }
  let (columns, rows) := terminalReflowForWindow window
  let a := (a.terminalHandleKey 'x'.toNat.toUInt32).2
  let a := (a.terminalHandleKey 24).2
  let session := a.terminal.session
  (columns > 0 && rows > 0 && (session.selectionActive || session.input.head? = some 'x'.toUInt8), a)

/-- From the calculator to the terminal. -/
def nativeChecks (a : Apps) : Bool × Apps :=
  let (calculatorOk, calculator) := calculatorChecks a.calculator
  let (settingsOk, settings) := settingsChecks a.settings
  let (processesOk, a) := { a with calculator := calculator, settings := settings }.processChecks
  let (terminalOk, a) := a.terminalChecks
  (calculatorOk && settingsOk && processesOk && terminalOk, a)

end Apps

namespace Desktop

/-- From `files_list_ok` to `create_folder_ok`. -/
def folderChecks (k : AppKernel K) (d : Desktop K) : Bool × Desktop K :=
  let filesListOk :=
    (d.apps.findNativeFile (text "/")).isSome && (d.apps.findNativeFile (text "/tmp/readme")).isSome
  let (opened, d) := d.fileManagerOpenPath k (text "/tmp")
  let openFolderOk := opened && d.apps.fileManager.currentPath == text "/tmp"
  let (back, d) := d.inApps d.apps.fileManagerBack
  let backOk := back && d.apps.fileManager.currentPath == text "/"
  let (forward, d) := d.inApps d.apps.fileManagerForward
  let forwardOk := forward && d.apps.fileManager.currentPath == text "/tmp"
  let (created, d) := d.inApps (d.apps.fileManagerCreateFolder (text "docs"))
  let createFolderOk := created && (d.apps.findNativeFile (text "/tmp/docs")).isSome
  (filesListOk && openFolderOk && backOk && forwardOk && createFolderOk, d)

/-- From `association_ok` to `error_ok`. -/
def associationChecks (k : AppKernel K) (d : Desktop K) : Bool × Desktop K :=
  let (opened, d) := d.fileManagerOpenPath k (text "/tmp/notes.txt")
  let associationOk := opened && d.apps.editor.path == text "/tmp/notes.txt"
  let breadcrumbOk := d.apps.fileManager.currentPath == text "/tmp"
  let (missing, d) := d.fileManagerOpenPath k (text "/missing")
  (associationOk && breadcrumbOk && !missing && d.apps.fileManager.error == text "filesystem error", d)

/-- What `RunNativeAppsUsabilitySelfTest` does before it writes the globals back. -/
def tryNativeApps (k : AppKernel K) (d : Desktop K) : Bool × Desktop K :=
  let (foldersOk, d) := d.folderChecks k
  let (filesOk, d) := d.inApps d.apps.fileChecks
  let (associationOk, d) := d.associationChecks k
  let (editorOk, d) := d.inApps d.apps.editorChecks
  let d := { d with wm := { d.wm with activeWindowIndex := none } }
  let (nativeOk, d) := d.inApps d.apps.nativeChecks
  (foldersOk && filesOk && associationOk && editorOk && nativeOk, d)

/-- The windows are not among the globals that are written back, and neither is the active one. -/
def runNativeAppsUsabilitySelfTest (k : AppKernel K) (saved : Desktop K) : Bool × Desktop K :=
  let (ok, d) := saved.tryNativeApps k
  (ok,
    { d with apps := { d.apps with
        runtimes := saved.apps.runtimes
        files := saved.apps.files
        fileManager := saved.apps.fileManager
        editor := saved.apps.editor
        calculator := saved.apps.calculator
        settings := saved.apps.settings
        terminal := { d.apps.terminal with session := saved.apps.terminal.session } } })

end Desktop
end Gui
end UefiBoot
