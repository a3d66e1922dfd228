import UefiBoot.Memory.Pmm

/-!
# `Gui.State` — the tables of `gui.cpp`

One record per C struct and one field per global, in two groups: `WindowManager` is what the desktop keeps of its
windows and of the pointer, `Apps` what it keeps of the applications. The used part of `g_Windows` is a list, back
to front, and its length is `window_count`; an index that is `-1` when there is no window is an `Option`. What is
only drawn (the pixels, the backup under the cursor, the extent of the terminal) is not here.

The processes behind the applications belong to the kernel. The window manager reaches them through the three calls
of `AppKernel`, and keeps a kernel state that it does not look into.
-/

namespace UefiBoot
namespace Gui

abbrev kMaxWindows : Nat := 12
abbrev kApplicationCapacity : Nat := 10
abbrev kNativeFileCapacity : Nat := 16
def kTopBarHeight : UInt32 := 38
def kTaskBarHeight : UInt32 := 78
def kTitleBarHeight : UInt32 := 30
def kButtonSize : UInt32 := 16
def kButtonGap : UInt32 := 7
def kVirtualDesktopCount : UInt8 := 4
def kDefaultAppMinWidth : UInt32 := 480
def kDefaultAppMinHeight : UInt32 := 320
def kLauncherButtonWidth : UInt32 := 96
def kLauncherButtonHeight : UInt32 := 34
def kLaunchTransitionTicks : UInt8 := 3
abbrev kMaxTerminalLines : Nat := 64
abbrev kVisibleTerminalLines : Nat := 12
abbrev kTerminalHistoryEntries : Nat := 8
abbrev kTerminalCommandLength : Nat := 64
abbrev kTerminalInputLength : Nat := 80
abbrev kTerminalSelectionLength : Nat := 96
abbrev kTerminalLineLength : Nat := 96
abbrev kPathLength : Nat := 48
abbrev kFileContentLength : Nat := 96
abbrev kFileManagerErrorLength : Nat := 64
abbrev kEditorTextLength : Nat := 384
abbrev kCalculatorExpressionLength : Nat := 32

/-- The colours of `kTheme` that are more than drawn. -/
structure Theme where
  window       : UInt32
  terminal     : UInt32
  monitor      : UInt32
  borderActive : UInt32
  close        : UInt32
  minimize     : UInt32
  maximize     : UInt32
  text         : UInt32
  textMuted    : UInt32
  accent       : UInt32

def kTheme : Theme :=
  { window := 0xFF253241
    terminal := 0xFF07120F
    monitor := 0xFF342D46
    borderActive := 0xFF6DB7D8
    close := 0xFFE25E6F
    minimize := 0xFFE1B955
    maximize := 0xFF61C083
    text := 0xFFE8EEF4
    textMuted := 0xFF9FB0C0
    accent := 0xFF66D9A2 }

/-! ## Windows -/

structure Rect where
  x      : UInt32 := 0
  y      : UInt32 := 0
  width  : UInt32 := 0
  height : UInt32 := 0
  deriving DecidableEq

inductive AppKind where
  | fileManager
  | textEditor
  | imageViewer
  | calculator
  | settings
  | taskManager
  | packageManager
  | systemMonitor
  | terminalEmulator
  | softwareCenter
  deriving DecidableEq

structure Window where
  title         : Option String := none
  bounds        : Rect := {}
  restoreBounds : Rect := {}
  color         : UInt32 := 0
  visible       : Bool := false
  minimized     : Bool := false
  maximized     : Bool := false
  focused       : Bool := false
  app           : AppKind := .fileManager
  desktop       : UInt8 := 0
  processId     : UInt64 := 0
  threadId      : UInt64 := 0
  deriving DecidableEq

structure AppPlacementState where
  app        : AppKind := .fileManager
  lastBounds : Rect := {}
  valid      : Bool := false
  deriving DecidableEq

inductive WindowControl where
  | none
  | close
  | minimize
  | maximize
  deriving DecidableEq

inductive CursorKind where
  | arrow
  | hand
  | move
  | resize
  deriving DecidableEq

structure WindowManager where
  framebuffer          : FramebufferInfo := {}
  windowManagerReady   : Bool := false
  windows              : List Window := []
  placements           : Fin kMaxWindows → AppPlacementState := fun _ => {}
  activeDesktop        : UInt8 := 0
  activeWindowIndex    : Option Nat := none
  mouseX               : Int32 := 0
  mouseY               : Int32 := 0
  leftButtonDown       : Bool := false
  dragWindowIndex      : Option Nat := none
  dragOffsetX          : Int32 := 0
  dragOffsetY          : Int32 := 0
  mouseDownWindowIndex : Option Nat := none
  mouseDownX           : Int32 := 0
  mouseDownY           : Int32 := 0
  dragging             : Bool := false
  hoveredControl       : WindowControl := .none
  hoveredWindowIndex   : Option Nat := none
  cursorKind           : CursorKind := .arrow
  notificationText     : Option String := none
  notificationColor    : UInt32 := kTheme.textMuted

/-! ## Applications -/

structure ApplicationDescriptor where
  app             : AppKind
  id              : String
  name            : String
  executablePath  : String
  color           : UInt32
  desktop         : UInt8
  minWidth        : UInt32
  minHeight       : UInt32
  preferredWidth  : UInt32
  preferredHeight : UInt32
  deriving DecidableEq

def kApplications : List ApplicationDescriptor := [
  ⟨.fileManager, "files", "File Manager", "/system/apps/files.app", kTheme.window, 0, 480, 320, 640, 420⟩,
  ⟨.textEditor, "edit", "Text Editor", "/system/apps/editor.app", 0xFF293844, 1, 560, 360, 760, 520⟩,
  ⟨.imageViewer, "image", "Image Viewer", "/system/apps/images.app", 0xFF263C3A, 1, 480, 320, 680, 440⟩,
  ⟨.calculator, "calc", "Calculator", "/system/apps/calculator.app", 0xFF3C3443, 1, 360, 260, 380, 300⟩,
  ⟨.settings, "set", "Settings", "/system/apps/settings.app", 0xFF303A45, 2, 420, 300, 520, 360⟩,
  ⟨.taskManager, "tasks", "Task Manager", "/system/apps/tasks.app", 0xFF303F38, 2, 480, 320, 640, 420⟩,
  ⟨.packageManager, "pkg", "Package Manager", "/system/apps/packages.app", 0xFF3C3847, 2, 480, 320, 640, 420⟩,
  ⟨.systemMonitor, "mon", "System Monitor", "/system/apps/monitor.app", kTheme.monitor, 0, 420, 300, 520, 360⟩,
  ⟨.terminalEmulator, "term", "Terminal Emulator", "/bin/terminal", kTheme.terminal, 0, 560, 360, 760, 480⟩,
  ⟨.softwareCenter, "store", "Software Center", "/system/apps/software.app", 0xFF343D3B, 3, 480, 320, 680, 440⟩]

/-- An entry of the table. -/
abbrev application (i : Fin kApplicationCapacity) : ApplicationDescriptor := kApplications[i]

/-- `FindApplication`. -/
def findApplication (app : AppKind) : Option ApplicationDescriptor := kApplications.find? (·.app = app)

/-- `FindApplicationById`. -/
def findApplicationById (id : Option String) : Option ApplicationDescriptor :=
  kApplications.find? fun descriptor => some descriptor.id = id

inductive AppLifecycleState where
  | notRunning
  | opening
  | running
  | minimized
  | failed
  | notResponding
  deriving DecidableEq

structure AppRuntimeState where
  app                  : AppKind := .fileManager
  state                : AppLifecycleState := .notRunning
  processId            : UInt64 := 0
  threadId             : UInt64 := 0
  launchCount          : UInt32 := 0
  missedHeartbeatCount : UInt32 := 0
  transitionTicks      : UInt8 := 0
  valid                : Bool := false
  deriving DecidableEq

/-- What a character array holds up to its terminator. -/
abbrev Text := List UInt8

/-- A string literal of the source. -/
def text (s : String) : Text := s.toList.map Char.toUInt8

structure NativeFileEntry where
  path      : Text := []
  content   : Text := []
  directory : Bool := false
  active    : Bool := false
  deriving DecidableEq

/-- The stacks are arrays of four paths; a path beyond them would lie in the field that follows. -/
structure FileManagerState where
  currentPath  : Text := []
  backStack    : Nat → Text := fun _ => []
  forwardStack : Nat → Text := fun _ => []
  selectedPath : Text := []
  error        : Text := []
  backCount    : Nat := 0
  forwardCount : Nat := 0

/-- The cursor stands at the end of what has been typed. -/
structure TextEditorState where
  path            : Text := []
  text            : Text := []
  cursor          : Nat := 0
  selectionStart  : Nat := 0
  selectionEnd    : Nat := 0
  scrollLine      : UInt32 := 0
  dirty           : Bool := false
  selectionActive : Bool := false
  deriving DecidableEq

structure CalculatorState where
  expression         : Text := []
  accumulator        : Int32 := 0
  current            : Int32 := 0
  pendingOperator    : UInt8 := 0
  hasPendingOperator : Bool := false
  showingResult      : Bool := false
  deriving DecidableEq

structure SettingsState where
  page      : UInt32 := 0
  volume    : UInt32 := 0
  darkTheme : Bool := false
  deriving DecidableEq

structure TerminalLine where
  text  : Text := []
  color : UInt32 := 0
  deriving DecidableEq

structure TerminalSessionState where
  input           : Text := []
  cursor          : Nat := 0
  selection       : Text := []
  cursorVisible   : Bool := false
  selectionActive : Bool := false
  deriving DecidableEq

/-- The globals of the terminal. The used parts of the transcript and of the history are lists, oldest first. -/
structure Terminal where
  lines             : List TerminalLine := []
  scrollOffset      : Int32 := 0
  cwd               : Text := text "/"
  rebootRequested   : Bool := false
  shutdownRequested : Bool := false
  history           : List Text := []
  historyCursor     : Int32 := -1
  session           : TerminalSessionState := {}

structure Apps where
  runtimes    : Fin kApplicationCapacity → AppRuntimeState := fun _ => {}
  files       : Fin kNativeFileCapacity → NativeFileEntry := fun _ => {}
  fileManager : FileManagerState := {}
  editor      : TextEditorState := {}
  calculator  : CalculatorState := {}
  settings    : SettingsState := {}
  terminal    : Terminal := {}

/-! ## The desktop -/

/-- What `gui.cpp` calls in `userspace.cpp`, over a kernel state of type `K`. The results are those of the C
    functions with their output parameters. -/
structure AppKernel (K : Type) where
  /-- `KernelLaunchUserApplication(app_id, executable_path, process_id, thread_id)`. -/
  launch : K → String → String → (Bool × UInt64 × UInt64) × K
  /-- `KernelStartUserApplicationEventLoop(process_id, app_id, thread_id)`. -/
  start  : K → UInt64 → String → (Bool × UInt64) × K
  /-- `KernelExitUserApplication(process_id, exit_code)`. -/
  exit   : K → UInt64 → Int32 → Bool × K

/-- A screen of 1024 by 768 pixels. -/
def smallScreen : FramebufferInfo := { baseAddress := 0x80000000, width := 1024, height := 768, pixelsPerScanline := 1024 }

/-- A kernel that never refuses: its state is the number of the process that was made last. -/
def countingKernel : AppKernel UInt64 :=
  { launch := fun last _ _ => ((true, last + 1, 0), last + 1)
    start := fun last processId _ => ((true, processId), last)
    exit := fun last _ _ => (true, last) }

structure Desktop (K : Type) where
  wm     : WindowManager := {}
  apps   : Apps := {}
  kernel : K

end Gui
end UefiBoot
