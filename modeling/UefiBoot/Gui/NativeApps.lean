import UefiBoot.Gui.State
import UefiBoot.Lib.Select

/-!
# `Gui.NativeApps` — files, file manager, editor, calculator and settings

The applications of the desktop are part of `gui.cpp`: they share a table of sixteen files, and each keeps its own
state. A character array of capacity `n` holds at most `n - 1` characters, and the functions that copy text cut it
off there. Opening a file launches its application, so that function is with the dispatcher.
-/

namespace UefiBoot
namespace Gui

/-! ## Text -/

/-- `CopyText`. -/
def copyText (capacity : Nat) (source : Text) : Text := source.take (capacity - 1)

/-- `AppendText`. -/
def appendText (destination : Text) (capacity : Nat) (source : Text) : Text :=
  destination ++ source.take (capacity - 1 - destination.length)

@[simp] theorem length_copyText (capacity : Nat) (source : Text) :
    (copyText capacity source).length = min (capacity - 1) source.length := by
  unfold copyText
  rw [List.length_take]

theorem length_appendText_le {destination : Text} {capacity : Nat} (h : destination.length < capacity) (source : Text) :
    (appendText destination capacity source).length < capacity := by
  unfold appendText
  rw [List.length_append, List.length_take]
  omega

/-- The character that a key stands for. -/
def keyChar (key : UInt32) : UInt8 := key.toUInt8

def isKey (key : UInt32) (c : Char) : Bool := key == c.toNat.toUInt32

namespace Apps

/-! ## Files -/

/-- `FindNativeFile`. -/
def findNativeFile (a : Apps) (path : Text) : Option (Fin kNativeFileCapacity) :=
  Lib.firstSlot fun i => (a.files i).active && (a.files i).path == path

def setFile (a : Apps) (i : Fin kNativeFileCapacity) (entry : NativeFileEntry) : Apps :=
  { a with files := Function.update a.files i entry }

def nativeFileAdd (a : Apps) (path : Text) (directory : Bool) (content : Text) : Bool × Apps :=
  if (a.findNativeFile path).isSome then (false, a)
  else
    match Lib.firstSlot (fun i => !(a.files i).active) with
    | none   => (false, a)
    | some i =>
      (true, a.setFile i
        { path := copyText kPathLength path, content := copyText kFileContentLength content,
          directory := directory, active := true })

def nativeFileRename (a : Apps) (source target : Text) : Bool × Apps :=
  match a.findNativeFile source with
  | none   => (false, a)
  | some i =>
    if (a.findNativeFile target).isSome then (false, a)
    else (true, a.setFile i { a.files i with path := copyText kPathLength target })

/-- `NativeFileDelete`, and `NativeFileClear` in it. -/
def nativeFileDelete (a : Apps) (path : Text) : Bool × Apps :=
  match a.findNativeFile path with
  | none   => (false, a)
  | some i => (true, a.setFile i {})

/-! ## File manager -/

def fileManagerPushBack (m : FileManagerState) (path : Text) : FileManagerState :=
  let (stack, count) :=
    if m.backCount ≥ 4 then ((fun i => if i < 3 then m.backStack (i + 1) else m.backStack i), 3)
    else (m.backStack, m.backCount)
  { m with backStack := fun i => if i = count then copyText kPathLength path else stack i, backCount := count + 1 }

def fileManagerBack (a : Apps) : Bool × Apps :=
  let m := a.fileManager
  if m.backCount = 0 then (false, a)
  else
    let m := if m.forwardCount < 4 then
        { m with
          forwardStack := fun i =>
            if i = m.forwardCount then copyText kPathLength m.currentPath else m.forwardStack i
          forwardCount := m.forwardCount + 1 }
      else m
    let m := { m with backCount := m.backCount - 1 }
    (true, { a with fileManager := { m with currentPath := copyText kPathLength (m.backStack m.backCount) } })

def fileManagerForward (a : Apps) : Bool × Apps :=
  let m := a.fileManager
  if m.forwardCount = 0 then (false, a)
  else
    let m := fileManagerPushBack m m.currentPath
    let m := { m with forwardCount := m.forwardCount - 1 }
    (true, { a with fileManager := { m with currentPath := copyText kPathLength (m.forwardStack m.forwardCount) } })

def setFileManagerError (a : Apps) (error : Text) : Apps :=
  { a with fileManager := { a.fileManager with error := copyText kFileManagerErrorLength error } }

def fileManagerCreateFolder (a : Apps) (name : Text) : Bool × Apps :=
  let path := copyText kPathLength a.fileManager.currentPath
  let path := if path != text "/" then appendText path kPathLength (text "/") else path
  let path := appendText path kPathLength name
  let (ok, a) := a.nativeFileAdd path true []
  (ok, a.setFileManagerError (if ok then [] else text "create folder failed"))

def fileManagerCopySelected (a : Apps) (target : Text) : Bool × Apps :=
  match a.findNativeFile a.fileManager.selectedPath with
  | none   => (false, a.setFileManagerError (text "copy failed"))
  | some i =>
    let (ok, a) := a.nativeFileAdd target (a.files i).directory (a.files i).content
    (ok, a.setFileManagerError (if ok then [] else text "copy failed"))

def fileManagerMoveSelected (a : Apps) (target : Text) : Bool × Apps :=
  let (ok, a) := a.nativeFileRename a.fileManager.selectedPath target
  let a := if ok then
      { a with fileManager := { a.fileManager with selectedPath := copyText kPathLength target } }
    else a
  (ok, a.setFileManagerError (if ok then [] else text "move failed"))

/-! ## Text editor -/

def textEditorNewFile (a : Apps) : Bool × Apps :=
  (true, { a with editor := { a.editor with
    path := text "/tmp/untitled.txt", text := [], cursor := 0, scrollLine := 0, dirty := true,
    selectionActive := false } })

def textEditorOpenFile (a : Apps) (path : Text) : Bool × Apps :=
  match a.findNativeFile path with
  | none   => (false, a)
  | some i =>
    if (a.files i).directory then (false, a)
    else
      let content := copyText kEditorTextLength (a.files i).content
      (true, { a with editor := { a.editor with
        path := copyText kPathLength path
        text := content
        cursor := content.length
        scrollLine := 0
        dirty := false
        selectionActive := false } })

def textEditorSaveAs (a : Apps) (path : Text) : Bool × Apps :=
  let (ok, a) :=
    match a.findNativeFile path with
    | none   => a.nativeFileAdd path false a.editor.text
    | some i =>
      if (a.files i).directory then (false, a)
      else (true, a.setFile i { a.files i with content := copyText kFileContentLength a.editor.text })
  if !ok then (false, a)
  else (true, { a with editor := { a.editor with path := copyText kPathLength path, dirty := false } })

/-- `TextEditorSave`. -/
def textEditorSave (a : Apps) : Bool × Apps := a.textEditorSaveAs a.editor.path

def textEditorHandleKey (a : Apps) (key modifiers : UInt32) : Bool × Apps :=
  let e := a.editor
  let ctrl := (modifiers &&& 1) != 0
  if ctrl && (isKey key 's' || isKey key 'S') then a.textEditorSave
  else if ctrl && (isKey key 'o' || isKey key 'O') then a.textEditorOpenFile (text "/tmp/notes.txt")
  else if ctrl && (isKey key 'a' || isKey key 'A') then
    (true, { a with editor := { e with
      selectionStart := 0, selectionEnd := e.text.length, selectionActive := decide (e.text.length > 0) } })
  else if key = 8 ∨ key = 127 then
    (true, if e.cursor > 0 then
        { a with editor := { e with cursor := e.cursor - 1, text := e.text.take (e.cursor - 1), dirty := true } }
      else a)
  else
    let key := if isKey key '\n' || isKey key '\r' then 32 else key
    if key < 32 ∨ key > 126 ∨ e.cursor + 1 ≥ kEditorTextLength then (false, a)
    else
      let e := { e with text := e.text.take e.cursor ++ [keyChar key], cursor := e.cursor + 1, dirty := true }
      (true, { a with editor :=
        if (e.cursor / 40).toUInt32 > e.scrollLine + 8 then { e with scrollLine := e.scrollLine + 1 } else e })

/-! ## Calculator -/

/-- `CalculatorSetDisplay`: the decimal digits of a 32-bit number and its sign. -/
def calculatorSetDisplay (c : CalculatorState) (value : Int32) : CalculatorState :=
  let negative := decide (value < 0)
  let magnitude := if negative then (-value).toUInt32 else value.toUInt32
  { c with expression :=
      (if negative then text "-" else []) ++ (Nat.toDigits 10 magnitude.toNat).map Char.toUInt8 }

def calculatorApplyPending (c : CalculatorState) : CalculatorState :=
  if !c.hasPendingOperator then { c with accumulator := c.current }
  else if c.pendingOperator = '+'.toUInt8 then { c with accumulator := c.accumulator + c.current }
  else if c.pendingOperator = '-'.toUInt8 then { c with accumulator := c.accumulator - c.current }
  else if c.pendingOperator = '*'.toUInt8 then { c with accumulator := c.accumulator * c.current }
  else if c.pendingOperator = '/'.toUInt8 then
    if c.current ≠ 0 then { c with accumulator := c.accumulator / c.current } else c
  else c

def calculatorHandleKey (c : CalculatorState) (key : UInt32) : Bool × CalculatorState :=
  if key ≥ '0'.toNat.toUInt32 ∧ key ≤ '9'.toNat.toUInt32 then
    let c := if c.showingResult then { c with current := 0, showingResult := false } else c
    let c := { c with current := c.current * 10 + (key - '0'.toNat.toUInt32).toInt32 }
    (true, calculatorSetDisplay c c.current)
  else if isKey key '+' || isKey key '-' || isKey key '*' || isKey key '/' then
    let c := { calculatorApplyPending c with
      pendingOperator := keyChar key, hasPendingOperator := true, current := 0, showingResult := true }
    (true, calculatorSetDisplay c c.accumulator)
  else if isKey key '=' || isKey key '\n' || isKey key '\r' then
    let c := calculatorApplyPending c
    let c := { c with hasPendingOperator := false, current := c.accumulator, showingResult := true }
    (true, calculatorSetDisplay c c.accumulator)
  else if isKey key 'c' || isKey key 'C' then
    (true, { c with
      accumulator := 0, current := 0, hasPendingOperator := false, showingResult := true
      expression := copyText kCalculatorExpressionLength (text "0") })
  else if key = 8 ∨ key = 127 then
    let c := { c with current := c.current / 10 }
    (true, calculatorSetDisplay c c.current)
  else (false, c)

/-! ## Settings -/

def settingsHandleKey (s : SettingsState) (key : UInt32) : Bool × SettingsState :=
  if key ≥ '1'.toNat.toUInt32 ∧ key ≤ '8'.toNat.toUInt32 then (true, { s with page := key - '1'.toNat.toUInt32 })
  else if isKey key '+' ∧ s.volume < 100 then (true, { s with volume := s.volume + 4 })
  else if isKey key '-' ∧ s.volume ≥ 4 then (true, { s with volume := s.volume - 4 })
  else if isKey key 't' || isKey key 'T' then (true, { s with darkTheme := !s.darkTheme })
  else (false, s)

/-! ## The state that `InitNativeAppState` leaves -/

def initNativeAppState (a : Apps) : Apps :=
  let a := { a with files := fun _ => {} }
  let add := fun (a : Apps) (path : String) (directory : Bool) (content : String) =>
    (a.nativeFileAdd (text path) directory (text content)).2
  let a := add a "/" true ""
  let a := add a "/boot" true ""
  let a := add a "/kernel" true ""
  let a := add a "/tmp" true ""
  let a := add a "/tmp/readme" false "Antigravity OS terminal ready."
  let a := add a "/tmp/notes.txt" false "Antigravity OS notes"
  let a := add a "/tmp/SO.png" false "PNG image placeholder"
  { a with
    fileManager := { a.fileManager with
      currentPath := text "/", backCount := 0, forwardCount := 0, selectedPath := text "/tmp/readme", error := [] }
    editor :=
      { path := text "/tmp/notes.txt", text := text "Antigravity OS notes",
        cursor := (text "Antigravity OS notes").length, selectionStart := 0, selectionEnd := 0, scrollLine := 0,
        dirty := false, selectionActive := false }
    calculator :=
      { expression := text "0", accumulator := 0, current := 0, pendingOperator := 0, hasPendingOperator := false,
        showingResult := true }
    settings := { page := 0, volume := 64, darkTheme := true }
    terminal := { a.terminal with
      session := { input := [], cursor := 0, selection := [], cursorVisible := true, selectionActive := false } } }

end Apps
end Gui
end UefiBoot
