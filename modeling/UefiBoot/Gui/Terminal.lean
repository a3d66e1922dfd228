import UefiBoot.Gui.NativeApps

/-!
# `Gui.Terminal` — the terminal emulator

The terminal keeps a transcript of at most 64 lines and a history of at most 8 commands, dropping the oldest. A
command works on the files and on the terminal itself, and `kill` on the table of running applications.

`ExecuteTerminalCommand` and `ExecuteTerminalScript` call each other, but only `script demo` runs a script and its
script is fixed. `commandOf` is the command with the script it may run as a parameter, and
`executeTerminalCommand_eq` says that tying the knot once is enough.
-/

namespace UefiBoot
namespace Gui

/-- `TerminalColorFromAnsiCode`. -/
def terminalColorFromAnsiCode (code fallback : UInt32) : UInt32 :=
  match code.toNat with
  | 0  => kTheme.text
  | 30 => 0xFF1E252E
  | 31 => kTheme.close
  | 32 => kTheme.maximize
  | 33 => kTheme.minimize
  | 34 => kTheme.borderActive
  | 35 => 0xFFC678DD
  | 36 => kTheme.accent
  | 37 => kTheme.text
  | _  => fallback

def isDigit (c : UInt8) : Bool := '0'.toUInt8 ≤ c && c ≤ '9'.toUInt8

/-- The number that a row of digits stands for, in an unsigned integer of 32 bits. -/
def ansiCode (digits : Text) : UInt32 :=
  digits.foldl (fun code c => code * 10 + (c - '0'.toUInt8).toUInt32) 0

/-- The loop of `TerminalParseAnsiLine`: the characters kept so far, the colour, and whether an escape sequence was
    seen. Every turn reads at least one character, so the fuel is the length of the text. -/
def terminalParseAnsi (capacity : Nat) : Nat → Text → Text → UInt32 → Bool → Text × UInt32 × Bool
  | 0, _, out, color, parsed => (out, color, parsed)
  | _, [], out, color, parsed => (out, color, parsed)
  | fuel + 1, c :: rest, out, color, parsed =>
    if ¬ out.length + 1 < capacity then (out, color, parsed)
    else if c = 0x1B ∧ rest.head? = some '['.toUInt8 then
      let digits := (rest.drop 1).takeWhile isDigit
      match (rest.drop 1).dropWhile isDigit with
      | [] => (out, color, parsed)
      | d :: rest =>
        if d = 'm'.toUInt8 then
          terminalParseAnsi capacity fuel rest out
            (terminalColorFromAnsiCode (if digits.isEmpty then 0 else ansiCode digits) color) true
        else terminalParseAnsi capacity fuel rest (out ++ [d]) color parsed
    else terminalParseAnsi capacity fuel rest (out ++ [c]) color parsed

namespace Terminal

def maxScroll (t : Terminal) : Int32 :=
  if t.lines.length > kVisibleTerminalLines then Int32.ofNat (t.lines.length - kVisibleTerminalLines) else 0

def terminalAppendLine (t : Terminal) (line : Text) (color : UInt32) : Terminal :=
  let lines := if t.lines.length ≥ kMaxTerminalLines then t.lines.drop 1 else t.lines
  let (stripped, lineColor, parsed) := terminalParseAnsi kTerminalLineLength line.length line [] color false
  let kept := if parsed then stripped else copyText kTerminalLineLength line
  let t := { t with lines := lines ++ [⟨kept, lineColor⟩] }
  if t.scrollOffset > t.maxScroll then { t with scrollOffset := t.maxScroll } else t

def terminalClear (t : Terminal) : Terminal := { t with lines := [], scrollOffset := 0 }

def terminalRecordHistory (t : Terminal) (command : Text) : Terminal :=
  if command.isEmpty then t
  else
    let history := if t.history.length ≥ kTerminalHistoryEntries then t.history.drop 1 else t.history
    let history := history ++ [copyText kTerminalCommandLength command]
    { t with history := history, historyCursor := Int32.ofNat history.length }

def terminalRecallHistory (t : Terminal) (delta : Int32) : Text × Terminal :=
  if t.history.length = 0 then ([], t)
  else
    let count := Int32.ofNat t.history.length
    let cursor := (if t.historyCursor < 0 then count else t.historyCursor) + delta
    let cursor := if cursor < 0 then 0 else cursor
    let cursor := if cursor ≥ count then count - 1 else cursor
    (t.history.getD cursor.toInt.toNat [], { t with historyCursor := cursor })

/-- The commands that `TerminalAutocompleteCommand` knows. -/
def kCommands : List String :=
  ["help", "clear", "mem", "cpu", "version", "uptime", "ls", "pwd", "cd /", "cd /boot", "cd /tmp", "cat readme",
    "mkdir ", "touch ", "echo ", "ps", "kill ", "reboot", "shutdown", "color demo", "script demo"]

def terminalAutocompleteCommand (partialCommand : Text) : Text :=
  (kCommands.find? fun command => partialCommand.isPrefixOf (text command)).elim partialCommand text

end Terminal

namespace Apps

/-- `TerminalAppendLine` on the terminal of the desktop. -/
def print (a : Apps) (line : Text) (color : UInt32) : Apps :=
  { a with terminal := a.terminal.terminalAppendLine line color }

def terminalPathFromArgument (a : Apps) (argument : Text) : Text :=
  if argument.isEmpty then copyText kPathLength a.terminal.cwd
  else if argument.head? = some '/'.toUInt8 then copyText kPathLength argument
  else
    let destination := copyText kPathLength a.terminal.cwd
    let destination :=
      if destination != text "/" then appendText destination kPathLength (text "/") else destination
    appendText destination kPathLength argument

/-- The number in the argument of `kill`, in 64 bits; none if it is empty or not all digits. -/
def killTarget (argument : Text) : Option UInt64 :=
  if argument.isEmpty ∨ !argument.all isDigit then none
  else some (argument.foldl (fun processId c => processId * 10 + (c - '0'.toUInt8).toUInt64) 0)

/-- The application that `TerminalKillProcess` finds under a process id. -/
def findKillTarget (a : Apps) (processId : UInt64) : Option (Fin kApplicationCapacity) :=
  Lib.firstSlot fun i =>
    (a.runtimes i).valid && (a.runtimes i).processId == processId && (a.runtimes i).state != .notRunning

def setRuntime (a : Apps) (i : Fin kApplicationCapacity) (runtime : AppRuntimeState) : Apps :=
  { a with runtimes := Function.update a.runtimes i runtime }

def terminalKillProcess (a : Apps) (argument : Text) : Bool × Apps :=
  match killTarget argument with
  | none           => (false, a)
  | some processId =>
    match a.findKillTarget processId with
    | none   => (false, a)
    | some i =>
      (true, (a.setRuntime i { a.runtimes i with
        state := .notRunning, processId := 0, threadId := 0, transitionTicks := 0 }).print
          (text "kill: process terminated") kTheme.minimize)

/-- A command after it has been recorded in the history, with the script that it may run. -/
def commandOf (script : Apps → Text → Bool × Apps) (a : Apps) (command : Text) : Bool × Apps :=
  let is := fun s : String => command == text s
  let startsWith := fun s : String => (text s).isPrefixOf command
  if is "help" then
    let a := a.print (text "help mem cpu clear version uptime") kTheme.accent
    let a := a.print (text "ls pwd cd cat mkdir touch echo ps kill") kTheme.accent
    (true, a.print (text "reboot shutdown complete history script") kTheme.accent)
  else if is "clear" then
    (true, ({ a with terminal := a.terminal.terminalClear } : Apps).print (text "> clear") kTheme.textMuted)
  else if is "mem" then (true, a.print (text "mem: heap online, pages tracked") kTheme.text)
  else if is "cpu" then (true, a.print (text "cpu: x86_64 irq apic smp ready") kTheme.text)
  else if is "version" then (true, a.print (text "version: Antigravity OS 0.13") kTheme.text)
  else if is "uptime" then (true, a.print (text "uptime: boot session active") kTheme.text)
  else if is "ls" then (true, a.print (text "boot kernel tmp readme notes.txt") kTheme.text)
  else if is "pwd" then (true, a.print a.terminal.cwd kTheme.text)
  else if is "cd" || is "cd /" then
    (true, ({ a with terminal := { a.terminal with cwd := text "/" } } : Apps).print (text "cwd: /") kTheme.text)
  else if is "cd /boot" then
    (true,
      ({ a with terminal := { a.terminal with cwd := text "/boot" } } : Apps).print (text "cwd: /boot") kTheme.text)
  else if is "cd /tmp" then
    (true, ({ a with terminal := { a.terminal with cwd := text "/tmp" } } : Apps).print (text "cwd: /tmp") kTheme.text)
  else if startsWith "cd " then (true, a.print (text "cd: no such directory") kTheme.close)
  else if is "cat readme" || is "cat /tmp/readme" then
    (true, a.print (text "Antigravity OS terminal ready.") kTheme.text)
  else if startsWith "cat " then
    match a.findNativeFile (a.terminalPathFromArgument (command.drop 4)) with
    | some i =>
      if !(a.files i).directory then (true, a.print (a.files i).content kTheme.text)
      else (true, a.print (text "cat: file not found") kTheme.close)
    | none => (true, a.print (text "cat: file not found") kTheme.close)
  else if startsWith "mkdir " then
    let (ok, a) := a.nativeFileAdd (a.terminalPathFromArgument (command.drop 6)) true []
    if ok then (true, a.print (text "mkdir: created") kTheme.text)
    else (false, a.print (text "mkdir: failed") kTheme.close)
  else if startsWith "touch " then
    let path := a.terminalPathFromArgument (command.drop 6)
    let (ok, a) := if (a.findNativeFile path).isSome then (true, a) else a.nativeFileAdd path false []
    if ok then (true, a.print (text "touch: ok") kTheme.text)
    else (false, a.print (text "touch: failed") kTheme.close)
  else if startsWith "echo " then (true, a.print (command.drop 5) kTheme.text)
  else if is "ps" then
    let a := a.print (text "PID  APP     STATE") kTheme.textMuted
    (true, (List.finRange kApplicationCapacity).foldl
      (fun a i => if (a.runtimes i).valid && (a.runtimes i).processId != 0 then
        a.print (text "app process listed") kTheme.text else a) a)
  else if startsWith "kill " then
    let (ok, a) := a.terminalKillProcess (command.drop 5)
    if ok then (true, a) else (false, a.print (text "kill: process not found") kTheme.close)
  else if is "reboot" then
    (true, ({ a with terminal := { a.terminal with rebootRequested := true } } : Apps).print
      (text "reboot: request queued") kTheme.minimize)
  else if is "shutdown" then
    (true, ({ a with terminal := { a.terminal with shutdownRequested := true } } : Apps).print
      (text "shutdown: request queued") kTheme.minimize)
  else if is "color demo" then
    (true, a.print ([0x1B] ++ text "[31mred " ++ [0x1B] ++ text "[32mgreen " ++ [0x1B] ++ text "[36mcyan") kTheme.text)
  else if is "history-prev" then
    let (line, terminal) := a.terminal.terminalRecallHistory (-1)
    (true, ({ a with terminal := terminal } : Apps).print line kTheme.textMuted)
  else if startsWith "complete " then
    (true, a.print (Terminal.terminalAutocompleteCommand (command.drop 9)) kTheme.text)
  else if is "script demo" then
    script (a.print (text "script: mem;cpu;uptime") kTheme.textMuted) (text "mem;cpu;uptime")
  else (false, a.print (text "shell: unknown command") kTheme.close)

/-- `ExecuteTerminalCommand` with the script that it may run. -/
def executeCommandWith (script : Apps → Text → Bool × Apps) (a : Apps) (command : Text) : Bool × Apps :=
  let recorded := command != text "history-prev" && !(text "complete ").isPrefixOf command
  commandOf script
    (if recorded then { a with terminal := a.terminal.terminalRecordHistory command } else a) command

/-- The loop of `ExecuteTerminalScript`: the characters left, the command gathered so far and whether all commands
    succeeded. A command that is too long is cut off. -/
def scriptLoop (execute : Apps → Text → Bool × Apps) : Text → Text → Bool → Apps → Bool × Apps
  | [], command, allOk, a =>
    if command.length > 0 then
      let (ok, a) := execute a command
      (allOk && ok, a)
    else (allOk, a)
  | c :: rest, command, allOk, a =>
    if c = ';'.toUInt8 then
      if command.length > 0 then
        let (ok, a) := execute a command
        scriptLoop execute rest [] (allOk && ok) a
      else scriptLoop execute rest [] allOk a
    else scriptLoop execute rest (if command.length + 1 < kTerminalCommandLength then command ++ [c] else command) allOk a

def executeScriptWith (execute : Apps → Text → Bool × Apps) (a : Apps) (script : Text) : Bool × Apps :=
  scriptLoop execute script [] true a

/-- `ExecuteTerminalCommand`. The commands of the demo script run no script. -/
def executeTerminalCommand : Apps → Text → Bool × Apps :=
  executeCommandWith (executeScriptWith (executeCommandWith fun a _ => (false, a)))

/-- `ExecuteTerminalScript`. -/
def executeTerminalScript : Apps → Text → Bool × Apps := executeScriptWith executeTerminalCommand

/-- The script that `script demo` runs, as the commands it consists of. -/
theorem executeScriptWith_demo (execute : Apps → Text → Bool × Apps) (a : Apps) :
    executeScriptWith execute a (text "mem;cpu;uptime") =
      let (mem, a) := execute a (text "mem")
      let (cpu, a) := execute a (text "cpu")
      let (uptime, a) := execute a (text "uptime")
      (((true && mem) && cpu) && uptime, a) := rfl

/-- Only one script is ever asked for. -/
theorem executeCommandWith_congr {script script' : Apps → Text → Bool × Apps}
    (h : ∀ a, script a (text "mem;cpu;uptime") = script' a (text "mem;cpu;uptime")) :
    executeCommandWith script = executeCommandWith script' := by
  funext a command
  unfold executeCommandWith commandOf
  simp only [h]

/-- A command other than `script demo` runs no script. -/
theorem executeCommandWith_of_ne {command : Text} (h : command ≠ text "script demo")
    (script script' : Apps → Text → Bool × Apps) (a : Apps) :
    executeCommandWith script a command = executeCommandWith script' a command := by
  have hdemo : (command == text "script demo") = false := beq_eq_false_iff_ne.mpr h
  unfold executeCommandWith commandOf
  simp only [hdemo, Bool.false_eq_true, if_false]

/-- **The two functions as the source has them**, each calling the other. -/
theorem executeTerminalCommand_eq : executeTerminalCommand = executeCommandWith executeTerminalScript := by
  unfold executeTerminalScript
  apply executeCommandWith_congr
  intro a
  have hsame : ∀ command ∈ [text "mem", text "cpu", text "uptime"], ∀ a,
      executeCommandWith (fun a _ => (false, a)) a command = executeTerminalCommand a command := by
    intro command hc a
    have hne : command ≠ text "script demo" := by
      rintro rfl
      exact absurd hc (by decide)
    exact executeCommandWith_of_ne hne _ _ a
  rw [executeScriptWith_demo, executeScriptWith_demo]
  simp only [hsame _ (List.mem_cons_self), hsame (text "cpu") (by simp), hsame (text "uptime") (by simp)]

def terminalSubmitInput (a : Apps) : Bool × Apps :=
  let input := a.terminal.session.input
  let (ok, a) := (a.print input kTheme.textMuted).executeTerminalCommand input
  (ok, { a with terminal := { a.terminal with session := { a.terminal.session with input := [], cursor := 0 } } })

def terminalHandleKey (a : Apps) (key : UInt32) : Bool × Apps :=
  let a := { a with terminal := { a.terminal with
    session := { a.terminal.session with cursorVisible := !a.terminal.session.cursorVisible } } }
  let session := a.terminal.session
  let set := fun session : TerminalSessionState => { a with terminal := { a.terminal with session := session } }
  if isKey key '\n' || isKey key '\r' then a.terminalSubmitInput
  else if key = 8 ∨ key = 127 then
    (true, if session.cursor > 0 then
        set { session with cursor := session.cursor - 1, input := session.input.take (session.cursor - 1) }
      else a)
  else if key = 24 then
    let selection := copyText kTerminalSelectionLength ((a.terminal.lines.getLast?.map (·.text)).getD [])
    (true, set { session with selection := selection, selectionActive := !selection.isEmpty })
  else if key < 32 ∨ key > 126 ∨ session.cursor + 1 ≥ kTerminalInputLength then (false, a)
  else
    (true, set { session with
      input := session.input.take session.cursor ++ [keyChar key], cursor := session.cursor + 1 })

end Apps
end Gui
end UefiBoot
