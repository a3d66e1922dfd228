import UefiBoot.Gui.FileTable
import UefiBoot.Gui.Handlers
import UefiBoot.Gui.History

/-!
# `Gui.Creation` — folders and files that are created by name

The file manager and the terminal put the directory and the name together in an array of 48 bytes, one piece after the
other. What comes out is the full path up to the length of the array (`createFolder_eq`, `terminalPath_eq`), whatever
the pieces are. A path that is made in this way is stored as it is, so after a success it is the path of exactly one
file, and making it once more fails. That it is the full path can only be said of full paths that fit
(`creation_faithful`); a name that is too long is cut off without notice.
-/

namespace UefiBoot
namespace Gui

/-- The path of a name in a directory. -/
def joinPath (directory name : Text) : Text :=
  if directory = text "/" then directory ++ name else directory ++ text "/" ++ name

/-- The path that the argument of a command stands for; without an argument it is the directory itself. -/
def argumentPath (cwd argument : Text) : Text :=
  if argument = [] then cwd else if argument.head? = some '/'.toUInt8 then argument else joinPath cwd argument

/-! ## Building a path in an array -/

/-- What is appended to a text that was cut off is cut off with it. -/
theorem appendText_copyText (capacity : Nat) (s t : Text) :
    appendText (copyText capacity s) capacity t = copyText capacity (s ++ t) := by
  unfold appendText
  rw [length_copyText]
  unfold copyText
  rw [List.take_append]
  congr 2
  omega

theorem copyText_eq_root_iff (s : Text) : copyText kPathLength s = text "/" ↔ s = text "/" := by
  have hroot : text "/" = [0x2F] := by decide
  have hcapacity : kPathLength - 1 = 47 := rfl
  unfold copyText
  rw [hroot, hcapacity]
  constructor
  · intro h
    have hlength := congrArg List.length h
    rw [List.length_take, List.length_singleton] at hlength
    rwa [List.take_of_length_le (by omega)] at h
  · rintro rfl
    rfl

/-- Directory and name, one after the other into the array. -/
theorem joined_eq (directory name : Text) :
    appendText (if copyText kPathLength directory != text "/" then
        appendText (copyText kPathLength directory) kPathLength (text "/") else copyText kPathLength directory)
      kPathLength name = copyText kPathLength (joinPath directory name) := by
  unfold joinPath
  by_cases hroot : directory = text "/"
  · have hcopy := (copyText_eq_root_iff directory).mpr hroot
    rw [if_pos hroot, if_neg (by rw [hcopy, bne_self_eq_false]; exact Bool.false_ne_true), appendText_copyText]
  · have hcopy : copyText kPathLength directory ≠ text "/" := fun h => hroot ((copyText_eq_root_iff directory).mp h)
    rw [if_neg hroot, if_pos (bne_iff_ne.mpr hcopy), appendText_copyText, appendText_copyText]

namespace Apps

/-- The path that `TerminalPathFromArgument` builds. -/
theorem terminalPath_eq (a : Apps) (argument : Text) :
    a.terminalPathFromArgument argument = copyText kPathLength (argumentPath a.terminal.cwd argument) := by
  unfold terminalPathFromArgument argumentPath
  by_cases hempty : argument = []
  · rw [if_pos hempty, if_pos (by rw [hempty]; rfl)]
  · rw [if_neg hempty, if_neg fun h => hempty (List.isEmpty_iff.mp h)]
    by_cases habsolute : argument.head? = some '/'.toUInt8
    · rw [if_pos habsolute, if_pos habsolute]
    · rw [if_neg habsolute, if_neg habsolute]
      exact joined_eq a.terminal.cwd argument

/-- `FileManagerCreateFolder` adds the path that it builds. -/
theorem createFolder_eq (a : Apps) (name : Text) :
    let path := copyText kPathLength (joinPath a.fileManager.currentPath name)
    (a.fileManagerCreateFolder name).1 = (a.nativeFileAdd path true []).1 ∧
      (a.fileManagerCreateFolder name).2.files = (a.nativeFileAdd path true []).2.files ∧
      (a.fileManagerCreateFolder name).2.fileManager.currentPath = a.fileManager.currentPath := by
  intro path
  have hmanager : ∀ path : Text, (a.nativeFileAdd path true []).2.fileManager = a.fileManager := by
    intro path
    unfold nativeFileAdd
    split_ifs
    · rfl
    · split <;> rfl
  have hpath := joined_eq a.fileManager.currentPath name
  unfold fileManagerCreateFolder
  dsimp only
  rw [hpath]
  refine ⟨rfl, rfl, ?_⟩
  show (a.nativeFileAdd path true []).2.fileManager.currentPath = a.fileManager.currentPath
  rw [hmanager]

/-! ## Adding a file -/

/-- Exactly one file has the path. -/
def OneFile (a : Apps) (path : Text) : Prop := ∃! i, (a.files i).active = true ∧ (a.files i).path = path

variable {a a' : Apps} {path content : Text} {directory : Bool} {i : Fin kNativeFileCapacity}

theorem findNativeFile_congr (h : a'.files = a.files) (path : Text) :
    a'.findNativeFile path = a.findNativeFile path := by
  unfold findNativeFile
  rw [h]

theorem findNativeFile_none_iff :
    a.findNativeFile path = none ↔ ∀ i, ¬ ((a.files i).active = true ∧ (a.files i).path = path) := by
  unfold findNativeFile
  rw [Lib.firstSlot_eq_none_iff]
  refine forall_congr' fun i => ?_
  rw [Bool.eq_false_iff, Ne, Bool.and_eq_true, beq_iff_eq]

theorem OneFile.found (h : OneFile a path) : (a.findNativeFile path).isSome = true := by
  obtain ⟨i, hi, -⟩ := h
  cases hfind : a.findNativeFile path with
  | some j => rfl
  | none => exact absurd hi (findNativeFile_none_iff.mp hfind i)

/-- **A file that was added** is the only one of its path. -/
theorem nativeFileAdd_one (hpath : path.length < kPathLength)
    (hok : (a.nativeFileAdd path directory content).1 = true) :
    OneFile (a.nativeFileAdd path directory content).2 path := by
  unfold nativeFileAdd at hok ⊢
  by_cases hfound : (a.findNativeFile path).isSome = true
  · rw [if_pos hfound] at hok
    exact absurd hok Bool.false_ne_true
  · rw [if_neg hfound] at hok ⊢
    have hnone := findNativeFile_none_iff.mp (Option.not_isSome_iff_eq_none.mp hfound)
    cases hfree : Lib.firstSlot fun i => !(a.files i).active with
    | none =>
        rw [hfree] at hok
        cases hok
    | some i =>
        dsimp only
        rw [copyText_short hpath]
        refine ⟨i, ?_, fun j hj => ?_⟩
        · show (Function.update a.files i _ i).active = true ∧ (Function.update a.files i _ i).path = path
          rw [Function.update_self]
          exact ⟨rfl, rfl⟩
        · -- the others were there before, and none of them had the path
          by_contra hne
          replace hj : (Function.update a.files i _ j).active = true ∧ (Function.update a.files i _ j).path = path :=
            hj
          rw [Function.update_of_ne hne] at hj
          exact hnone j hj

theorem nativeFileAdd_taken (h : OneFile a path) : (a.nativeFileAdd path directory content).1 = false := by
  unfold nativeFileAdd
  rw [if_pos h.found]

/-- What is added depends on the files only. -/
theorem nativeFileAdd_congr (h : a'.files = a.files) (path : Text) (directory : Bool) (content : Text) :
    (a'.nativeFileAdd path directory content).1 = (a.nativeFileAdd path directory content).1 ∧
      (a'.nativeFileAdd path directory content).2.files = (a.nativeFileAdd path directory content).2.files := by
  unfold nativeFileAdd setFile
  rw [findNativeFile_congr h, h]
  split_ifs
  · exact ⟨rfl, h⟩
  · split
    · exact ⟨rfl, h⟩
    · exact ⟨rfl, rfl⟩

theorem nativeFileAdd_frame (a : Apps) (path : Text) (directory : Bool) (content : Text) :
    (a.nativeFileAdd path directory content).2 =
      { a with files := (a.nativeFileAdd path directory content).2.files } := by
  unfold nativeFileAdd
  split_ifs
  · rfl
  · split <;> rfl

theorem OneFile.congr (hfiles : a'.files = a.files) (h : OneFile a path) : OneFile a' path := by
  unfold OneFile
  rw [hfiles]
  exact h

/-- **A path can be added once.** -/
theorem nativeFileAdd_again (hpath : path.length < kPathLength)
    (hok : (a.nativeFileAdd path directory content).1 = true)
    (hfiles : a'.files = (a.nativeFileAdd path directory content).2.files) :
    (a'.nativeFileAdd path directory content).1 = false :=
  nativeFileAdd_taken ((nativeFileAdd_one hpath hok).congr hfiles)

/-! ## The commands of the terminal -/

/-- A command that begins with a verb is none that does not. -/
theorem verb_beq {verb s : Text} (h : verb.isPrefixOf s = false) (argument : Text) :
    (verb ++ argument == s) = false := by
  apply beq_eq_false_iff_ne.mpr
  rintro rfl
  rw [List.isPrefixOf_iff_prefix.mpr (List.prefix_append verb argument)] at h
  cases h

theorem verb_isPrefixOf {verb s : Text} (h : verb.isPrefixOf s = false) (h' : s.isPrefixOf verb = false)
    (argument : Text) : s.isPrefixOf (verb ++ argument) = false := by
  rw [Bool.eq_false_iff, Ne, List.isPrefixOf_iff_prefix] at h h' ⊢
  intro hstarts
  rcases List.prefix_or_prefix_of_prefix hstarts (List.prefix_append verb argument) with hs | hverb
  · exact h' hs
  · exact h hverb

theorem isPrefixOf_verb (verb argument : Text) : verb.isPrefixOf (verb ++ argument) = true :=
  List.isPrefixOf_iff_prefix.mpr (List.prefix_append verb argument)

theorem commandOf_mkdir (script : Apps → Text → Bool × Apps) (a : Apps) (argument : Text) :
    commandOf script a (text "mkdir " ++ argument) =
      if (a.nativeFileAdd (a.terminalPathFromArgument argument) true []).1 then
        (true, (a.nativeFileAdd (a.terminalPathFromArgument argument) true []).2.print (text "mkdir: created")
          kTheme.text)
      else
        (false, (a.nativeFileAdd (a.terminalPathFromArgument argument) true []).2.print (text "mkdir: failed")
          kTheme.close) := by
  have hargument : (text "mkdir " ++ argument).drop 6 = argument := List.drop_left' (by decide)
  unfold commandOf
  -- none of the commands that are tested for before begins with this verb
  simp (disch := decide) only [verb_beq, verb_isPrefixOf, isPrefixOf_verb, Bool.false_eq_true, if_false, if_true,
    Bool.or_self, hargument]

theorem commandOf_touch (script : Apps → Text → Bool × Apps) (a : Apps) (argument : Text) :
    commandOf script a (text "touch " ++ argument) =
      let r := if (a.findNativeFile (a.terminalPathFromArgument argument)).isSome then (true, a)
        else a.nativeFileAdd (a.terminalPathFromArgument argument) false []
      if r.1 then (true, r.2.print (text "touch: ok") kTheme.text)
      else (false, r.2.print (text "touch: failed") kTheme.close) := by
  have hargument : (text "touch " ++ argument).drop 6 = argument := List.drop_left' (by decide)
  unfold commandOf
  simp (disch := decide) only [verb_beq, verb_isPrefixOf, isPrefixOf_verb, Bool.false_eq_true, if_false, if_true,
    Bool.or_self, hargument]

theorem terminalRecordHistory_cwd (t : Terminal) (command : Text) : (t.terminalRecordHistory command).cwd = t.cwd := by
  unfold Terminal.terminalRecordHistory
  rw [apply_ite Terminal.cwd]
  exact ite_self t.cwd

theorem terminalAppendLine_cwd (t : Terminal) (line : Text) (color : UInt32) :
    (t.terminalAppendLine line color).cwd = t.cwd := by
  unfold Terminal.terminalAppendLine
  dsimp only
  rw [apply_ite Terminal.cwd]
  exact ite_self t.cwd

/-- What a command finds is what was there before it was recorded. -/
theorem executeCommandWith_before (script : Apps → Text → Bool × Apps) (a : Apps) (command : Text) :
    ∃ b : Apps, executeCommandWith script a command = commandOf script b command ∧ b.files = a.files ∧
      b.terminal.cwd = a.terminal.cwd := by
  refine ⟨_, rfl, ?_, ?_⟩
  · split_ifs
    · rfl
    · rfl
  · split_ifs
    · exact terminalRecordHistory_cwd a.terminal command
    · rfl

/-- **`mkdir`** adds the path that its argument stands for. -/
theorem mkdir_eq (a : Apps) (argument : Text) :
    let path := copyText kPathLength (argumentPath a.terminal.cwd argument)
    let r := a.executeTerminalCommand (text "mkdir " ++ argument)
    r.1 = (a.nativeFileAdd path true []).1 ∧ r.2.files = (a.nativeFileAdd path true []).2.files ∧
      r.2.terminal.cwd = a.terminal.cwd := by
  intro path
  obtain ⟨b, hrun, hfiles, hcwd⟩ := executeCommandWith_before
    (executeScriptWith (executeCommandWith fun a _ => (false, a))) a (text "mkdir " ++ argument)
  have hadd := nativeFileAdd_congr hfiles path true []
  -- the line that is printed changes neither the files nor the directory
  have hprint : ∀ line color, ((b.nativeFileAdd path true []).2.print line color).terminal.cwd = a.terminal.cwd := by
    intro line color
    refine (terminalAppendLine_cwd _ line color).trans ?_
    rw [nativeFileAdd_frame]
    exact hcwd
  unfold executeTerminalCommand
  rw [hrun, commandOf_mkdir, terminalPath_eq, hcwd, ← hadd.1, ← hadd.2]
  split_ifs with hok
  · exact ⟨hok.symm, rfl, hprint _ _⟩
  · exact ⟨(Bool.eq_false_iff.mpr hok).symm, rfl, hprint _ _⟩

/-- **`touch`** adds the path unless there is such a file. -/
theorem touch_eq (a : Apps) (argument : Text) :
    let path := copyText kPathLength (argumentPath a.terminal.cwd argument)
    let r := a.executeTerminalCommand (text "touch " ++ argument)
    let added := if (a.findNativeFile path).isSome then (true, a) else a.nativeFileAdd path false []
    r.1 = added.1 ∧ r.2.files = added.2.files := by
  intro path
  obtain ⟨b, hrun, hfiles, hcwd⟩ := executeCommandWith_before
    (executeScriptWith (executeCommandWith fun a _ => (false, a))) a (text "touch " ++ argument)
  have hadd := nativeFileAdd_congr hfiles path false []
  unfold executeTerminalCommand
  rw [hrun, commandOf_touch, terminalPath_eq, hcwd, findNativeFile_congr hfiles]
  dsimp only
  by_cases hfound : (a.findNativeFile path).isSome = true
  · rw [if_pos hfound, if_pos hfound]
    exact ⟨rfl, hfiles⟩
  · rw [if_neg hfound, if_neg hfound, ← hadd.1, ← hadd.2]
    split_ifs with hok
    · exact ⟨hok.symm, rfl⟩
    · exact ⟨(Bool.eq_false_iff.mpr hok).symm, rfl⟩

/-! ## Paths stay distinct -/

theorem distinct_iff : a.slots.Distinct ↔ ∀ i j, (a.files i).active = true → (a.files j).active = true →
    (a.files i).path = (a.files j).path → i = j := by
  constructor
  · intro h i j hi hj hpath
    have hslot := slots_active hi
    rw [hpath] at hslot
    exact h i j _ _ _ hslot (slots_active hj)
  · intro h i j k x y hi hj
    obtain ⟨hactive, hpath, -⟩ := slots_some hi
    obtain ⟨hactive', hpath', -⟩ := slots_some hj
    exact h i j hactive hactive' (hpath.trans hpath'.symm)

/-- A file that is found is the only one of its path. -/
theorem oneFile_of_found (h : a.slots.Distinct) (hfound : (a.findNativeFile path).isSome = true) : OneFile a path := by
  obtain ⟨i, hi⟩ := Option.isSome_iff_exists.mp hfound
  obtain ⟨hactive, hpath⟩ := findNativeFile_true hi
  exact ⟨i, ⟨hactive, hpath⟩, fun j hj => distinct_iff.mp h j i hj.1 hactive (hj.2.trans hpath.symm)⟩

/-- One slot is written, with a path that no other file has. -/
theorem distinct_setFile (h : a.slots.Distinct) {entry : NativeFileEntry}
    (hentry : entry.active = true → ∀ j, j ≠ i → (a.files j).active = true → (a.files j).path ≠ entry.path) :
    (a.setFile i entry).slots.Distinct := by
  rw [slots_setFile]
  split_ifs with hactive
  · apply h.update
    intro j x hj hslot
    obtain ⟨hin, hpath, -⟩ := slots_some hslot
    exact hentry hactive j hj hin hpath
  · exact h.clear i

/-- No two files have the same path, and the editor's path is whole. -/
structure Orderly (a : Apps) : Prop where
  distinct : a.slots.Distinct
  editor   : a.EditorShort

theorem Orderly.step (hstep : Step a a') (h : Orderly a) : Orderly a' := by
  cases hstep with
  | rest hfiles _ heditor =>
      refine ⟨?_, heditor h.editor⟩
      rw [distinct_iff, hfiles]
      exact distinct_iff.mp h.distinct
  | add path directory content hpath =>
      have hshort := hpath h.editor
      unfold nativeFileAdd
      split_ifs with hfound
      · exact h
      · split
        · exact h
        · refine ⟨distinct_setFile h.distinct fun _ j _ hactive hsame => ?_, h.editor⟩
          rw [Apps.copyText_short hshort] at hsame
          exact findNativeFile_none_iff.mp (Option.not_isSome_iff_eq_none.mp hfound) j ⟨hactive, hsame⟩
  | rename source target htarget =>
      unfold nativeFileRename
      split
      · exact h
      · split_ifs with hfound
        · exact h
        · refine ⟨distinct_setFile h.distinct fun _ j _ hactive hsame => ?_, h.editor⟩
          rw [copyText_short htarget] at hsame
          exact findNativeFile_none_iff.mp (Option.not_isSome_iff_eq_none.mp hfound) j ⟨hactive, hsame⟩
  | delete path =>
      unfold nativeFileDelete
      split
      · exact h
      · exact ⟨distinct_setFile h.distinct fun hactive => absurd hactive Bool.false_ne_true, h.editor⟩
  | write i content =>
      refine ⟨distinct_setFile h.distinct fun hactive j hj hother hsame => ?_, h.editor⟩
      exact hj (distinct_iff.mp h.distinct j i hother hactive hsame)

theorem Orderly.steps (hsteps : Steps a a') (h : Orderly a) : Orderly a' := by
  induction hsteps with
  | refl => exact h
  | tail _ hstep ih => exact ih.step hstep

/-! ## Creating by name -/

theorem createFolder_one (a : Apps) (name : Text) (hok : (a.fileManagerCreateFolder name).1 = true) :
    OneFile (a.fileManagerCreateFolder name).2 (copyText kPathLength (joinPath a.fileManager.currentPath name)) := by
  obtain ⟨hreturns, hfiles, -⟩ := createFolder_eq a name
  rw [hreturns] at hok
  exact (nativeFileAdd_one (length_copyText_path _) hok).congr hfiles

theorem createFolder_again (a : Apps) (name : Text) (hok : (a.fileManagerCreateFolder name).1 = true) :
    ((a.fileManagerCreateFolder name).2.fileManagerCreateFolder name).1 = false := by
  obtain ⟨hreturns, hfiles, hdirectory⟩ := createFolder_eq a name
  obtain ⟨hsecond, -, -⟩ := createFolder_eq (a.fileManagerCreateFolder name).2 name
  rw [hreturns] at hok
  rw [hsecond, hdirectory]
  exact nativeFileAdd_again (length_copyText_path _) hok hfiles

theorem mkdir_one (a : Apps) (name : Text) (hok : (a.executeTerminalCommand (text "mkdir " ++ name)).1 = true) :
    OneFile (a.executeTerminalCommand (text "mkdir " ++ name)).2
      (copyText kPathLength (argumentPath a.terminal.cwd name)) := by
  obtain ⟨hreturns, hfiles, -⟩ := mkdir_eq a name
  rw [hreturns] at hok
  exact (nativeFileAdd_one (length_copyText_path _) hok).congr hfiles

theorem mkdir_again (a : Apps) (name : Text) (hok : (a.executeTerminalCommand (text "mkdir " ++ name)).1 = true) :
    ((a.executeTerminalCommand (text "mkdir " ++ name)).2.executeTerminalCommand (text "mkdir " ++ name)).1 =
      false := by
  obtain ⟨hreturns, hfiles, hcwd⟩ := mkdir_eq a name
  obtain ⟨hsecond, -, -⟩ := mkdir_eq (a.executeTerminalCommand (text "mkdir " ++ name)).2 name
  rw [hreturns] at hok
  rw [hsecond, hcwd]
  exact nativeFileAdd_again (length_copyText_path _) hok hfiles

/-- A file that is touched was there or is added. -/
theorem touch_one {a : Apps} (h : a.slots.Distinct) (name : Text)
    (hok : (a.executeTerminalCommand (text "touch " ++ name)).1 = true) :
    OneFile (a.executeTerminalCommand (text "touch " ++ name)).2
      (copyText kPathLength (argumentPath a.terminal.cwd name)) := by
  obtain ⟨hreturns, hfiles⟩ := touch_eq a name
  rw [hreturns] at hok
  by_cases hfound : (a.findNativeFile (copyText kPathLength (argumentPath a.terminal.cwd name))).isSome = true
  · rw [if_pos hfound] at hfiles
    exact (oneFile_of_found h hfound).congr hfiles
  · rw [if_neg hfound] at hok hfiles
    exact (nativeFileAdd_one (length_copyText_path _) hok).congr hfiles

/-- The applications with these two current directories. -/
def inDirectories (a : Apps) (directory cwd : Text) : Apps :=
  { a with fileManager := { a.fileManager with currentPath := directory }, terminal := { a.terminal with cwd := cwd } }

end Apps

/-! ## In every run of the desktop -/

namespace Desktop

variable {K : Type}

/-- A launch changes the runtimes of the applications only. -/
theorem launchApplicationById_orderly (k : AppKernel K) {d : Desktop K} (appId : Option String) (h : d.apps.Orderly) :
    (d.launchApplicationById k appId).2.apps.Orderly := by
  have honly := launchApplicationById_only k d appId
  unfold OnlyRuntimes at honly
  rw [honly]
  exact ⟨h.distinct, h.editor⟩

theorem start_orderly (k : AppKernel K) (framebuffer : FramebufferInfo) (kernel : K) :
    (start k framebuffer kernel).apps.Orderly := by
  have hinit : (reset framebuffer kernel).apps.initApplicationRegistry.Orderly :=
    ⟨(Apps.represents_init {}).sound.distinct, show (text "/tmp/notes.txt").length < kPathLength by decide⟩
  have hfiles := launchApplicationById_orderly k
    (d := { reset framebuffer kernel with apps := (reset framebuffer kernel).apps.initApplicationRegistry })
    (some "files") hinit
  unfold start initWindowManager
  dsimp only
  split_ifs
  · exact launchApplicationById_orderly k (some "term") hfiles
  · exact hfiles

/-- **Paths are created as they are asked for.** Whatever the desktop went through and whatever the two current
    directories are: if a folder or a file is created and its full path fits, there is exactly one file of this path
    then, and the same folder cannot be created again. -/
theorem creation_faithful (k : AppKernel K) (framebuffer : FramebufferInfo) (kernel : K) (uses : List Use)
    (directory cwd name : Text) :
    let a := (Lib.run (useStep k) (start k framebuffer kernel) uses).apps.inDirectories directory cwd
    let folder := a.fileManagerCreateFolder name
    let mkdir := a.executeTerminalCommand (text "mkdir " ++ name)
    let touch := a.executeTerminalCommand (text "touch " ++ name)
    (folder.1 = true →
        ((joinPath directory name).length < kPathLength → folder.2.OneFile (joinPath directory name)) ∧
        (folder.2.fileManagerCreateFolder name).1 = false) ∧
      (mkdir.1 = true →
        ((argumentPath cwd name).length < kPathLength → mkdir.2.OneFile (argumentPath cwd name)) ∧
        (mkdir.2.executeTerminalCommand (text "mkdir " ++ name)).1 = false) ∧
      (touch.1 = true → (argumentPath cwd name).length < kPathLength → touch.2.OneFile (argumentPath cwd name)) := by
  intro a
  have horderly : (Lib.run (useStep k) (start k framebuffer kernel) uses).apps.Orderly :=
    uses_keep (P := fun d => d.apps.Orderly) (fun _ _ hquiet h => h.steps hquiet.apps)
      (fun _ appId h => launchApplicationById_orderly k appId h) (start_orderly k framebuffer kernel) uses
  have hdistinct : a.slots.Distinct := horderly.distinct
  refine ⟨fun hok => ⟨fun hshort => ?_, Apps.createFolder_again a name hok⟩,
    fun hok => ⟨fun hshort => ?_, Apps.mkdir_again a name hok⟩, fun hok hshort => ?_⟩
  · have hone := Apps.createFolder_one a name hok
    rwa [show a.fileManager.currentPath = directory from rfl, Apps.copyText_short hshort] at hone
  · have hone := Apps.mkdir_one a name hok
    rwa [show a.terminal.cwd = cwd from rfl, Apps.copyText_short hshort] at hone
  · have hone := Apps.touch_one hdistinct name hok
    rwa [show a.terminal.cwd = cwd from rfl, Apps.copyText_short hshort] at hone

theorem creation_faithful_docs :
    let a := (Lib.run (useStep countingKernel) (start countingKernel smallScreen 0) []).apps.inDirectories
      (text "/tmp") (text "/boot")
    (a.fileManagerCreateFolder (text "docs")).2.OneFile (text "/tmp/docs") ∧
      (a.executeTerminalCommand (text "mkdir " ++ text "docs")).2.OneFile (text "/boot/docs") ∧
      (a.executeTerminalCommand (text "touch " ++ text "/tmp/readme")).2.OneFile (text "/tmp/readme") := by
  intro a
  have hdocs := creation_faithful countingKernel smallScreen 0 [] (text "/tmp") (text "/boot") (text "docs")
  have hreadme := creation_faithful countingKernel smallScreen 0 [] (text "/tmp") (text "/boot") (text "/tmp/readme")
  exact ⟨(hdocs.1 (by decide +kernel)).1 (by decide), (hdocs.2.1 (by decide +kernel)).1 (by decide),
    hreadme.2.2 (by decide +kernel) (by decide)⟩

/-- In the root directory no second slash is put before the name, without an argument `touch` means the current
    directory, and of a long name only the beginning is kept. -/
theorem creation_not_literal :
    let a := (start countingKernel smallScreen 0).apps
    let root := (a.inDirectories (text "/") (text "/")).fileManagerCreateFolder (text "docs")
    let touch := (a.inDirectories (text "/") (text "/tmp")).executeTerminalCommand (text "touch " ++ [])
    let long := (a.inDirectories (text "/tmp") (text "/tmp")).fileManagerCreateFolder (List.replicate 60 'a'.toUInt8)
    (root.1 = true ∧ ¬ root.2.OneFile (text "/" ++ text "/" ++ text "docs")) ∧
      (touch.1 = true ∧ ¬ touch.2.OneFile (text "/tmp" ++ text "/" ++ [])) ∧
      (long.1 = true ∧ ¬ long.2.OneFile (text "/tmp" ++ text "/" ++ List.replicate 60 'a'.toUInt8)) := by
  refine ⟨⟨by decide +kernel, fun h => ?root⟩, ⟨by decide +kernel, fun h => ?touch⟩, by decide +kernel, fun h => ?long⟩
  case root => exact absurd h.found (by decide +kernel)
  case touch => exact absurd h.found (by decide +kernel)
  case long => exact absurd h.found (by decide +kernel)

end Desktop

end Gui
end UefiBoot
