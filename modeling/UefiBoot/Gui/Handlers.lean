import UefiBoot.Gui.Lifecycle

/-!
# `Gui.Handlers` — what the handlers of events do to files, registry and windows

`Gui.Works` says how an event changes windows and focus. This module says the rest: what the applications do to their
own state (`Apps.Steps`), and which changes leave every window with its application on its desktop (`Quiet`). Only a
launch adds a window, so every event is a row of quiet changes and launches (`Does`), and a property of the desktop that
these two keep holds in every run (`Does.keeps`).
-/

namespace UefiBoot
namespace Gui

/-! ## Applications and desktops of the windows -/

/-- Which applications have a window, and on which desktop. -/
def homes (windows : List Window) : Multiset (AppKind × UInt8) := windows.map fun w => (w.app, w.desktop)

theorem WindowsWf.of_homes {windows windows' : List Window} (h : WindowsWf windows)
    (hhomes : homes windows' = homes windows) : WindowsWf windows' := by
  have hperm := Multiset.coe_eq_coe.mp hhomes
  constructor
  · have happs := hperm.map Prod.fst
    rw [List.map_map, List.map_map] at happs
    exact happs.nodup_iff.mpr h.oneEach
  · intro w hw i hi
    obtain ⟨u, hu, heq⟩ := List.mem_map.mp (hperm.mem_iff.mp (List.mem_map_of_mem hw))
    obtain ⟨happ, hdesktop⟩ := Prod.mk.inj heq
    rw [← hdesktop]
    exact h.desktop u hu i (hi.trans happ.symm)

namespace WindowManager

variable {wm : WindowManager} {i j : Nat} {w : Window}

/-- A window keeps its application and its desktop. -/
theorem homes_setWindow {f : Window → Window} (wm : WindowManager) (i : Nat)
    (hf : ∀ w, (f w).app = w.app ∧ (f w).desktop = w.desktop) : homes (wm.setWindow i f).windows = homes wm.windows := by
  unfold homes setWindow
  congr 1
  ext n
  rw [List.getElem?_map, List.getElem?_modify, List.getElem?_map]
  cases wm.windows[n]? with
  | none => rfl
  | some w =>
      simp only [Option.map_eq_map, Option.map_some]
      split_ifs
      · rw [(hf w).1, (hf w).2]
      · rfl

theorem homes_reordered {windows windows' : List Window} (h : Reordered windows windows') :
    homes windows' = homes windows := by
  have hforget : ∀ l : List Window, (l.map unfocus).map (fun w => (w.app, w.desktop)) =
      l.map fun w => (w.app, w.desktop) := by
    intro l
    rw [List.map_map]
    rfl
  have hperm := List.Perm.map (fun w : Window => (w.app, w.desktop)) h
  rw [hforget, hforget] at hperm
  exact Multiset.coe_eq_coe.mpr hperm

@[simp] theorem homes_focusWindow (wm : WindowManager) (i : Nat) :
    homes (wm.focusWindow i).2.windows = homes wm.windows := homes_reordered (focusWindow_reordered wm i)

@[simp] theorem homes_focusTopVisibleWindow (wm : WindowManager) :
    homes wm.focusTopVisibleWindow.windows = homes wm.windows := homes_reordered (focusTopVisibleWindow_reordered wm)

@[simp] theorem homes_switchVirtualDesktop (wm : WindowManager) (desktop : UInt8) :
    homes (wm.switchVirtualDesktop desktop).2.windows = homes wm.windows := by
  unfold switchVirtualDesktop
  split_ifs
  · rfl
  · exact homes_focusTopVisibleWindow _

@[simp] theorem homes_rememberAppPlacement (wm : WindowManager) (app : AppKind) (bounds : Rect) :
    homes (wm.rememberAppPlacement app bounds).windows = homes wm.windows := by
  rw [(rememberAppPlacement_same wm app bounds).windows]

@[simp] theorem homes_updateHoverState (wm : WindowManager) : homes wm.updateHoverState.windows = homes wm.windows := by
  rw [(updateHoverState_same wm).windows]

@[simp] theorem homes_place (wm : WindowManager) (i : Nat) (w : Window) (bounds : Rect) :
    homes (wm.place i w bounds).windows = homes wm.windows := by
  unfold place
  rw [homes_rememberAppPlacement]
  exact homes_setWindow wm i (by exact fun _ => ⟨rfl, rfl⟩)

@[simp] theorem homes_moveWindow (wm : WindowManager) (i : Nat) (x y : Int32) :
    homes (wm.moveWindow i x y).windows = homes wm.windows := by
  unfold moveWindow
  cases wm.windows[i]? with
  | none => rfl
  | some w =>
      cases hmaximized : w.maximized with
      | true => simp only [hmaximized, if_true]
      | false => simp only [hmaximized, Bool.false_eq_true, if_false, homes_place]

@[simp] theorem homes_resizeWindow (wm : WindowManager) (i : Nat) (width height : UInt32) :
    homes (wm.resizeWindow i width height).2.windows = homes wm.windows := by
  unfold resizeWindow
  split
  · rfl
  · split_ifs
    · rfl
    · exact homes_place wm i _ _

@[simp] theorem homes_snapWindow (wm : WindowManager) (i : Nat) (edge : SnapEdge) :
    homes (wm.snapWindow i edge).2.windows = homes wm.windows := by
  unfold snapWindow
  split
  · rfl
  · split_ifs
    · rfl
    · exact (homes_place _ i _ _).trans (homes_setWindow wm i (by exact fun _ => ⟨rfl, rfl⟩))

@[simp] theorem homes_toggleMaximizeWindow (wm : WindowManager) (i : Nat) :
    homes (wm.toggleMaximizeWindow i).windows = homes wm.windows := by
  unfold toggleMaximizeWindow
  split
  · rfl
  · split_ifs
    · exact (homes_place _ i _ _).trans (homes_setWindow wm i (by exact fun _ => ⟨rfl, rfl⟩))
    · exact homes_setWindow wm i (by exact fun _ => ⟨rfl, rfl⟩)

end WindowManager

/-! ## What the applications do -/

namespace Apps

/-- The entries of the table are for the same applications. -/
def SameRegistry (a a' : Apps) : Prop :=
  ∀ i, (a'.runtimes i).valid = (a.runtimes i).valid ∧ (a'.runtimes i).app = (a.runtimes i).app

/-- The path in the editor is whole. -/
def EditorShort (a : Apps) : Prop := a.editor.path.length < kPathLength

/-- What one of the applications does. -/
inductive Step : Apps → Apps → Prop
  /-- The files stay, and so does the registry. -/
  | rest {a a'} (hfiles : a'.files = a.files) (hregistry : SameRegistry a a')
      (heditor : a.EditorShort → a'.EditorShort) : Step a a'
  | add {a} (path : Text) (directory : Bool) (content : Text) (hpath : a.EditorShort → path.length < kPathLength) :
      Step a (a.nativeFileAdd path directory content).2
  | rename {a} (source target : Text) (htarget : target.length < kPathLength) :
      Step a (a.nativeFileRename source target).2
  | delete {a} (path : Text) : Step a (a.nativeFileDelete path).2
  | write {a} (i : Fin kNativeFileCapacity) (content : Text) : Step a (a.setFile i { a.files i with content := content })

/-- Any number of steps. -/
def Steps : Apps → Apps → Prop := Relation.ReflTransGen Step

variable {a a' a'' : Apps}

theorem SameRegistry.of_eq (h : a'.runtimes = a.runtimes) : SameRegistry a a' := fun i => by
  rw [h]
  exact ⟨rfl, rfl⟩

theorem SameRegistry.trans (h : SameRegistry a a') (h' : SameRegistry a' a'') : SameRegistry a a'' := fun i =>
  ⟨(h' i).1.trans (h i).1, (h' i).2.trans (h i).2⟩

theorem sameRegistry_setRuntime (a : Apps) (i : Fin kApplicationCapacity) {runtime : AppRuntimeState}
    (hruntime : runtime.valid = (a.runtimes i).valid ∧ runtime.app = (a.runtimes i).app) :
    SameRegistry a (a.setRuntime i runtime) := by
  intro n
  show (Function.update a.runtimes i runtime n).valid = _ ∧ (Function.update a.runtimes i runtime n).app = _
  rw [Function.update_apply]
  split_ifs with hn
  · rw [hn]
    exact hruntime
  · exact ⟨rfl, rfl⟩

theorem Steps.refl (a : Apps) : Steps a a := Relation.ReflTransGen.refl

theorem Steps.trans (h : Steps a a') (h' : Steps a' a'') : Steps a a'' := Relation.ReflTransGen.trans h h'

theorem Step.steps (h : Step a a') : Steps a a' := Relation.ReflTransGen.single h

/-- Only the entries of applications have changed. -/
theorem Steps.entries (hfiles : a'.files = a.files) (heditor : a'.editor = a.editor) (hregistry : SameRegistry a a') :
    Steps a a' := by
  refine Step.steps (Step.rest hfiles hregistry fun h => ?_)
  unfold EditorShort at *
  rw [heditor]
  exact h

/-- Neither files nor entries have changed, nor the editor. -/
theorem Steps.same (hfiles : a'.files = a.files) (heditor : a'.editor = a.editor) (hruntimes : a'.runtimes = a.runtimes) :
    Steps a a' := Steps.entries hfiles heditor (SameRegistry.of_eq hruntimes)

theorem Steps.edit (hfiles : a'.files = a.files) (hruntimes : a'.runtimes = a.runtimes)
    (heditor : a.EditorShort → a'.EditorShort) : Steps a a' :=
  Step.steps (Step.rest hfiles (SameRegistry.of_eq hruntimes) heditor)

theorem Steps.registry (h : Steps a a') : SameRegistry a a' := by
  induction h with
  | refl => exact SameRegistry.of_eq rfl
  | tail _ hstep ih =>
      refine ih.trans ?_
      cases hstep with
      | rest _ hregistry _ => exact hregistry
      | add path directory content _ =>
          refine SameRegistry.of_eq ?_
          unfold nativeFileAdd
          split_ifs
          · rfl
          · split <;> rfl
      | rename source target _ =>
          refine SameRegistry.of_eq ?_
          unfold nativeFileRename
          split
          · rfl
          · split_ifs <;> rfl
      | delete path =>
          refine SameRegistry.of_eq ?_
          unfold nativeFileDelete
          split <;> rfl
      | write i content => exact SameRegistry.of_eq rfl

/-! ### File manager and editor -/

theorem length_copyText_path (path : Text) : (copyText kPathLength path).length < kPathLength := by
  have hcapacity : kPathLength = 48 := rfl
  rw [length_copyText]
  omega

theorem fileManagerBack_steps (a : Apps) : Steps a a.fileManagerBack.2 := by
  unfold fileManagerBack
  dsimp only
  split_ifs <;> exact Steps.same rfl rfl rfl

theorem fileManagerForward_steps (a : Apps) : Steps a a.fileManagerForward.2 := by
  unfold fileManagerForward
  dsimp only
  split_ifs <;> exact Steps.same rfl rfl rfl

theorem fileManagerCreateFolder_steps (a : Apps) (name : Text) : Steps a (a.fileManagerCreateFolder name).2 := by
  have hcopy := length_copyText_path a.fileManager.currentPath
  unfold fileManagerCreateFolder
  refine (Step.add _ true [] fun _ => length_appendText_le ?_ name).steps.trans (Steps.same rfl rfl rfl)
  split_ifs
  · exact length_appendText_le hcopy _
  · exact hcopy

theorem fileManagerCopySelected_steps (a : Apps) {target : Text} (htarget : target.length < kPathLength) :
    Steps a (a.fileManagerCopySelected target).2 := by
  unfold fileManagerCopySelected
  split
  · exact Steps.same rfl rfl rfl
  · exact (Step.add target _ _ fun _ => htarget).steps.trans (Steps.same rfl rfl rfl)

theorem fileManagerMoveSelected_steps (a : Apps) {target : Text} (htarget : target.length < kPathLength) :
    Steps a (a.fileManagerMoveSelected target).2 := by
  have hrename := (Step.rename (a := a) a.fileManager.selectedPath target htarget).steps
  unfold fileManagerMoveSelected
  dsimp only
  split_ifs
  · exact hrename.trans (Steps.same rfl rfl rfl)
  · exact hrename.trans (Steps.same rfl rfl rfl)

theorem textEditorOpenFile_steps (a : Apps) (path : Text) : Steps a (a.textEditorOpenFile path).2 := by
  unfold textEditorOpenFile
  split
  · exact Steps.refl a
  · split_ifs
    · exact Steps.refl a
    · exact Steps.edit rfl rfl fun _ => length_copyText_path path

theorem textEditorSaveAs_steps (a : Apps) {path : Text} (hpath : a.EditorShort → path.length < kPathLength) :
    Steps a (a.textEditorSaveAs path).2 := by
  unfold textEditorSaveAs
  dsimp only
  cases a.findNativeFile path with
  | none =>
      have hadd := (Step.add path false a.editor.text hpath).steps
      dsimp only
      split_ifs
      · exact hadd
      · exact hadd.trans (Steps.edit rfl rfl fun _ => length_copyText_path path)
  | some i =>
      dsimp only
      by_cases hdirectory : (a.files i).directory = true
      · simp only [if_pos hdirectory, Bool.not_false, if_true]
        exact Steps.refl a
      · simp only [if_neg hdirectory, Bool.not_true, Bool.false_eq_true, if_false]
        exact (Step.write i _).steps.trans (Steps.edit rfl rfl fun _ => length_copyText_path path)

theorem textEditorHandleKey_steps (a : Apps) (key modifiers : UInt32) : Steps a (a.textEditorHandleKey key modifiers).2 := by
  unfold textEditorHandleKey
  dsimp only
  split_ifs
  all_goals first
    | exact Steps.refl a
    | exact textEditorSaveAs_steps a id
    | exact textEditorOpenFile_steps a _
    | exact Steps.edit rfl rfl id

/-! ### The terminal -/

theorem terminalKillProcess_steps (a : Apps) (argument : Text) : Steps a (a.terminalKillProcess argument).2 := by
  unfold terminalKillProcess
  split
  · exact Steps.refl a
  · split
    · exact Steps.refl a
    · rename_i i _
      refine Steps.entries rfl rfl ?_
      exact sameRegistry_setRuntime a i ⟨rfl, rfl⟩

theorem length_terminalPath (a : Apps) (argument : Text) : (a.terminalPathFromArgument argument).length < kPathLength := by
  unfold terminalPathFromArgument
  split_ifs
  · exact length_copyText_path _
  · exact length_copyText_path _
  · dsimp only
    refine length_appendText_le ?_ argument
    split_ifs
    · exact length_appendText_le (length_copyText_path _) _
    · exact length_copyText_path _

/-- Printing lines for some of the entries. -/
theorem foldl_print_steps (is : List (Fin kApplicationCapacity)) (p : Apps → Fin kApplicationCapacity → Bool)
    (line : Text) (color : UInt32) (a : Apps) :
    Steps a (is.foldl (fun a i => if p a i then a.print line color else a) a) := by
  induction is generalizing a with
  | nil => exact Steps.refl a
  | cons i is ih =>
      refine Steps.trans ?_ (ih _)
      show Steps a (if p a i then a.print line color else a)
      split_ifs
      · exact Steps.same rfl rfl rfl
      · exact Steps.refl a

theorem Steps.ite {p : Prop} [Decidable p] {x y : Bool × Apps} (hx : Steps a x.2) (hy : Steps a y.2) :
    Steps a (if p then x else y).2 := by
  split_ifs
  · exact hx
  · exact hy

/-- A command that ends with a line for success and one for failure. -/
theorem Steps.report {x : Bool × Apps} (hx : Steps a x.2) (line line' : Text) (color color' : UInt32) :
    Steps a (if x.1 = true then (true, x.2.print line color) else (false, x.2.print line' color')).2 :=
  Steps.ite (hx.trans (Steps.same rfl rfl rfl)) (hx.trans (Steps.same rfl rfl rfl))

/-- **A command**, with a script that makes steps. -/
theorem commandOf_steps {script : Apps → Text → Bool × Apps} (hscript : ∀ a text, Steps a (script a text).2)
    (a : Apps) (command : Text) : Steps a (commandOf script a command).2 := by
  have hprint : ∀ (ok : Bool) (line : Text) (color : UInt32), Steps a (ok, a.print line color).2 :=
    fun _ _ _ => Steps.same rfl rfl rfl
  have hadd : ∀ (argument : Text) (directory : Bool),
      Steps a (a.nativeFileAdd (a.terminalPathFromArgument argument) directory []).2 :=
    fun argument directory => (Step.add _ directory [] fun _ => length_terminalPath a argument).steps
  unfold commandOf
  dsimp only
  -- what only prints, and what changes the terminal
  refine Steps.ite (Steps.same rfl rfl rfl) (Steps.ite (Steps.same rfl rfl rfl) ?_)
  refine Steps.ite (hprint _ _ _) (Steps.ite (hprint _ _ _) (Steps.ite (hprint _ _ _) ?_))
  refine Steps.ite (hprint _ _ _) (Steps.ite (hprint _ _ _) (Steps.ite (hprint _ _ _) ?_))
  refine Steps.ite (Steps.same rfl rfl rfl) (Steps.ite (Steps.same rfl rfl rfl) (Steps.ite (Steps.same rfl rfl rfl) ?_))
  refine Steps.ite (hprint _ _ _) (Steps.ite (hprint _ _ _) ?_)
  refine Steps.ite ?cat (Steps.ite ?mkdir (Steps.ite ?touch ?_))
  case cat =>
    split
    · exact Steps.ite (hprint _ _ _) (hprint _ _ _)
    · exact hprint _ _ _
  case mkdir => exact Steps.report (hadd _ _) _ _ _ _
  case touch =>
    refine Steps.report ?_ _ _ _ _
    split_ifs
    · exact Steps.refl a
    · exact hadd _ _
  refine Steps.ite (hprint _ _ _) (Steps.ite ?ps (Steps.ite ?kill ?_))
  case ps => exact Steps.trans (hprint true _ _) (foldl_print_steps _ _ _ _ _)
  case kill =>
    have hkill := terminalKillProcess_steps a (command.drop 5)
    exact Steps.ite hkill (hkill.trans (Steps.same rfl rfl rfl))
  refine Steps.ite (Steps.same rfl rfl rfl) (Steps.ite (Steps.same rfl rfl rfl) (Steps.ite (hprint _ _ _) ?_))
  refine Steps.ite (Steps.same rfl rfl rfl) (Steps.ite (hprint _ _ _) (Steps.ite ?script (hprint _ _ _)))
  case script => exact (hprint true _ _).trans (hscript _ _)

theorem executeCommandWith_steps {script : Apps → Text → Bool × Apps} (hscript : ∀ a text, Steps a (script a text).2)
    (a : Apps) (command : Text) : Steps a (executeCommandWith script a command).2 := by
  have hrecorded : ∀ recorded : Bool, Steps a
      (if recorded then { a with terminal := a.terminal.terminalRecordHistory command } else a) := by
    intro recorded
    cases recorded with
    | true => exact Steps.same rfl rfl rfl
    | false => exact Steps.refl a
  exact (hrecorded _).trans (commandOf_steps hscript _ command)

theorem scriptLoop_steps {execute : Apps → Text → Bool × Apps} (hexecute : ∀ a command, Steps a (execute a command).2)
    (rest command : Text) (allOk : Bool) (a : Apps) : Steps a (scriptLoop execute rest command allOk a).2 := by
  induction rest generalizing command allOk a with
  | nil =>
      unfold scriptLoop
      split_ifs
      · exact hexecute a command
      · exact Steps.refl a
  | cons c rest ih =>
      unfold scriptLoop
      split_ifs
      · exact (hexecute a command).trans (ih [] _ _)
      · exact ih [] allOk a
      · exact ih _ allOk a
      · exact ih _ allOk a

theorem executeTerminalCommand_steps (a : Apps) (command : Text) : Steps a (a.executeTerminalCommand command).2 := by
  unfold executeTerminalCommand executeScriptWith
  -- the commands of the demo script run no script
  have hinner : ∀ a command, Steps a (executeCommandWith (fun a _ => (false, a)) a command).2 :=
    executeCommandWith_steps fun a _ => Steps.refl a
  exact executeCommandWith_steps (fun a script => scriptLoop_steps hinner script [] true a) a command

theorem terminalSubmitInput_steps (a : Apps) : Steps a a.terminalSubmitInput.2 := by
  have hprint : Steps a (a.print a.terminal.session.input kTheme.textMuted) := Steps.same rfl rfl rfl
  have hexecute := executeTerminalCommand_steps (a.print a.terminal.session.input kTheme.textMuted)
    a.terminal.session.input
  unfold terminalSubmitInput
  dsimp only
  generalize (a.print a.terminal.session.input kTheme.textMuted).executeTerminalCommand a.terminal.session.input =
    executed at hexecute ⊢
  exact (hprint.trans hexecute).trans (Steps.same rfl rfl rfl)

theorem terminalHandleKey_steps (a : Apps) (key : UInt32) : Steps a (a.terminalHandleKey key).2 := by
  unfold terminalHandleKey
  dsimp only
  split_ifs
  · refine Steps.trans ?_ (terminalSubmitInput_steps _)
    exact Steps.same rfl rfl rfl
  all_goals exact Steps.same rfl rfl rfl

end Apps

/-! ## What the handlers do -/

namespace Desktop

open WindowManager

variable {K : Type}

/-- No window comes or goes, and the applications have made steps. -/
structure Quiet (d d' : Desktop K) : Prop where
  apps  : Apps.Steps d.apps d'.apps
  homes : homes d'.wm.windows = homes d.wm.windows

/-- Quiet changes and launches. -/
inductive Does (k : AppKernel K) : Desktop K → Desktop K → Prop
  | quiet {d d'} (h : Quiet d d') : Does k d d'
  | launch (d : Desktop K) (appId : Option String) : Does k d (d.launchApplicationById k appId).2
  | trans {d d' d''} (h : Does k d d') (h' : Does k d' d'') : Does k d d''

variable {k : AppKernel K} {d d' d'' : Desktop K}

/-- **What quiet changes and launches keep**, everything that happens keeps. -/
theorem Does.keeps {P : Desktop K → Prop} (h : Does k d d') (hquiet : ∀ d d', Quiet d d' → P d → P d')
    (hlaunch : ∀ d appId, P d → P (d.launchApplicationById k appId).2) (hP : P d) : P d' := by
  induction h with
  | quiet h => exact hquiet _ _ h hP
  | launch d appId => exact hlaunch d appId hP
  | trans _ _ ih ih' => exact ih' (ih hP)

theorem Quiet.refl (d : Desktop K) : Quiet d d := ⟨Apps.Steps.refl _, rfl⟩

theorem Quiet.trans (h : Quiet d d') (h' : Quiet d' d'') : Quiet d d'' :=
  ⟨h.apps.trans h'.apps, h'.homes.trans h.homes⟩

/-- Only the window manager has changed. -/
theorem Quiet.windows (happs : d'.apps = d.apps) (hhomes : Gui.homes d'.wm.windows = Gui.homes d.wm.windows) :
    Quiet d d' := by
  refine ⟨?_, hhomes⟩
  rw [happs]
  exact Apps.Steps.refl _

/-- Only the applications have made steps. -/
theorem Quiet.ofApps (happs : Apps.Steps d.apps d'.apps) (hwindows : d'.wm.windows = d.wm.windows) : Quiet d d' :=
  ⟨happs, congrArg Gui.homes hwindows⟩

theorem Does.refl (d : Desktop K) : Does k d d := Does.quiet (Quiet.refl d)

theorem Does.windows (happs : d'.apps = d.apps) (hhomes : Gui.homes d'.wm.windows = Gui.homes d.wm.windows) :
    Does k d d' := Does.quiet (Quiet.windows happs hhomes)

theorem changeState_quiet (d : Desktop K) (app : AppKind) (source target : AppLifecycleState) :
    Quiet d (d.changeState app source target) := by
  unfold changeState
  split
  · exact Quiet.refl d
  · rename_i i _
    split_ifs
    · exact Quiet.ofApps (Apps.Steps.entries rfl rfl (Apps.sameRegistry_setRuntime d.apps i ⟨rfl, rfl⟩)) rfl
    · exact Quiet.refl d

theorem minimizeWindow_quiet (d : Desktop K) (index : Nat) : Quiet d (d.minimizeWindow index) := by
  unfold minimizeWindow
  split
  · exact Quiet.refl d
  · rename_i window _
    have hedit : Quiet d { d with wm := d.wm.setWindow index fun window => { window with minimized := true } } :=
      Quiet.windows rfl (homes_setWindow d.wm index (by exact fun _ => ⟨rfl, rfl⟩))
    refine (hedit.trans (changeState_quiet _ window.app .running .minimized)).trans (Quiet.windows rfl ?_)
    dsimp only
    split_ifs
    · exact homes_focusTopVisibleWindow _
    · rfl

theorem restoreWindowFromTaskbar_quiet (d : Desktop K) (index : Nat) : Quiet d (d.restoreWindowFromTaskbar index) := by
  unfold restoreWindowFromTaskbar
  split
  · exact Quiet.refl d
  · rename_i window _
    dsimp only
    split_ifs
    · exact Quiet.refl d
    · have hedit : Quiet d { d with wm := d.wm.setWindow index fun window => { window with minimized := false } } :=
        Quiet.windows rfl (homes_setWindow d.wm index (by exact fun _ => ⟨rfl, rfl⟩))
      exact (hedit.trans (changeState_quiet _ window.app .minimized .running)).trans
        (Quiet.windows rfl (homes_focusWindow _ index))

theorem homes_switchTo (wm : WindowManager) (desktop : UInt8) :
    Gui.homes (wm.switchTo desktop).windows = Gui.homes wm.windows := by
  unfold switchTo
  split_ifs
  · exact homes_switchVirtualDesktop wm desktop
  · rfl

theorem restoreOrFocusRunningApp_quiet (d : Desktop K) (app : ApplicationDescriptor) :
    Quiet d (d.restoreOrFocusRunningApp app).2 := by
  unfold restoreOrFocusRunningApp
  split
  · exact Quiet.refl d
  · rename_i existing _
    have hedit : Quiet d { d with wm := d.wm.setWindow existing fun window =>
        { window with visible := true, minimized := false, maximized := false } } :=
      Quiet.windows rfl (homes_setWindow d.wm existing (by exact fun _ => ⟨rfl, rfl⟩))
    refine (hedit.trans (changeState_quiet _ app.app .minimized .running)).trans (Quiet.windows rfl ?_)
    exact (homes_focusWindow _ existing).trans (homes_switchTo _ _)

theorem closeWindow_quiet (k : AppKernel K) (d : Desktop K) (index : Nat) : Quiet d (d.closeWindow k index) := by
  unfold closeWindow
  split
  · exact Quiet.refl d
  · rename_i window _
    have hend : Quiet d (d.endApplication k window) := by
      unfold endApplication
      split
      · exact Quiet.refl d
      · rename_i i _
        split_ifs
        · exact Quiet.ofApps (Apps.Steps.entries rfl rfl (Apps.sameRegistry_setRuntime d.apps i ⟨rfl, rfl⟩)) rfl
        · exact Quiet.refl d
    refine hend.trans (Quiet.windows rfl ?_)
    rw [homes_reordered (hideWindow_reordered _ index)]
    exact homes_setWindow _ index (by exact fun _ => ⟨rfl, rfl⟩)

theorem taskManagerKillFocusedApp_quiet (k : AppKernel K) (d : Desktop K) : Quiet d (d.taskManagerKillFocusedApp k).2 := by
  unfold taskManagerKillFocusedApp
  split
  · exact Quiet.refl d
  · rename_i i _
    exact Quiet.ofApps (Apps.Steps.entries rfl rfl (Apps.sameRegistry_setRuntime d.apps i ⟨rfl, rfl⟩)) rfl

theorem composeDesktop_quiet (d : Desktop K) : Quiet d d.composeDesktop := by
  refine Quiet.ofApps (Apps.Steps.entries rfl rfl fun i => ?_) rfl
  show (advanceTransition (d.apps.runtimes i)).valid = _ ∧ (advanceTransition (d.apps.runtimes i)).app = _
  unfold advanceTransition
  split_ifs <;> exact ⟨rfl, rfl⟩

theorem refresh_quiet (d : Desktop K) : Quiet d d.refresh := by
  have hhover : Quiet d { d with wm := d.wm.updateHoverState } := Quiet.windows rfl (homes_updateHoverState d.wm)
  exact hhover.trans (composeDesktop_quiet _)

theorem appHeartbeat_quiet (d : Desktop K) (app : AppKind) : Quiet d (d.appHeartbeat app) := by
  unfold appHeartbeat
  split
  · exact Quiet.refl d
  · rename_i i _
    exact Quiet.ofApps (Apps.Steps.entries rfl rfl (Apps.sameRegistry_setRuntime d.apps i ⟨rfl, rfl⟩)) rfl

theorem appWatchdogTick_quiet (d : Desktop K) : Quiet d d.appWatchdogTick := by
  have hregistry : Apps.SameRegistry d.apps { d.apps with runtimes := fun i => Apps.missHeartbeat (d.apps.runtimes i) } :=
    fun i => ⟨(missHeartbeat_cases (d.apps.runtimes i)).1, (missHeartbeat_cases (d.apps.runtimes i)).2.1⟩
  unfold appWatchdogTick
  dsimp only
  split_ifs
  · exact Quiet.ofApps (Apps.Steps.entries rfl rfl hregistry) rfl
  · exact Quiet.ofApps (Apps.Steps.entries rfl rfl hregistry) rfl

/-! ### Keys and clicks -/

theorem launchAssociatedFile_does (k : AppKernel K) (d : Desktop K) (path : Text) :
    Does k d (d.launchAssociatedFile k path).2 := by
  unfold launchAssociatedFile
  split
  · have hopened : Does k d { d with apps := (d.apps.textEditorOpenFile path).2 } :=
      Does.quiet (Quiet.ofApps (Apps.textEditorOpenFile_steps d.apps path) rfl)
    dsimp only
    split_ifs
    · exact hopened
    · exact hopened.trans (Does.launch _ _)
  · exact Does.launch d _
  · exact Does.windows rfl rfl

theorem fileManagerOpenPath_does (k : AppKernel K) (d : Desktop K) (path : Text) :
    Does k d (d.fileManagerOpenPath k path).2 := by
  have hrest : ∀ a : Apps, a.files = d.apps.files → a.editor = d.apps.editor → a.runtimes = d.apps.runtimes →
      Does k d { d with apps := a } := fun a hfiles heditor hruntimes =>
    Does.quiet (Quiet.ofApps (Apps.Steps.same hfiles heditor hruntimes) rfl)
  unfold fileManagerOpenPath
  split
  · exact hrest _ rfl rfl rfl
  · dsimp only
    split_ifs
    · have hselected : Does k d (d.selectFile path) := hrest _ rfl rfl rfl
      exact hselected.trans (launchAssociatedFile_does k _ path)
    · exact hrest _ rfl rfl rfl

/-- A key that one of the applications handles by itself. -/
theorem inApps_does {handled : Bool × Apps} (h : Apps.Steps d.apps handled.2) : Does k d (d.inApps handled).2 :=
  Does.quiet (Quiet.ofApps h rfl)

theorem fileManagerHandleKey_does (k : AppKernel K) (d : Desktop K) (key : UInt32) :
    Does k d (d.fileManagerHandleKey k key).2 := by
  unfold fileManagerHandleKey
  split_ifs
  · exact inApps_does (Apps.fileManagerBack_steps d.apps)
  · exact inApps_does (Apps.fileManagerForward_steps d.apps)
  · exact inApps_does (Apps.fileManagerCreateFolder_steps d.apps _)
  · exact inApps_does (Apps.Step.rename _ _ (by decide)).steps
  · exact inApps_does (Apps.fileManagerCopySelected_steps d.apps (by decide))
  · exact inApps_does (Apps.fileManagerMoveSelected_steps d.apps (by decide))
  · exact inApps_does (Apps.Step.delete _).steps
  · exact fileManagerOpenPath_does k d _
  · exact Does.refl d

theorem calculatorKey_does (k : AppKernel K) (d : Desktop K) (key : UInt32) : Does k d (d.calculatorKey key).2 := by
  show Does k d (d.inApps (_, { d.apps with calculator := _ })).2
  refine inApps_does ?_
  exact Apps.Steps.same rfl rfl rfl

theorem settingsKey_does (k : AppKernel K) (d : Desktop K) (key : UInt32) : Does k d (d.settingsKey key).2 := by
  show Does k d (d.inApps (_, { d.apps with settings := _ })).2
  refine inApps_does ?_
  exact Apps.Steps.same rfl rfl rfl

theorem dispatchKeyToFocusedApp_does (k : AppKernel K) (d : Desktop K) (key modifiers : UInt32) :
    Does k d (d.dispatchKeyToFocusedApp k key modifiers).2 := by
  unfold dispatchKeyToFocusedApp
  split
  · exact inApps_does (Apps.terminalHandleKey_steps d.apps key)
  · exact inApps_does (Apps.textEditorHandleKey_steps d.apps key modifiers)
  · exact calculatorKey_does k d key
  · exact settingsKey_does k d key
  · exact fileManagerHandleKey_does k d key
  · split_ifs
    · exact Does.quiet (taskManagerKillFocusedApp_quiet k d)
    · exact Does.refl d
  · exact Does.refl d

theorem clickContents_does (k : AppKernel K) (d : Desktop K) (window : Window) (x y : Int32) :
    Does k d (d.clickContents k window x y) := by
  unfold clickContents
  dsimp only
  split
  · split_ifs
    · split
      · exact calculatorKey_does k d _
      · exact Does.refl d
    · exact Does.refl d
  · split_ifs
    · exact inApps_does (Apps.fileManagerBack_steps d.apps)
    · exact fileManagerOpenPath_does k d _
  · exact Does.quiet (taskManagerKillFocusedApp_quiet k d)
  · exact Does.refl d

theorem handleMouseClick_does (k : AppKernel K) (d : Desktop K) (x y : Int32) (button : UInt32) :
    Does k d (d.handleMouseClick k x y button) := by
  unfold handleMouseClick
  split_ifs
  · exact Does.refl d
  split
  · exact Does.launch d _
  split
  · exact Does.quiet (restoreWindowFromTaskbar_quiet d _)
  split
  · exact Does.refl d
  · rename_i index _
    have hfocused : Does k d { d with wm := (d.wm.focusWindow index).2 } := Does.windows rfl (homes_focusWindow d.wm index)
    dsimp only
    split
    · exact hfocused
    · rename_i focused _
      refine hfocused.trans ?_
      split
      · exact Does.quiet (closeWindow_quiet k _ focused)
      · exact Does.quiet (minimizeWindow_quiet _ focused)
      · exact Does.windows rfl (homes_toggleMaximizeWindow _ focused)
      · split
        · exact Does.refl _
        · exact clickContents_does k _ _ x y

/-! ### Events -/

theorem dragTo_quiet (d : Desktop K) (index : Nat) (x y : Int32) : Quiet d (d.dragTo index x y) := by
  have hmoved : ∀ u v, Quiet d { d with wm := { d.wm.setMouse x y with dragging := true }.moveWindow index u v } :=
    fun u v => Quiet.windows rfl (homes_moveWindow { d.wm.setMouse x y with dragging := true } index u v)
  exact (hmoved _ _).trans (refresh_quiet _)

theorem homes_pressLeft (wm : WindowManager) : Gui.homes (pressLeft wm).windows = Gui.homes wm.windows := by
  have hraise : ∀ wm : WindowManager, Gui.homes (raisePressed wm).windows = Gui.homes wm.windows := by
    intro wm
    unfold raisePressed
    split
    · rfl
    · dsimp only
      split_ifs
      · exact homes_focusWindow wm _
      · exact homes_focusWindow wm _
  unfold pressLeft
  rw [(startDrag_same _).windows]
  exact hraise (pressDown wm)

theorem homes_dropWindow (wm : WindowManager) : Gui.homes (dropWindow wm).windows = Gui.homes wm.windows := by
  unfold dropWindow
  split_ifs
  · split
    · exact homes_snapWindow wm _ _
    · rfl
  · rfl

theorem mouseDown_quiet (d : Desktop K) (event : GuiEvent) : Quiet d (d.mouseDown event) := by
  unfold mouseDown
  refine Quiet.trans ?_ (refresh_quiet _)
  refine Quiet.windows rfl ?_
  dsimp only
  split_ifs
  · exact homes_pressLeft _
  · rfl

theorem releaseClick_does (k : AppKernel K) (d : Desktop K) (button : UInt32) : Does k d (d.releaseClick k button) := by
  unfold releaseClick
  dsimp only
  split_ifs
  · exact handleMouseClick_does k d _ _ button
  · exact Does.refl d

theorem mouseUp_does (k : AppKernel K) (d : Desktop K) (event : GuiEvent) : Does k d (d.mouseUp k event) := by
  have hclicked := releaseClick_does k { d with wm := d.wm.setMouse event.x event.y } event.button
  have hmoved : Does k d { d with wm := d.wm.setMouse event.x event.y } := Does.windows rfl rfl
  unfold mouseUp
  dsimp only
  generalize ({ d with wm := d.wm.setMouse event.x event.y } : Desktop K).releaseClick k event.button = clicked at hclicked ⊢
  refine (hmoved.trans hclicked).trans (Does.quiet (Quiet.trans ?_ (refresh_quiet _)))
  exact Quiet.windows rfl (homes_dropWindow clicked.wm)

theorem keyDown_does (k : AppKernel K) (d : Desktop K) (event : GuiEvent) : Does k d (d.keyDown k event) := by
  have hkey := dispatchKeyToFocusedApp_does k d event.key event.button
  unfold keyDown
  dsimp only
  split_ifs
  · exact hkey.trans (Does.quiet (composeDesktop_quiet _))
  · refine (hkey.trans ?_).trans (Does.quiet (composeDesktop_quiet _))
    exact Does.windows rfl (homes_switchVirtualDesktop _ _)
  · exact hkey
  · exact hkey

theorem scrollEditor_path (editor : TextEditorState) (delta : Int32) : (scrollEditor editor delta).path = editor.path := by
  unfold scrollEditor
  split_ifs <;> rfl

/-- **Every event** makes quiet changes and launches applications. -/
theorem dispatchEvent_does (k : AppKernel K) (d : Desktop K) (event : GuiEvent) : Does k d (d.dispatchEvent k event) := by
  unfold dispatchEvent
  cases event.type with
  | mouseMove =>
      dsimp only
      unfold mouseMove
      split
      · exact Does.quiet (dragTo_quiet d _ _ _)
      · exact Does.windows rfl (homes_updateHoverState (d.wm.setMouse event.x event.y))
  | mouseDown => exact Does.quiet (mouseDown_quiet d event)
  | mouseUp => exact mouseUp_does k d event
  | mouseWheel =>
      dsimp only
      unfold mouseWheel
      refine Does.quiet ⟨?_, homes_updateHoverState d.wm⟩
      dsimp only
      split
      · exact Apps.Steps.same rfl rfl rfl
      · refine Apps.Steps.edit rfl rfl fun h => ?_
        show (scrollEditor d.apps.editor _).path.length < kPathLength
        rw [scrollEditor_path]
        exact h
      · exact Apps.Steps.refl _
  | click =>
      have hmoved : Does k d { d with wm := d.wm.setMouse event.x event.y } := Does.windows rfl rfl
      dsimp only
      exact (hmoved.trans (handleMouseClick_does k _ _ _ event.button)).trans (Does.quiet (refresh_quiet _))
  | drag =>
      dsimp only
      cases d.dragged with
      | none => exact Does.refl d
      | some index => exact Does.quiet (dragTo_quiet d index event.x event.y)
  | paint => exact Does.quiet (composeDesktop_quiet d)
  | resize =>
      dsimp only
      refine Does.quiet (Quiet.trans ?_ (composeDesktop_quiet _))
      refine Quiet.windows rfl ?_
      cases d.wm.findTopWindowAt event.x event.y false with
      | none => rfl
      | some index => exact homes_resizeWindow d.wm index _ _
  | doubleClick =>
      dsimp only
      refine Does.quiet (Quiet.trans ?_ (composeDesktop_quiet _))
      refine Quiet.windows rfl ?_
      cases d.wm.findTopWindowAt event.x event.y true with
      | none => rfl
      | some index => exact homes_toggleMaximizeWindow d.wm index
  | keyDown => exact keyDown_does k d event
  | none | hover | keyUp | gamepad | close => exact Does.refl d

/-! ## Runs -/

/-- What the desktop goes through: events, the ticks of the watchdog and the answers to it, and calls from other parts
    of the kernel. -/
inductive Use where
  | event (event : GuiEvent)
  | launch (appId : Option String)
  | restore (i : Fin kApplicationCapacity)
  | heartbeat (app : AppKind)
  | watchdog
  | command (line : Text)
  | createFolder (name : Text)

def useStep (k : AppKernel K) (d : Desktop K) : Use → Desktop K
  | .event event       => d.dispatchEvent k event
  | .launch appId      => (d.launchApplicationById k appId).2
  | .restore i         => (d.restoreOrFocusRunningApp (application i)).2
  | .heartbeat app     => d.appHeartbeat app
  | .watchdog          => d.appWatchdogTick
  | .command line      => (d.inApps (d.apps.executeTerminalCommand line)).2
  | .createFolder name => (d.inApps (d.apps.fileManagerCreateFolder name)).2

theorem useStep_does (k : AppKernel K) (d : Desktop K) (use : Use) : Does k d (d.useStep k use) := by
  cases use with
  | event event => exact dispatchEvent_does k d event
  | launch appId => exact Does.launch d appId
  | restore i => exact Does.quiet (restoreOrFocusRunningApp_quiet d _)
  | heartbeat app => exact Does.quiet (appHeartbeat_quiet d app)
  | watchdog => exact Does.quiet (appWatchdogTick_quiet d)
  | command line => exact inApps_does (Apps.executeTerminalCommand_steps d.apps line)
  | createFolder name => exact inApps_does (Apps.fileManagerCreateFolder_steps d.apps name)

/-- **What quiet changes and launches keep** holds in every run. -/
theorem uses_keep {P : Desktop K → Prop} (hquiet : ∀ d d', Quiet d d' → P d → P d')
    (hlaunch : ∀ d appId, P d → P (d.launchApplicationById k appId).2) (hP : P d) (uses : List Use) :
    P (Lib.run (useStep k) d uses) :=
  Lib.run_invariant (fun _ use h => (useStep_does k _ use).keeps hquiet hlaunch h) hP uses

end Desktop

end Gui
end UefiBoot
