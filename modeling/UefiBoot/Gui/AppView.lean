import UefiBoot.Gui.Focus

/-!
# `Gui.AppView` — the desktop as ten applications

What a user sees of an application is its entry in `g_AppRuntimes` and its window, if it has one. `view` puts the two
together, and forgets the order of the windows and the focus. Each operation on the life cycle then is a function on
the view of one application, under the name of the operation, and the theorems `view_…` say that the code computes
it. What makes the view a function of the state is that no application has two windows, which is part of `Wf`.
-/

namespace UefiBoot
namespace Gui

structure WindowView where
  visible   : Bool
  minimized : Bool
  processId : UInt64
  deriving DecidableEq

structure AppView where
  state     : AppLifecycleState
  processId : UInt64
  window    : Option WindowView
  deriving DecidableEq

namespace AppView

def setState (v : AppView) (source target : AppLifecycleState) : AppView :=
  if v.state = source then { v with state := target } else v

/-- A change of the window, if there is one. -/
def onWindow (v : AppView) (f : WindowView → WindowView) : AppView := { v with window := v.window.map f }

def minimize (v : AppView) : AppView :=
  (v.onWindow fun w => { w with minimized := true }).setState .running .minimized

/-- From the task bar, which shows the visible windows only. -/
def restore (v : AppView) : AppView :=
  if v.window.any (·.visible) then
    (v.onWindow fun w => { w with minimized := false }).setState .minimized .running
  else v

/-- Launching an application that runs already. -/
def reopen (v : AppView) : AppView :=
  (v.onWindow fun w => { w with visible := true, minimized := false }).setState .minimized .running

/-- The process ends only if the window is its own. -/
def close (v : AppView) : AppView :=
  let ended := if v.window.any (·.processId == v.processId) then { v with state := .notRunning, processId := 0 } else v
  ended.onWindow fun w => { w with visible := false }

/-- The window of a process that has just been made. -/
def opened (processId : UInt64) : WindowView := { visible := true, minimized := false, processId := processId }

def kill (v : AppView) : AppView := { v with state := .notRunning, processId := 0 }

def heartbeat (v : AppView) : AppView := v.setState .notResponding .running

/-- The watchdog gives up on a running application, or it does not. -/
def missed (v : AppView) (responds : Bool) : AppView :=
  if responds then v else v.setState .running .notResponding

/-- The states in which an application has a process. -/
def Runs (state : AppLifecycleState) : Prop := state = .running ∨ state = .minimized ∨ state = .notResponding

/-- An application that runs has a window on show or in the task bar, and it is that of its process. -/
def Live (v : AppView) : Prop :=
  Runs v.state → ∃ w, v.window = some w ∧ w.visible = true ∧ w.processId = v.processId

/-- What launching an application can come to. -/
inductive Launched (v : AppView) : AppView → Prop
  | reopened (h : Runs v.state) : Launched v v.reopen
  | refused : Launched v { v with state := .failed }
  | notStarted (processId : UInt64) : Launched v { v with state := .failed, window := some (opened processId) }
  | started (processId : UInt64) :
    Launched v { state := .running, processId := processId, window := some (opened processId) }

end AppView

/-! ## The view of a desktop -/

def Window.look (w : Window) : WindowView :=
  { visible := w.visible, minimized := w.minimized, processId := w.processId }

/-- The window of an application. -/
def windowOf (windows : List Window) (app : AppKind) : Option WindowView :=
  (windows.find? (·.app = app)).map Window.look

/-- The application whose entry is at `i`. -/
def appOf (i : Fin kApplicationCapacity) : AppKind := (application i).app

/-- Every application has an entry, and no two the same. -/
theorem exists_appOf (app : AppKind) : ∃ i, appOf i = app := by
  cases app <;> decide

theorem appOf_injective : Function.Injective appOf := by decide

/-- No two windows of one application. -/
def OneWindowEach (windows : List Window) : Prop := (windows.map (·.app)).Nodup

section WindowOf

variable {windows windows' : List Window} {w : Window} {app : AppKind} {v : WindowView}

theorem OneWindowEach.eq (h : OneWindowEach windows) {w' : Window} (hw : w ∈ windows) (hw' : w' ∈ windows)
    (happ : w.app = w'.app) : w = w' := List.inj_on_of_nodup_map h hw hw' happ

theorem windowOf_eq_some_iff (h : OneWindowEach windows) :
    windowOf windows app = some v ↔ ∃ w ∈ windows, w.app = app ∧ w.look = v := by
  unfold windowOf
  rw [Option.map_eq_some_iff]
  constructor
  · rintro ⟨w, hfind, rfl⟩
    exact ⟨w, List.mem_of_find?_eq_some hfind, by simpa using List.find?_some hfind, rfl⟩
  · rintro ⟨w, hw, happ, rfl⟩
    cases hfind : windows.find? (·.app = app) with
    | none =>
        have hno := List.find?_eq_none.mp hfind w hw
        rw [happ] at hno
        exact absurd hno (by simp)
    | some u =>
        have hu : u.app = app := by simpa using List.find?_some hfind
        rw [h.eq (List.mem_of_find?_eq_some hfind) hw (hu.trans happ.symm)]
        exact ⟨w, rfl, rfl⟩

theorem windowOf_eq_none_iff : windowOf windows app = none ↔ ∀ w ∈ windows, w.app ≠ app := by
  unfold windowOf
  rw [Option.map_eq_none_iff, List.find?_eq_none]
  simp only [decide_eq_true_eq, ne_eq]

theorem windowOf_append (windows : List Window) (w : Window) (app : AppKind) :
    windowOf (windows ++ [w]) app =
      if w.app = app then (windowOf windows app).or (some w.look) else windowOf windows app := by
  unfold windowOf
  rw [List.find?_append]
  by_cases happ : w.app = app
  · rw [if_pos happ, List.find?_singleton, if_pos (by simpa using happ)]
    cases windows.find? (·.app = app) <;> rfl
  · rw [if_neg happ, List.find?_singleton, if_neg (by simpa using happ), Option.or_none]

end WindowOf

/-- The windows of the applications: one each, and on the desktop of the application. -/
structure WindowsWf (windows : List Window) : Prop where
  oneEach : OneWindowEach windows
  desktop : ∀ w ∈ windows, ∀ i, appOf i = w.app → w.desktop = (application i).desktop

/-- The same windows, in another order and with the focus elsewhere. -/
def Reordered (windows windows' : List Window) : Prop :=
  (windows'.map WindowManager.unfocus).Perm (windows.map WindowManager.unfocus)

section Reordered

open WindowManager

variable {windows windows' : List Window}

theorem Reordered.refl (windows : List Window) : Reordered windows windows := List.Perm.refl _

theorem Reordered.trans {windows'' : List Window} (h : Reordered windows windows') (h' : Reordered windows' windows'') :
    Reordered windows windows'' := List.Perm.trans h' h

theorem Reordered.symm (h : Reordered windows windows') : Reordered windows' windows := List.Perm.symm h

/-- Two windows that differ in the focus at most. -/
theorem same_of_unfocus {u w : Window} (h : unfocus u = unfocus w) :
    u.app = w.app ∧ u.desktop = w.desktop ∧ u.look = w.look := by
  have happ : (unfocus u).app = (unfocus w).app := by rw [h]
  have hdesktop : (unfocus u).desktop = (unfocus w).desktop := by rw [h]
  have hlook : (unfocus u).look = (unfocus w).look := by rw [h]
  exact ⟨happ, hdesktop, hlook⟩

theorem Reordered.mem (h : Reordered windows windows') {w : Window} (hw : w ∈ windows') :
    ∃ u ∈ windows, u.app = w.app ∧ u.desktop = w.desktop ∧ u.look = w.look := by
  have hmem : unfocus w ∈ windows.map unfocus := h.mem_iff.mp (List.mem_map_of_mem hw)
  obtain ⟨u, hu, heq⟩ := List.mem_map.mp hmem
  exact ⟨u, hu, same_of_unfocus heq⟩

theorem Reordered.oneEach (h : Reordered windows windows') (hone : OneWindowEach windows) : OneWindowEach windows' := by
  have happs : ∀ l : List Window, (l.map unfocus).map (·.app) = l.map (·.app) := fun l => by
    rw [List.map_map]
    rfl
  have hperm := List.Perm.map (·.app) h
  rw [happs, happs] at hperm
  exact hperm.nodup_iff.mpr hone

theorem Reordered.wf (h : Reordered windows windows') (hwf : WindowsWf windows) : WindowsWf windows' := by
  refine ⟨h.oneEach hwf.oneEach, fun w hw i hi => ?_⟩
  obtain ⟨u, hu, happ, hdesktop, -⟩ := h.mem hw
  rw [← hdesktop]
  exact hwf.desktop u hu i (hi.trans happ.symm)

theorem Reordered.windowOf_eq (h : Reordered windows windows') (hone : OneWindowEach windows) (app : AppKind) :
    windowOf windows' app = windowOf windows app := by
  have hsub : ∀ {l l' : List Window}, Reordered l l' → ∀ v,
      (∃ w ∈ l', w.app = app ∧ w.look = v) → ∃ w ∈ l, w.app = app ∧ w.look = v := by
    rintro l l' hre v ⟨w, hw, happ, hlook⟩
    obtain ⟨u, hu, happ', -, hlook'⟩ := hre.mem hw
    exact ⟨u, hu, happ'.trans happ, hlook'.trans hlook⟩
  ext v
  rw [windowOf_eq_some_iff (h.oneEach hone), windowOf_eq_some_iff hone]
  exact ⟨hsub h v, hsub h.symm v⟩

theorem raised_reordered (wm : WindowManager) (i : Nat) : Reordered wm.windows (wm.raised i) := by
  unfold Reordered raised
  have hmodify : ∀ (l : List Window) (n : Nat), (l.modify n setFocus).map unfocus = l.map unfocus := by
    intro l n
    ext j
    rw [List.getElem?_map, List.getElem?_modify, List.getElem?_map]
    cases l[j]? with
    | none => rfl
    | some v =>
        simp only [Option.map_eq_map, Option.map_some]
        split_ifs <;> rfl
  rw [hmodify]
  refine ((Lib.perm_toTop _ i).map unfocus).trans ?_
  rw [List.map_map]
  exact List.Perm.refl _

theorem focusWindow_reordered (wm : WindowManager) (i : Nat) : Reordered wm.windows (wm.focusWindow i).2.windows := by
  cases hshown : (wm.windows[i]?).any wm.shown with
  | false =>
      rw [focusWindow_refused hshown]
      exact Reordered.refl _
  | true =>
      obtain ⟨w, hw, hshown⟩ := Option.any_eq_true _ _ |>.mp hshown
      rw [focusWindow_eq hw hshown]
      exact raised_reordered wm i

theorem focusTopVisibleWindow_reordered (wm : WindowManager) :
    Reordered wm.windows wm.focusTopVisibleWindow.windows := by
  unfold focusTopVisibleWindow
  split
  · exact focusWindow_reordered wm _
  · unfold Reordered clearWindowFocus
    rw [List.map_map]
    exact List.Perm.refl _

theorem switchTo_reordered (wm : WindowManager) (desktop : UInt8) :
    Reordered wm.windows (wm.switchTo desktop).windows := by
  unfold switchTo switchVirtualDesktop
  split_ifs
  · exact Reordered.refl _
  · exact focusTopVisibleWindow_reordered { wm with activeDesktop := desktop, dragWindowIndex := none }
  · exact Reordered.refl _

end Reordered

/-! ## A window that is edited -/

section Edit

open WindowManager

variable {windows : List Window} {j : Nat} {w : Window} {f : Window → Window}

theorem modify_app (hf : ∀ w, (f w).app = w.app) (windows : List Window) (j : Nat) :
    (windows.modify j f).map (·.app) = windows.map (·.app) := by
  ext n
  rw [List.getElem?_map, List.getElem?_modify, List.getElem?_map]
  cases windows[n]? with
  | none => rfl
  | some v =>
      simp only [Option.map_eq_map, Option.map_some]
      split_ifs
      · rw [hf]
      · rfl

theorem mem_modify (h : w ∈ windows.modify j f) : w ∈ windows ∨ ∃ u, windows[j]? = some u ∧ w = f u := by
  obtain ⟨n, hn⟩ := List.mem_iff_getElem?.mp h
  rw [List.getElem?_modify] at hn
  obtain ⟨u, hu, rfl⟩ := Option.map_eq_some_iff.mp hn
  split_ifs with hjn
  · subst hjn
    exact .inr ⟨u, hu, rfl⟩
  · exact .inl (List.mem_of_getElem? hu)

theorem WindowsWf.modify (hwf : WindowsWf windows) (hf : ∀ w, (f w).app = w.app ∧ (f w).desktop = w.desktop) (j : Nat) :
    WindowsWf (windows.modify j f) := by
  constructor
  · unfold OneWindowEach
    rw [modify_app fun w => (hf w).1]
    exact hwf.oneEach
  · intro v hv i hi
    rcases mem_modify hv with hold | ⟨u, hu, rfl⟩
    · exact hwf.desktop v hold i hi
    · rw [(hf u).2]
      exact hwf.desktop u (List.mem_of_getElem? hu) i (hi.trans (hf u).1)

/-- Only the application of the window sees it. -/
theorem windowOf_modify (hone : OneWindowEach windows) (hf : ∀ w, (f w).app = w.app) (hw : windows[j]? = some w)
    (app : AppKind) :
    windowOf (windows.modify j f) app = if w.app = app then some (f w).look else windowOf windows app := by
  have hone' : OneWindowEach (windows.modify j f) := by
    unfold OneWindowEach
    rw [modify_app hf]
    exact hone
  have hedited : f w ∈ windows.modify j f := by
    refine List.mem_of_getElem? (i := j) ?_
    rw [List.getElem?_modify_eq, hw]
    rfl
  by_cases happ : w.app = app
  · rw [if_pos happ]
    exact (windowOf_eq_some_iff hone').mpr ⟨f w, hedited, (hf w).trans happ, rfl⟩
  · rw [if_neg happ]
    ext v
    rw [windowOf_eq_some_iff hone', windowOf_eq_some_iff hone]
    constructor
    · rintro ⟨u, hu, happ', hlook⟩
      rcases mem_modify hu with hold | ⟨u', hu', rfl⟩
      · exact ⟨u, hold, happ', hlook⟩
      · rw [hw] at hu'
        rw [← Option.some.inj hu', hf] at happ'
        exact absurd happ' happ
    · rintro ⟨u, hu, happ', hlook⟩
      obtain ⟨n, hn⟩ := List.mem_iff_getElem?.mp hu
      refine ⟨u, List.mem_of_getElem? (i := n) ?_, happ', hlook⟩
      have hjn : j ≠ n := by
        rintro rfl
        rw [hw] at hn
        rw [← Option.some.inj hn] at happ'
        exact happ happ'
      rw [List.getElem?_modify_ne _ _ hjn]
      exact hn

end Edit

namespace Desktop

variable {K : Type} {d d' d'' : Desktop K} {i : Fin kApplicationCapacity} {j : Nat} {w : Window} {v v' : AppView}

open WindowManager

/-- The registry is filled, and the windows are those of its applications. -/
structure Wf (d : Desktop K) : Prop where
  registered : ∀ i, (d.apps.runtimes i).valid = true ∧ (d.apps.runtimes i).app = appOf i
  windows    : WindowsWf d.wm.windows

def view (d : Desktop K) (i : Fin kApplicationCapacity) : AppView :=
  { state := (d.apps.runtimes i).state
    processId := (d.apps.runtimes i).processId
    window := windowOf d.wm.windows (appOf i) }

theorem Wf.findAppRuntime (h : Wf d) (i : Fin kApplicationCapacity) : d.apps.findAppRuntime (appOf i) = some i := by
  refine Lib.firstSlot_unique ?_ fun n hn => ?_
  · rw [(h.registered i).1, (h.registered i).2]
    simp
  · rw [(h.registered n).1, (h.registered n).2] at hn
    exact appOf_injective (by simpa using hn)

/-- One step on the application at `i`: its view becomes `v`, and the others stay. -/
def Turns (d d' : Desktop K) (i : Fin kApplicationCapacity) (v : AppView) : Prop :=
  Wf d' ∧ view d' = Function.update (view d) i v

theorem Turns.self (h : Turns d d' i v) : view d' i = v := by
  rw [h.2, Function.update_self]

theorem Turns.other (h : Turns d d' i v) {n : Fin kApplicationCapacity} (hn : n ≠ i) : view d' n = view d n := by
  rw [h.2, Function.update_of_ne hn]

theorem Turns.refl (h : Wf d) (i : Fin kApplicationCapacity) : Turns d d i (view d i) :=
  ⟨h, (Function.update_eq_self i _).symm⟩

theorem Turns.trans (h : Turns d d' i v) (h' : Turns d' d'' i v') : Turns d d'' i v' := by
  refine ⟨h'.1, ?_⟩
  rw [h'.2, h.2, Function.update_idem]

/-- What the view does not look at. -/
theorem Turns.congr (h : Turns d d' i v) (hruntimes : d''.apps.runtimes = d'.apps.runtimes)
    (hwindows : Reordered d'.wm.windows d''.wm.windows) : Turns d d'' i v := by
  refine ⟨⟨by rw [hruntimes]; exact h.1.registered, hwindows.wf h.1.windows⟩, ?_⟩
  rw [← h.2]
  funext n
  unfold view
  rw [hruntimes, hwindows.windowOf_eq h.1.windows.oneEach]

theorem view_window (h : Wf d) (hw : d.wm.windows[j]? = some w) (happ : w.app = appOf i) :
    (view d i).window = some w.look :=
  (windowOf_eq_some_iff h.windows.oneEach).mpr ⟨w, List.mem_of_getElem? hw, happ, rfl⟩

theorem Turns.of_setRuntime (h : Wf d) {f : AppRuntimeState → AppRuntimeState}
    (hf : ∀ r, (f r).valid = r.valid ∧ (f r).app = r.app) :
    Turns d (d.setRuntime i f) i
      { view d i with
        state := (f (d.apps.runtimes i)).state
        processId := (f (d.apps.runtimes i)).processId } := by
  have hget : ∀ n, (d.setRuntime i f).apps.runtimes n =
      if n = i then f (d.apps.runtimes i) else d.apps.runtimes n := fun n => by
    unfold setRuntime Apps.setRuntime
    dsimp only
    rw [Function.update_apply]
  refine ⟨⟨fun n => ?_, h.windows⟩, ?_⟩
  · rw [hget]
    split_ifs with hn
    · rw [(hf _).1, (hf _).2, hn]
      exact h.registered i
    · exact h.registered n
  · funext n
    by_cases hn : n = i
    · subst hn
      rw [Function.update_self]
      unfold view
      rw [hget, if_pos rfl]
      rfl
    · rw [Function.update_of_ne hn]
      unfold view
      rw [hget, if_neg hn]
      rfl

theorem Turns.of_changeState (h : Wf d) (source target : AppLifecycleState) :
    Turns d (d.changeState (appOf i) source target) i ((view d i).setState source target) := by
  unfold changeState AppView.setState
  rw [h.findAppRuntime i]
  dsimp only
  show Turns d _ i (if (d.apps.runtimes i).state = source then _ else _)
  split_ifs
  · exact Turns.of_setRuntime h fun r => ⟨rfl, rfl⟩
  · exact Turns.refl h i

theorem Turns.of_setWindow (h : Wf d) {f : Window → Window} {g : WindowView → WindowView}
    (hf : ∀ w, (f w).app = w.app ∧ (f w).desktop = w.desktop ∧ (f w).look = g w.look)
    (hw : d.wm.windows[j]? = some w) (happ : w.app = appOf i) :
    Turns d { d with wm := d.wm.setWindow j f } i ((view d i).onWindow g) := by
  have hwindow := view_window h hw happ
  refine ⟨⟨h.registered, h.windows.modify (fun w => ⟨(hf w).1, (hf w).2.1⟩) j⟩, ?_⟩
  funext n
  have hof := windowOf_modify h.windows.oneEach (fun w => (hf w).1) hw (appOf n)
  by_cases hn : n = i
  · subst hn
    rw [Function.update_self]
    unfold AppView.onWindow
    rw [hwindow, Option.map_some, ← (hf w).2.2]
    rw [if_pos happ] at hof
    unfold view
    rw [← hof]
    rfl
  · rw [Function.update_of_ne hn]
    rw [if_neg fun hsame => hn (appOf_injective (hsame.symm.trans happ))] at hof
    unfold view
    rw [← hof]
    rfl

/-! ## The operations -/

theorem minimizeWindow_turns (h : Wf d) (hw : d.wm.windows[j]? = some w) (happ : w.app = appOf i) :
    Turns d (d.minimizeWindow j) i (view d i).minimize := by
  have hedit := Turns.of_setWindow (f := fun window => { window with minimized := true })
    (g := fun view => { view with minimized := true }) h (fun w => ⟨rfl, rfl, rfl⟩) hw happ
  have hstate := hedit.trans (Turns.of_changeState (i := i) hedit.1 .running .minimized)
  rw [hedit.self] at hstate
  refine hstate.congr ?_ ?_
  · unfold minimizeWindow
    rw [hw]
    dsimp only
    rw [happ]
  · unfold minimizeWindow
    rw [hw]
    dsimp only
    rw [changeState_wm, changeState_wm]
    split_ifs
    · exact focusTopVisibleWindow_reordered _
    · exact Reordered.refl _

theorem restoreWindowFromTaskbar_turns (h : Wf d) (hw : d.wm.windows[j]? = some w) (happ : w.app = appOf i) :
    Turns d (d.restoreWindowFromTaskbar j) i (view d i).restore := by
  have hwindow := view_window h hw happ
  unfold AppView.restore restoreWindowFromTaskbar
  rw [hw, hwindow, Option.any_some]
  dsimp only
  show Turns d _ i (if w.visible = true then _ else _)
  cases hvisible : w.visible with
  | false => exact Turns.refl h i
  | true =>
      have hedit := Turns.of_setWindow (f := fun window => { window with minimized := false })
        (g := fun view => { view with minimized := false }) h (fun w => ⟨rfl, rfl, rfl⟩) hw happ
      have hstate := hedit.trans (Turns.of_changeState (i := i) hedit.1 .minimized .running)
      rw [hedit.self] at hstate
      refine hstate.congr ?_ ?_
      · rw [happ]
        rfl
      · rw [happ]
        exact focusWindow_reordered _ j

/-- The window of an application is found where it is. -/
theorem findWindowByApp_eq (h : Wf d) (i : Fin kApplicationCapacity) :
    (d.wm.findWindowByApp (appOf i) (application i).desktop = none ∧ windowOf d.wm.windows (appOf i) = none) ∨
      ∃ j w, d.wm.findWindowByApp (appOf i) (application i).desktop = some j ∧
        d.wm.windows[j]? = some w ∧ w.app = appOf i := by
  cases hfind : d.wm.findWindowByApp (appOf i) (application i).desktop with
  | none =>
      refine .inl ⟨rfl, windowOf_eq_none_iff.mpr fun w hw happ => ?_⟩
      have hno := List.findIdx?_eq_none_iff.mp hfind w hw
      rw [happ, h.windows.desktop w hw i happ.symm] at hno
      exact absurd hno (by simp)
  | some j =>
      obtain ⟨hlt, htest, -⟩ := List.findIdx?_eq_some_iff_getElem.mp hfind
      refine .inr ⟨j, _, rfl, List.getElem?_eq_getElem hlt, ?_⟩
      rw [Bool.and_eq_true] at htest
      simpa using htest.1

theorem restoreOrFocusRunningApp_turns (h : Wf d) (i : Fin kApplicationCapacity)
    (hwindow : (view d i).window ≠ none) : Turns d (d.restoreOrFocusRunningApp (application i)).2 i (view d i).reopen := by
  rcases findWindowByApp_eq h i with ⟨-, hnone⟩ | ⟨j, w, hfind, hw, happ⟩
  · exact absurd hnone hwindow
  · have hedit := Turns.of_setWindow
      (f := fun window => { window with visible := true, minimized := false, maximized := false })
      (g := fun view => { view with visible := true, minimized := false }) h (fun w => ⟨rfl, rfl, rfl⟩) hw happ
    have hstate := hedit.trans (Turns.of_changeState (i := i) hedit.1 .minimized .running)
    rw [hedit.self] at hstate
    unfold restoreOrFocusRunningApp
    rw [show d.wm.findWindowByApp (application i).app (application i).desktop = some j from hfind]
    refine hstate.congr ?_ ?_
    · rfl
    · exact (switchTo_reordered _ _).trans (focusWindow_reordered _ j)

theorem hideWindow_reordered (wm : WindowManager) (j : Nat) :
    Reordered (wm.setWindow j fun window => { window with visible := false, focused := false }).windows
      (hideWindow wm j).windows := by
  rw [hideWindow_eq]
  dsimp only
  split_ifs
  · exact focusTopVisibleWindow_reordered _
  · exact Reordered.refl _

theorem endApplication_turns (k : AppKernel K) (h : Wf d) (hw : d.wm.windows[j]? = some w) (happ : w.app = appOf i) :
    Turns d (d.endApplication k w) i
      (if (view d i).window.any (·.processId == (view d i).processId) then (view d i).kill else view d i) := by
  unfold endApplication
  rw [view_window h hw happ, happ, h.findAppRuntime i, Option.any_some]
  dsimp only
  have htest : (w.look.processId == (view d i).processId) = true ↔ (d.apps.runtimes i).processId = w.processId := by
    rw [beq_iff_eq]
    exact eq_comm
  by_cases hpid : (d.apps.runtimes i).processId = w.processId
  · rw [if_pos hpid, if_pos (htest.mpr hpid)]
    have hkernel : Wf { d with kernel := (k.exit d.kernel (d.apps.runtimes i).processId 0).2 } :=
      ⟨h.registered, h.windows⟩
    have hset := Turns.of_setRuntime (i := i) (f := fun runtime => { runtime with
      state := .notRunning, processId := 0, threadId := 0, missedHeartbeatCount := 0, transitionTicks := 0 })
      hkernel fun r => ⟨rfl, rfl⟩
    exact hset
  · rw [if_neg hpid, if_neg fun htrue => hpid (htest.mp htrue)]
    exact Turns.refl h i

theorem closeWindow_turns (k : AppKernel K) (h : Wf d) (hw : d.wm.windows[j]? = some w) (happ : w.app = appOf i) :
    Turns d (d.closeWindow k j) i (view d i).close := by
  have hend := endApplication_turns k h hw happ
  have hw' : (d.endApplication k w).wm.windows[j]? = some w := by
    rw [endApplication_wm]
    exact hw
  have hedit := Turns.of_setWindow (f := fun window => { window with visible := false, focused := false })
    (g := fun view => { view with visible := false }) hend.1 (fun w => ⟨rfl, rfl, rfl⟩) hw' happ
  rw [hend.self] at hedit
  unfold AppView.close closeWindow
  rw [hw]
  refine (hend.trans hedit).congr ?_ ?_
  · rfl
  · exact hideWindow_reordered _ j

theorem appHeartbeat_turns (h : Wf d) (i : Fin kApplicationCapacity) :
    Turns d (d.appHeartbeat (appOf i)) i (view d i).heartbeat := by
  unfold appHeartbeat
  rw [h.findAppRuntime i]
  have hset := Turns.of_setRuntime (i := i) (f := fun runtime => { runtime with
    missedHeartbeatCount := 0, state := if runtime.state = .notResponding then .running else runtime.state })
    h fun r => ⟨rfl, rfl⟩
  have hview : (view d i).heartbeat = { view d i with
      state := if (d.apps.runtimes i).state = .notResponding then .running else (d.apps.runtimes i).state } := by
    unfold AppView.heartbeat AppView.setState
    show (if (d.apps.runtimes i).state = .notResponding then _ else _) = _
    split_ifs <;> rfl
  rw [hview]
  exact hset

theorem taskManagerKill_turns (k : AppKernel K) (h : Wf d) (hfind : d.findKillableApp = some i) :
    Turns d (d.taskManagerKillFocusedApp k).2 i (view d i).kill := by
  unfold taskManagerKillFocusedApp
  rw [hfind]
  have hkernel : Wf { d with kernel := (k.exit d.kernel (d.apps.runtimes i).processId 0).2 } :=
    ⟨h.registered, h.windows⟩
  have hset := Turns.of_setRuntime (i := i) (f := fun runtime => { runtime with
    processId := 0, threadId := 0, state := .notRunning, transitionTicks := 0 }) hkernel fun r => ⟨rfl, rfl⟩
  exact hset.congr rfl (Reordered.refl _)

/-- A kill that finds no application changes nothing. -/
theorem terminalKill_misses {argument : Text} (h : ∀ processId i, Apps.killTarget argument = some processId →
    d.apps.findKillTarget processId ≠ some i) : d.terminalKill argument = (false, d) := by
  unfold terminalKill Apps.terminalKillProcess
  cases htarget : Apps.killTarget argument with
  | none => rfl
  | some processId =>
    dsimp only
    cases hfind : d.apps.findKillTarget processId with
    | none => rfl
    | some i => exact absurd hfind (h processId i htarget)

theorem terminalKill_turns (h : Wf d) {argument : Text} {processId : UInt64} (htarget : Apps.killTarget argument = some processId)
    (hfind : d.apps.findKillTarget processId = some i) : Turns d (d.terminalKill argument).2 i (view d i).kill := by
  have hset := Turns.of_setRuntime (i := i) (f := fun runtime => { runtime with
    state := .notRunning, processId := 0, threadId := 0, transitionTicks := 0 }) h fun r => ⟨rfl, rfl⟩
  unfold terminalKill Apps.terminalKillProcess
  rw [htarget]
  dsimp only
  rw [hfind]
  exact hset.congr rfl (Reordered.refl _)

/-! ## Launching -/

theorem launchFailed_turns (h : Wf d) (i : Fin kApplicationCapacity) :
    Turns d (d.launchFailed i).2 i { view d i with state := .failed } := by
  have hset := Turns.of_setRuntime (i := i) (f := fun runtime => { runtime with state := .failed, transitionTicks := 0 })
    h fun r => ⟨rfl, rfl⟩
  exact hset.congr rfl (Reordered.refl _)

/-- The window of an application that had none. -/
theorem Turns.of_append (h : Wf d) (hnone : windowOf d.wm.windows (appOf i) = none) {wm : WindowManager}
    (hwm : wm.windows = d.wm.windows ++ [w]) (happ : w.app = appOf i)
    (hdesktop : w.desktop = (application i).desktop) :
    Turns d { d with wm := wm } i { view d i with window := some w.look } := by
  refine ⟨⟨h.registered, ?_, ?_⟩, ?_⟩
  · show OneWindowEach wm.windows
    unfold OneWindowEach
    rw [hwm, List.map_append, List.nodup_append]
    refine ⟨h.windows.oneEach, by simp, fun app happ' app' happ'' => ?_⟩
    obtain ⟨u, hu, rfl⟩ := List.mem_map.mp happ'
    obtain rfl : app' = w.app := by simpa using happ''
    rw [happ]
    exact windowOf_eq_none_iff.mp hnone u hu
  · intro u hu n hn
    replace hu : u ∈ wm.windows := hu
    rw [hwm] at hu
    rcases List.mem_append.mp hu with hold | hnew
    · exact h.windows.desktop u hold n hn
    · obtain rfl := List.mem_singleton.mp hnew
      rw [appOf_injective (hn.trans happ)]
      exact hdesktop
  · funext n
    have hof := windowOf_append d.wm.windows w (appOf n)
    by_cases hn : n = i
    · subst hn
      rw [if_pos happ, hnone] at hof
      rw [Function.update_self]
      unfold view
      rw [hwm, hof]
      rfl
    · rw [if_neg fun hsame => hn (appOf_injective (hsame.symm.trans happ))] at hof
      rw [Function.update_of_ne hn]
      unfold view
      rw [hwm, hof]

theorem launchWindow_turns (h : Wf d) (i : Fin kApplicationCapacity) (launchCount : UInt32) (processId threadId : UInt64) :
    let launched := launchWindow d.wm (application i) launchCount processId threadId
    (launched.1 = false ∧ Turns d { d with wm := launched.2 } i (view d i)) ∨
      launched.1 = true ∧
        Turns d { d with wm := launched.2 } i { view d i with window := some (AppView.opened processId) } := by
  intro launched
  rcases findWindowByApp_eq h i with ⟨hfind, hnone⟩ | ⟨j, w, hfind, hw, happ⟩
  · have hlaunched : launched = d.wm.addWindow (some (application i).name)
        (d.wm.initialWindowBounds (application i) launchCount) (application i).color (application i).app
        (application i).desktop processId threadId := by
      show launchWindow d.wm (application i) launchCount processId threadId = _
      unfold launchWindow
      rw [show d.wm.findWindowByApp (application i).app (application i).desktop = none from hfind]
    rw [hlaunched]
    unfold addWindow
    split_ifs
    · exact .inl ⟨rfl, Turns.refl h i⟩
    · refine .inr ⟨rfl, ?_⟩
      dsimp only
      generalize hwm : ({ d.wm.rememberAppPlacement _ _ with windows := _ } : WindowManager) = wm
      have happend : ∃ w : Window, wm.windows = d.wm.windows ++ [w] ∧ w.app = appOf i ∧
          w.desktop = (application i).desktop ∧ w.look = AppView.opened processId := by
        rw [← hwm]
        exact ⟨_, rfl, rfl, rfl, rfl⟩
      obtain ⟨w, hwindows, happ, hdesktop, hlook⟩ := happend
      rw [← hlook]
      exact Turns.of_append h hnone hwindows happ hdesktop
  · have hlaunched : launched = (true, d.wm.setWindow j fun window => { window with
        title := some (application i).name, bounds := d.wm.initialWindowBounds (application i) launchCount,
        restoreBounds := d.wm.initialWindowBounds (application i) launchCount, color := (application i).color,
        visible := true, minimized := false, maximized := false, processId := processId, threadId := threadId }) := by
      show launchWindow d.wm (application i) launchCount processId threadId = _
      unfold launchWindow
      rw [show d.wm.findWindowByApp (application i).app (application i).desktop = some j from hfind]
    rw [hlaunched]
    refine .inr ⟨rfl, ?_⟩
    have hedit := Turns.of_setWindow (g := fun _ => AppView.opened processId)
      (f := fun window => { window with
        title := some (application i).name, bounds := d.wm.initialWindowBounds (application i) launchCount,
        restoreBounds := d.wm.initialWindowBounds (application i) launchCount, color := (application i).color,
        visible := true, minimized := false, maximized := false, processId := processId, threadId := threadId })
      h (fun w => ⟨rfl, rfl, rfl⟩) hw happ
    unfold AppView.onWindow at hedit
    rw [view_window h hw happ] at hedit
    exact hedit

theorem setThread_turns (h : Wf d) (i : Fin kApplicationCapacity) (threadId : UInt64) :
    Turns d { d with wm := setThread d.wm (application i) threadId } i (view d i) := by
  unfold setThread
  rcases findWindowByApp_eq h i with ⟨hfind, -⟩ | ⟨j, w, hfind, hw, happ⟩
  · rw [show d.wm.findWindowByApp (application i).app (application i).desktop = none from hfind]
    exact Turns.refl h i
  · rw [show d.wm.findWindowByApp (application i).app (application i).desktop = some j from hfind]
    have hedit := Turns.of_setWindow (g := id) (f := fun window => { window with threadId := threadId })
      h (fun w => ⟨rfl, rfl, rfl⟩) hw happ
    unfold AppView.onWindow at hedit
    rw [Option.map_id_fun, id_eq] at hedit
    exact hedit

/-- The stores at the start of the event loop make the application run. -/
theorem markRunning_turns (h : Wf d) (i : Fin kApplicationCapacity) {processId : UInt64} (threadId : UInt64)
    (hwindow : (view d i).window = some (AppView.opened processId)) :
    Turns d (d.markRunning (application i) i processId threadId) i
      { state := .running, processId := processId, window := some (AppView.opened processId) } := by
  have hthread := setThread_turns h i threadId
  set wm := (setThread d.wm (application i) threadId).switchTo (application i).desktop with hwm
  have hswitched : Turns d { d with wm := wm } i (view d i) := hthread.congr rfl (switchTo_reordered _ _)
  have hset := Turns.of_setRuntime (i := i) (f := fun runtime => { runtime with
    state := .running, processId := processId, threadId := threadId, launchCount := runtime.launchCount + 1,
    missedHeartbeatCount := 0, transitionTicks := kLaunchTransitionTicks }) hswitched.1 fun r => ⟨rfl, rfl⟩
  rw [← hwindow]
  have hboth := hswitched.trans hset
  rw [hswitched.self] at hboth
  exact hboth

/-- Once the window is there, a start of the event loop makes the application run. -/
theorem launchStarted_turns (h : Wf d) (i : Fin kApplicationCapacity) {processId : UInt64} (threadId : UInt64)
    (hwindow : (view d i).window = some (AppView.opened processId)) :
    Turns d (d.launchStarted (application i) i processId threadId) i
      { state := .running, processId := processId, window := some (AppView.opened processId) } := by
  have hrunning := markRunning_turns h i threadId hwindow
  have hopen : (view (d.markRunning (application i) i processId threadId) i).window ≠ none := by
    rw [hrunning.self]
    exact Option.some_ne_none _
  have hreopen := restoreOrFocusRunningApp_turns hrunning.1 i hopen
  rw [hrunning.self] at hreopen
  exact (Turns.trans hrunning hreopen).congr rfl (Reordered.refl _)

theorem changeState_kernel (d : Desktop K) (app : AppKind) (source target : AppLifecycleState) :
    (d.changeState app source target).kernel = d.kernel := by
  unfold changeState
  split
  · rfl
  · split_ifs <;> rfl

theorem restoreOrFocusRunningApp_kernel (d : Desktop K) (app : ApplicationDescriptor) :
    (d.restoreOrFocusRunningApp app).2.kernel = d.kernel := by
  unfold restoreOrFocusRunningApp
  split
  · rfl
  · exact changeState_kernel _ _ _ _

/-- The window is there: what becomes of the launch depends on the event loop. -/
theorem launchEventLoop_turns (k : AppKernel K) (h : Wf d) (i : Fin kApplicationCapacity) {processId : UInt64}
    (hwindow : (view d i).window = some (AppView.opened processId)) :
    let r := k.start d.kernel processId (application i).id
    let d' := (d.launchEventLoop k (application i) i processId).2
    d'.kernel = r.2 ∧
      Turns d d' i (if r.1.1 then { state := .running, processId := processId, window := some (AppView.opened processId) }
        else { view d i with state := .failed }) := by
  intro r
  have hkernel : Wf { d with kernel := r.2 } := ⟨h.registered, h.windows⟩
  unfold launchEventLoop
  dsimp only
  show (if (!r.1.1) = true then _ else _ : Bool × Desktop K).2.kernel = r.2 ∧ _
  cases hstarted : r.1.1 with
  | false =>
      rw [if_neg Bool.false_ne_true]
      exact ⟨rfl, launchFailed_turns hkernel i⟩
  | true =>
      rw [if_pos rfl]
      exact ⟨restoreOrFocusRunningApp_kernel _ _, launchStarted_turns hkernel i _ hwindow⟩

/-- There is a process: what becomes of the launch depends on the window and on the event loop. -/
theorem launchInWindow_turns (k : AppKernel K) (h : Wf d) (i : Fin kApplicationCapacity) (processId threadId : UInt64) :
    let fits := (launchWindow d.wm (application i) (d.apps.runtimes i).launchCount processId threadId).1
    let r := k.start d.kernel processId (application i).id
    let d' := (d.launchInWindow k (application i) i processId threadId).2
    (fits = false ∧ d'.kernel = d.kernel ∧ Turns d d' i { view d i with state := .failed }) ∨
      (fits = true ∧ d'.kernel = r.2 ∧
        Turns d d' i (if r.1.1 then { state := .running, processId := processId, window := some (AppView.opened processId) }
          else { view d i with state := .failed, window := some (AppView.opened processId) })) := by
  intro fits r
  unfold launchInWindow
  dsimp only
  rcases launchWindow_turns h i (d.apps.runtimes i).launchCount processId threadId with ⟨hfail, hwindow⟩ | ⟨hok, hwindow⟩
  · left
    rw [hfail, Bool.not_false, if_pos rfl]
    have hfailed := hwindow.trans (launchFailed_turns hwindow.1 i)
    rw [hwindow.self] at hfailed
    exact ⟨hfail, rfl, hfailed⟩
  · right
    rw [hok, Bool.not_true, if_neg Bool.false_ne_true]
    obtain ⟨hkernel, hloop⟩ := launchEventLoop_turns k hwindow.1 i (congrArg AppView.window hwindow.self)
    have hboth := hwindow.trans hloop
    rw [hwindow.self] at hboth
    exact ⟨hok, hkernel, hboth⟩

/-- **Launching an application** that does not run comes to one of four things, as the kernel and the window decide. -/
theorem launchApplication_cases (k : AppKernel K) (h : Wf d) (i : Fin kApplicationCapacity)
    (hnot : ¬ AppView.Runs (view d i).state) :
    let r := k.launch d.kernel (application i).id (application i).executablePath
    let fits := (launchWindow d.wm (application i) (d.apps.runtimes i).launchCount r.1.2.1 r.1.2.2).1
    let r' := k.start r.2 r.1.2.1 (application i).id
    let d' := (d.launchApplication k (application i)).2
    (r.1.1 = false ∧ d'.kernel = r.2 ∧ Turns d d' i { view d i with state := .failed }) ∨
      (r.1.1 = true ∧ fits = false ∧ d'.kernel = r.2 ∧ Turns d d' i { view d i with state := .failed }) ∨
      (r.1.1 = true ∧ fits = true ∧ d'.kernel = r'.2 ∧
        Turns d d' i (if r'.1.1 then { state := .running, processId := r.1.2.1, window := some (AppView.opened r.1.2.1) }
          else { view d i with state := .failed, window := some (AppView.opened r.1.2.1) })) := by
  intro r fits r'
  unfold launchApplication
  rw [show d.apps.findAppRuntime (application i).app = some i from h.findAppRuntime i]
  dsimp only
  rw [if_neg (show ¬ ((d.apps.runtimes i).state = .running ∨ (d.apps.runtimes i).state = .minimized ∨
    (d.apps.runtimes i).state = .notResponding) from hnot)]
  have hopening := Turns.of_setRuntime (i := i) (f := fun runtime =>
    { runtime with state := .opening, transitionTicks := kLaunchTransitionTicks }) h fun r => ⟨rfl, rfl⟩
  have hcount : ((d.setRuntime i fun runtime => { runtime with
      state := .opening, transitionTicks := kLaunchTransitionTicks }).apps.runtimes i).launchCount =
      (d.apps.runtimes i).launchCount := by
    show (Function.update d.apps.runtimes i _ i).launchCount = _
    rw [Function.update_self]
  generalize hopen : (d.setRuntime i fun runtime => { runtime with
    state := .opening, transitionTicks := kLaunchTransitionTicks }) = opening at hopening hcount
  have hopenKernel : opening.kernel = d.kernel := by rw [← hopen]; rfl
  have hopenWm : opening.wm = d.wm := by rw [← hopen]; rfl
  unfold launchProcess
  dsimp only
  rw [hopenKernel]
  have hturns : Turns d { opening with kernel := r.2 } i _ := hopening.congr rfl (Reordered.refl _)
  show (_ = false ∧ (if (!r.1.1) = true then _ else _ : Bool × Desktop K).2.kernel = r.2 ∧ _) ∨ _
  cases hlaunched : r.1.1 with
  | false =>
      -- the state is `opening` only until the call returns
      left
      rw [Bool.not_false, if_pos rfl]
      have hfailed := hturns.trans (launchFailed_turns hturns.1 i)
      rw [hturns.self] at hfailed
      exact ⟨rfl, rfl, hfailed⟩
  | true =>
      right
      rw [Bool.not_true, if_neg Bool.false_ne_true]
      have hfits : (launchWindow opening.wm (application i) (opening.apps.runtimes i).launchCount r.1.2.1 r.1.2.2).1 =
          fits := by
        rw [hcount, hopenWm]
      rcases launchInWindow_turns k hturns.1 i r.1.2.1 r.1.2.2 with ⟨hno, hkernel, hin⟩ | ⟨hyes, hkernel, hin⟩
      · rw [hturns.self] at hin
        exact .inl ⟨rfl, hfits.symm.trans hno, hkernel, hturns.trans hin⟩
      · rw [hturns.self] at hin
        exact .inr ⟨rfl, hfits.symm.trans hyes, hkernel, hturns.trans hin⟩

theorem launchApplication_running (k : AppKernel K) (h : Wf d) (i : Fin kApplicationCapacity)
    (hruns : AppView.Runs (view d i).state) :
    d.launchApplication k (application i) = d.restoreOrFocusRunningApp (application i) := by
  unfold launchApplication
  rw [show d.apps.findAppRuntime (application i).app = some i from h.findAppRuntime i]
  exact if_pos hruns

/-- What a launch does to the view of the application. -/
theorem launchApplication_turns (k : AppKernel K) (h : Wf d) (i : Fin kApplicationCapacity) (hlive : (view d i).Live) :
    ∃ v, AppView.Launched (view d i) v ∧ Turns d (d.launchApplication k (application i)).2 i v := by
  by_cases hruns : AppView.Runs (view d i).state
  · rw [launchApplication_running k h i hruns]
    obtain ⟨w, hwindow, -⟩ := hlive hruns
    refine ⟨_, .reopened hruns, restoreOrFocusRunningApp_turns h i ?_⟩
    rw [hwindow]
    exact Option.some_ne_none w
  · rcases launchApplication_cases k h i hruns with ⟨-, -, hturns⟩ | ⟨-, -, -, hturns⟩ | ⟨-, -, -, hturns⟩
    · exact ⟨_, .refused, hturns⟩
    · exact ⟨_, .refused, hturns⟩
    · refine ⟨_, ?_, hturns⟩
      split_ifs
      · exact .started _
      · exact .notStarted _

end Desktop
end Gui
end UefiBoot
