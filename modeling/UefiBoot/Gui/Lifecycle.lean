import UefiBoot.Gui.AppView
import UefiBoot.Lib.Run

/-!
# `Gui.Lifecycle` — the state of an application and its window

`g_AppRuntimes` says that an application runs, is minimized or is not running, and its window says whether it can be
seen. `Agrees` is what the two have to do with each other. It is kept by launching, closing, minimizing and restoring,
whatever they come upon, because a running application always has a window (`Live`). It is lost in two ways: a kill
ends an application and leaves its window, and a heartbeat brings an unresponsive application back to `Running`
although its window may have been minimized meanwhile. `lifecycle_agrees_iff` says that there is no third.
-/

namespace UefiBoot
namespace Gui

namespace AppView

variable {v v' : AppView} {source target : AppLifecycleState} {f : WindowView → WindowView}

structure Agrees (v : AppView) : Prop where
  running    : v.state = .running → ∃ w, v.window = some w ∧ w.visible = true ∧ w.minimized = false
  minimized  : v.state = .minimized → ∃ w, v.window = some w ∧ w.visible = true ∧ w.minimized = true
  notRunning : v.state = .notRunning → ∀ w, v.window = some w → w.visible = false

@[simp] theorem setState_window (v : AppView) (source target : AppLifecycleState) :
    (v.setState source target).window = v.window := by
  unfold setState
  split_ifs <;> rfl

@[simp] theorem setState_processId (v : AppView) (source target : AppLifecycleState) :
    (v.setState source target).processId = v.processId := by
  unfold setState
  split_ifs <;> rfl

theorem setState_state (v : AppView) (source target : AppLifecycleState) :
    (v.setState source target).state = if v.state = source then target else v.state := by
  unfold setState
  split_ifs <;> rfl

/-! ## A running application has a window -/

/-- The operations that change a window on the screen and a state in which there is one. -/
theorem Live.change (h : v.Live) (hsource : Runs source)
    (hf : ∀ w, w.visible = true → (f w).visible = true ∧ (f w).processId = w.processId) :
    ((v.onWindow f).setState source target).Live := by
  intro hruns
  have hstate : ((v.onWindow f).setState source target).state = if v.state = source then target else v.state :=
    setState_state _ _ _
  rw [hstate] at hruns
  -- it was running before
  have hbefore : Runs v.state := by
    by_cases hs : v.state = source
    · rw [hs]
      exact hsource
    · rw [if_neg hs] at hruns
      exact hruns
  obtain ⟨w, hw, hvisible, hpid⟩ := h hbefore
  refine ⟨f w, ?_, (hf w hvisible).1, ?_⟩
  · rw [setState_window]
    show v.window.map f = _
    rw [hw]
    rfl
  · rw [(hf w hvisible).2, setState_processId]
    exact hpid

theorem Live.of_not_runs (h : ¬ Runs v.state) : v.Live := fun hruns => absurd hruns h

theorem not_runs_notRunning : ¬ Runs .notRunning := by
  rintro (h | h | h) <;> exact absurd h (by decide)

theorem not_runs_failed : ¬ Runs .failed := by
  rintro (h | h | h) <;> exact absurd h (by decide)

theorem Live.minimize (h : v.Live) : v.minimize.Live := h.change (.inl rfl) fun _ hvisible => ⟨hvisible, rfl⟩

theorem Live.reopen (h : v.Live) : v.reopen.Live := h.change (.inr (.inl rfl)) fun _ _ => ⟨rfl, rfl⟩

theorem Live.restore (h : v.Live) : v.restore.Live := by
  unfold AppView.restore
  split_ifs
  · exact h.change (.inr (.inl rfl)) fun _ hvisible => ⟨hvisible, rfl⟩
  · exact h

theorem heartbeat_eq (v : AppView) : v.heartbeat = (v.onWindow id).setState .notResponding .running := by
  unfold heartbeat onWindow
  rw [Option.map_id_fun, id_eq]

theorem missed_eq (v : AppView) : v.missed false = (v.onWindow id).setState .running .notResponding := by
  unfold missed onWindow
  rw [Option.map_id_fun, id_eq]
  rfl

theorem Live.heartbeat (h : v.Live) : v.heartbeat.Live := by
  rw [heartbeat_eq]
  exact h.change (.inr (.inr rfl)) fun _ hvisible => ⟨hvisible, rfl⟩

theorem Live.missed (h : v.Live) (responds : Bool) : (v.missed responds).Live := by
  cases responds with
  | true => exact h
  | false =>
      rw [missed_eq]
      exact h.change (.inl rfl) fun _ hvisible => ⟨hvisible, rfl⟩

theorem Live.kill (v : AppView) : v.kill.Live := Live.of_not_runs not_runs_notRunning

/-- A window is closed with its process, and a running application has no other. -/
theorem Live.close (h : v.Live) : v.close.Live := by
  refine Live.of_not_runs fun hruns => ?_
  unfold AppView.close at hruns
  split_ifs at hruns with hpid
  · exact not_runs_notRunning hruns
  · obtain ⟨w, hw, -, hwpid⟩ := h hruns
    refine hpid ?_
    rw [hw, Option.any_some, beq_iff_eq]
    exact hwpid

theorem Launched.live (h : v.Live) (hlaunched : Launched v v') : v'.Live := by
  cases hlaunched with
  | reopened _ => exact h.reopen
  | refused => exact Live.of_not_runs not_runs_failed
  | notStarted processId => exact Live.of_not_runs not_runs_failed
  | started processId => exact fun _ => ⟨opened processId, rfl, rfl, rfl⟩

/-! ## The agreement -/

/-- With no state that says anything, there is nothing to agree about. -/
theorem Agrees.of_failed (h : v.state = .failed) : v.Agrees := by
  constructor <;> intro hstate <;> rw [h] at hstate <;> exact absurd hstate (by decide)

theorem Agrees.minimize (h : v.Agrees) : v.minimize.Agrees := by
  have hstate : v.minimize.state = if v.state = .running then .minimized else v.state := setState_state _ _ _
  have hwindow : v.minimize.window = v.window.map fun w => { w with minimized := true } := setState_window _ _ _
  have hminimized : (∃ w, v.window = some w ∧ w.visible = true) →
      ∃ w, v.minimize.window = some w ∧ w.visible = true ∧ w.minimized = true := by
    rintro ⟨w, hw, hvisible⟩
    exact ⟨{ w with minimized := true }, by rw [hwindow, hw]; rfl, hvisible, rfl⟩
  constructor
  · intro hs
    rw [hstate] at hs
    split_ifs at hs with hrunning
    exact absurd hs hrunning
  · intro hs
    rw [hstate] at hs
    split_ifs at hs with hrunning
    · obtain ⟨w, hw, hvisible, -⟩ := h.running hrunning
      exact hminimized ⟨w, hw, hvisible⟩
    · obtain ⟨w, hw, hvisible, -⟩ := h.minimized hs
      exact hminimized ⟨w, hw, hvisible⟩
  · intro hs w hw
    rw [hstate] at hs
    split_ifs at hs
    rw [hwindow] at hw
    obtain ⟨u, hu, rfl⟩ := Option.map_eq_some_iff.mp hw
    exact h.notRunning hs u hu

/-- Showing the window again, whether it was in the task bar or not. -/
theorem Agrees.show (h : v.Agrees) (hf : ∀ w, w.visible = true → (f w).visible = true) (hmin : ∀ w, (f w).minimized = false)
    (hhidden : v.state = .notRunning → ∀ w, v.window = some w → (f w).visible = false) :
    ((v.onWindow f).setState .minimized .running).Agrees := by
  have hstate : ((v.onWindow f).setState .minimized .running).state =
      if v.state = .minimized then .running else v.state := setState_state _ _ _
  have hwindow : ((v.onWindow f).setState .minimized .running).window = v.window.map f := setState_window _ _ _
  have hshown : (∃ w, v.window = some w ∧ w.visible = true) →
      ∃ w, ((v.onWindow f).setState .minimized .running).window = some w ∧ w.visible = true ∧ w.minimized = false := by
    rintro ⟨w, hw, hvisible⟩
    exact ⟨f w, by rw [hwindow, hw]; rfl, hf w hvisible, hmin w⟩
  constructor
  · intro hs
    rw [hstate] at hs
    split_ifs at hs with hminimized
    · obtain ⟨w, hw, hvisible, -⟩ := h.minimized hminimized
      exact hshown ⟨w, hw, hvisible⟩
    · obtain ⟨w, hw, hvisible, -⟩ := h.running hs
      exact hshown ⟨w, hw, hvisible⟩
  · intro hs
    rw [hstate] at hs
    split_ifs at hs with hminimized
    exact absurd hs hminimized
  · intro hs w hw
    rw [hstate] at hs
    split_ifs at hs
    rw [hwindow] at hw
    obtain ⟨u, hu, rfl⟩ := Option.map_eq_some_iff.mp hw
    exact hhidden hs u hu

theorem Agrees.restore (h : v.Agrees) : v.restore.Agrees := by
  unfold AppView.restore
  split_ifs
  · exact h.show (fun _ hvisible => hvisible) (fun _ => rfl) h.notRunning
  · exact h

theorem Agrees.missed (h : v.Agrees) (responds : Bool) : (v.missed responds).Agrees := by
  cases responds with
  | true => exact h
  | false =>
      have hstate := setState_state v .running .notResponding
      have hwindow := setState_window v .running .notResponding
      unfold AppView.missed
      rw [if_neg Bool.false_ne_true]
      constructor <;> intro hs <;> rw [hstate] at hs <;> rw [hwindow]
      · split_ifs at hs with hrunning
        exact absurd hs hrunning
      · split_ifs at hs
        exact h.minimized hs
      · split_ifs at hs
        exact h.notRunning hs

/-- A closed window is not seen, and nothing that runs is without a window. -/
theorem Agrees.close (hlive : v.Live) : v.close.Agrees := by
  have hnot : ¬ Runs v.close.state := by
    intro hruns
    have hhidden : ∀ w, v.close.window = some w → w.visible = false := by
      unfold AppView.close onWindow
      intro w hw
      obtain ⟨u, -, rfl⟩ := Option.map_eq_some_iff.mp hw
      rfl
    obtain ⟨w, hw, hvisible, -⟩ := hlive.close hruns
    rw [hhidden w hw] at hvisible
    exact absurd hvisible (by simp)
  refine ⟨fun hs => absurd (.inl hs) hnot, fun hs => absurd (.inr (.inl hs)) hnot, fun _ w hw => ?_⟩
  unfold AppView.close onWindow at hw
  obtain ⟨u, -, rfl⟩ := Option.map_eq_some_iff.mp hw
  rfl

theorem Launched.agrees (h : v.Agrees) (hlaunched : Launched v v') : v'.Agrees := by
  cases hlaunched with
  | reopened hruns =>
      refine h.show (fun _ _ => rfl) (fun _ => rfl) fun hs => ?_
      rw [hs] at hruns
      exact absurd hruns not_runs_notRunning
  | refused => exact Agrees.of_failed rfl
  | notStarted processId => exact Agrees.of_failed rfl
  | started processId =>
      exact ⟨fun _ => ⟨opened processId, rfl, rfl, rfl⟩, nofun, nofun⟩

/-- A kill is right only if there is no window to be seen. -/
theorem kill_agrees_iff (v : AppView) : v.kill.Agrees ↔ ∀ w, v.window = some w → w.visible = false :=
  ⟨fun h => h.notRunning rfl,
    fun h => ⟨nofun, nofun, fun _ => h⟩⟩

/-- A heartbeat is right only if the window of an unresponsive application has not been minimized. -/
theorem heartbeat_agrees_iff (hlive : v.Live) (h : v.Agrees) :
    v.heartbeat.Agrees ↔ (v.state = .notResponding → ∀ w, v.window = some w → w.minimized = false) := by
  have hstate : v.heartbeat.state = if v.state = .notResponding then .running else v.state := setState_state _ _ _
  have hwindow : v.heartbeat.window = v.window := setState_window _ _ _
  by_cases hs : v.state = .notResponding
  · rw [if_pos hs] at hstate
    obtain ⟨w, hw, hvisible, -⟩ := hlive (.inr (.inr hs))
    constructor
    · rintro hagrees - u hu
      obtain ⟨w', hw', -, hminimized⟩ := hagrees.running hstate
      rw [hwindow, hu] at hw'
      rw [Option.some.inj hw']
      exact hminimized
    · intro hminimized
      refine ⟨fun _ => ⟨w, hwindow.trans hw, hvisible, hminimized hs w hw⟩, fun hs' => ?_, fun hs' => ?_⟩
      · rw [hstate] at hs'
        exact absurd hs' (by decide)
      · rw [hstate] at hs'
        exact absurd hs' (by decide)
  · rw [if_neg hs] at hstate
    refine iff_of_true ⟨?_, ?_, ?_⟩ fun hnot => absurd hnot hs
    · rw [hstate, hwindow]
      exact h.running
    · rw [hstate, hwindow]
      exact h.minimized
    · rw [hstate, hwindow]
      exact h.notRunning

end AppView

/-! ## Runs of the desktop -/

namespace Desktop

variable {K : Type} {k : AppKernel K} {d : Desktop K} {i : Fin kApplicationCapacity}

/-- The state of an application says what there is to see of it. -/
structure Agrees (d : Desktop K) : Prop where
  running : ∀ i, (d.apps.runtimes i).valid = true → (d.apps.runtimes i).state = .running →
    ∃ w ∈ d.wm.windows, w.app = (d.apps.runtimes i).app ∧ w.visible = true ∧ w.minimized = false
  minimized : ∀ i, (d.apps.runtimes i).valid = true → (d.apps.runtimes i).state = .minimized →
    ∃ w ∈ d.wm.windows, w.app = (d.apps.runtimes i).app ∧ w.visible = true ∧ w.minimized = true
  notRunning : ∀ i, (d.apps.runtimes i).valid = true → (d.apps.runtimes i).state = .notRunning →
    ∀ w ∈ d.wm.windows, w.app = (d.apps.runtimes i).app → w.visible = false

/-- The operations on the life cycle of applications. -/
inductive LifeOp
  | launch (appId : Option String)
  | minimize (index : Nat)
  | restore (index : Nat)
  | close (index : Nat)
  | watchdog
  | heartbeat (app : AppKind)
  | taskManagerKill
  | terminalKill (argument : Text)

def lifeStep (k : AppKernel K) (d : Desktop K) : LifeOp → Desktop K
  | .launch appId          => (d.launchApplicationById k appId).2
  | .minimize index        => d.minimizeWindow index
  | .restore index         => d.restoreWindowFromTaskbar index
  | .close index           => d.closeWindow k index
  | .watchdog              => d.appWatchdogTick
  | .heartbeat app         => d.appHeartbeat app
  | .taskManagerKill       => (d.taskManagerKillFocusedApp k).2
  | .terminalKill argument => (d.terminalKill argument).2

/-- No window of the application can be seen. -/
def Unseen (d : Desktop K) (i : Fin kApplicationCapacity) : Prop :=
  ∀ w ∈ d.wm.windows, w.app = appOf i → w.visible = false

/-- A kill hits an application whose window is closed; a heartbeat does not come from an unresponsive application
    whose window has been minimized. -/
def LifeSafe (d : Desktop K) : LifeOp → Prop
  | .heartbeat app => ∀ i, appOf i = app → (d.apps.runtimes i).state = .notResponding →
    ∀ w ∈ d.wm.windows, w.app = app → w.minimized = false
  | .taskManagerKill => ∀ i, d.findKillableApp = some i → d.Unseen i
  | .terminalKill argument => ∀ processId i, Apps.killTarget argument = some processId →
    d.apps.findKillTarget processId = some i → d.Unseen i
  | _ => True

/-- What every operation keeps. -/
structure Alive (d : Desktop K) : Prop where
  wf   : Wf d
  live : ∀ i, (view d i).Live

theorem view_window_iff (h : Wf d) {v : WindowView} :
    (view d i).window = some v ↔ ∃ w ∈ d.wm.windows, w.app = appOf i ∧ w.look = v :=
  windowOf_eq_some_iff h.windows.oneEach

/-- A property of all windows of an application, of which there is at most one. -/
theorem forall_window_iff (h : Wf d) {P : WindowView → Prop} :
    (∀ w, (view d i).window = some w → P w) ↔ ∀ w ∈ d.wm.windows, w.app = appOf i → P w.look := by
  constructor
  · intro hall w hw happ
    exact hall w.look ((view_window_iff h).mpr ⟨w, hw, happ, rfl⟩)
  · intro hall v hv
    obtain ⟨w, hw, happ, rfl⟩ := (view_window_iff h).mp hv
    exact hall w hw happ

theorem exists_window_iff (h : Wf d) {P : WindowView → Prop} :
    (∃ w, (view d i).window = some w ∧ P w) ↔ ∃ w ∈ d.wm.windows, w.app = appOf i ∧ P w.look := by
  constructor
  · rintro ⟨v, hv, hP⟩
    obtain ⟨w, hw, happ, rfl⟩ := (view_window_iff h).mp hv
    exact ⟨w, hw, happ, hP⟩
  · rintro ⟨w, hw, happ, hP⟩
    exact ⟨w.look, (view_window_iff h).mpr ⟨w, hw, happ, rfl⟩, hP⟩

theorem agrees_iff_view (h : Wf d) : Agrees d ↔ ∀ i, (view d i).Agrees := by
  constructor
  · intro hagrees i
    refine ⟨fun hs => ?_, fun hs => ?_, fun hs => ?_⟩
    · refine (exists_window_iff h).mpr ?_
      rw [← (h.registered i).2]
      exact hagrees.running i (h.registered i).1 hs
    · refine (exists_window_iff h).mpr ?_
      rw [← (h.registered i).2]
      exact hagrees.minimized i (h.registered i).1 hs
    · refine (forall_window_iff h).mpr ?_
      rw [← (h.registered i).2]
      exact hagrees.notRunning i (h.registered i).1 hs
  · intro hagrees
    refine ⟨fun i _ hs => ?_, fun i _ hs => ?_, fun i _ hs => ?_⟩
    · rw [(h.registered i).2]
      exact (exists_window_iff h).mp ((hagrees i).running hs)
    · rw [(h.registered i).2]
      exact (exists_window_iff h).mp ((hagrees i).minimized hs)
    · rw [(h.registered i).2]
      exact (forall_window_iff h).mp ((hagrees i).notRunning hs)

/-! ### One step -/

variable {d' : Desktop K} {v : AppView}

theorem Turns.alive (h : Turns d d' i v) (halive : Alive d) (hlive : v.Live) : Alive d' := by
  refine ⟨h.1, fun n => ?_⟩
  by_cases hn : n = i
  · rw [hn, h.self]
    exact hlive
  · rw [h.other hn]
    exact halive.live n

/-- Only the application that the operation is about can be in disagreement. -/
theorem Turns.agrees_iff (h : Turns d d' i v) (halive : Alive d) (hagrees : Agrees d) : Agrees d' ↔ v.Agrees := by
  rw [agrees_iff_view h.1]
  constructor
  · intro hall
    rw [← h.self]
    exact hall i
  · intro hv n
    by_cases hn : n = i
    · rw [hn, h.self]
      exact hv
    · rw [h.other hn]
      exact (agrees_iff_view halive.wf).mp hagrees n

/-- What an operation comes to: the applications stay alive, and the agreement stays iff the operation is safe. -/
structure Outcome (d d' : Desktop K) (op : LifeOp) : Prop where
  alive  : Alive d'
  agrees : Agrees d → (Agrees d' ↔ LifeSafe d op)

theorem Outcome.of_turns {op : LifeOp} (halive : Alive d) (h : Turns d d' i v) (hlive : v.Live)
    (hsafe : (view d i).Agrees → (v.Agrees ↔ LifeSafe d op)) : Outcome d d' op := by
  refine ⟨h.alive halive hlive, fun hagrees => ?_⟩
  rw [h.agrees_iff halive hagrees]
  exact hsafe ((agrees_iff_view halive.wf).mp hagrees i)

/-- An operation that keeps the agreement of every application is safe. -/
theorem Outcome.of_views {op : LifeOp} (hwf : Wf d') (halive : Alive d)
    (hviews : ∀ i, (view d i).Live → (view d' i).Live ∧ ((view d i).Agrees → (view d' i).Agrees))
    (hsafe : LifeSafe d op) : Outcome d d' op := by
  refine ⟨⟨hwf, fun i => (hviews i (halive.live i)).1⟩, fun hagrees => iff_of_true ?_ hsafe⟩
  rw [agrees_iff_view hwf]
  intro i
  exact (hviews i (halive.live i)).2 ((agrees_iff_view halive.wf).mp hagrees i)

/-- The same applications and the same windows, in whatever order. -/
theorem Outcome.of_same {op : LifeOp} (halive : Alive d) (hruntimes : d'.apps.runtimes = d.apps.runtimes)
    (hwindows : Reordered d.wm.windows d'.wm.windows) (hsafe : LifeSafe d op) : Outcome d d' op := by
  have hturns : ∀ i, Turns d d' i (view d i) := fun i => (Turns.refl halive.wf i).congr hruntimes hwindows
  refine Outcome.of_views (hturns 0).1 halive (fun i hlive => ?_) hsafe
  rw [(hturns i).self]
  exact ⟨hlive, id⟩

theorem Outcome.refl {op : LifeOp} (halive : Alive d) (hsafe : LifeSafe d op) : Outcome d d op :=
  Outcome.of_same halive rfl (Reordered.refl _) hsafe

/-- The window at an index, and the application it belongs to. -/
theorem window_cases (d : Desktop K) (index : Nat) :
    d.wm.windows[index]? = none ∨ ∃ w i, d.wm.windows[index]? = some w ∧ w.app = appOf i := by
  cases hw : d.wm.windows[index]? with
  | none => exact .inl rfl
  | some w =>
      obtain ⟨i, hi⟩ := exists_appOf w.app
      exact .inr ⟨w, i, rfl, hi.symm⟩

theorem launch_outcome (k : AppKernel K) (halive : Alive d) (appId : Option String) :
    Outcome d (d.launchApplicationById k appId).2 (.launch appId) := by
  unfold launchApplicationById
  cases hfind : findApplicationById appId with
  | none => exact Outcome.of_same halive rfl (Reordered.refl _) trivial
  | some app =>
      obtain ⟨i, hlt, rfl⟩ := List.mem_iff_getElem.mp (List.mem_of_find?_eq_some hfind)
      obtain ⟨v, hlaunched, hturns⟩ := launchApplication_turns k halive.wf ⟨i, hlt⟩ (halive.live ⟨i, hlt⟩)
      exact Outcome.of_turns halive hturns (hlaunched.live (halive.live _)) fun hagrees =>
        iff_of_true (hlaunched.agrees hagrees) trivial

/-- The watchdog counts, and at the third beat that is missed it gives up. -/
theorem missHeartbeat_cases (runtime : AppRuntimeState) :
    (Apps.missHeartbeat runtime).valid = runtime.valid ∧ (Apps.missHeartbeat runtime).app = runtime.app ∧
      (Apps.missHeartbeat runtime).processId = runtime.processId ∧
      ((Apps.missHeartbeat runtime).state = runtime.state ∨
        runtime.state = .running ∧ (Apps.missHeartbeat runtime).state = .notResponding) := by
  unfold Apps.missHeartbeat
  dsimp only
  by_cases hskip : (!runtime.valid || runtime.state != .running) = true
  · rw [if_pos hskip]
    exact ⟨rfl, rfl, rfl, .inl rfl⟩
  · rw [if_neg hskip]
    have hrunning : runtime.state = .running := by
      by_contra hnot
      exact hskip (by simp [hnot])
    by_cases hthree : runtime.missedHeartbeatCount + 1 ≥ 3
    · rw [if_pos hthree]
      exact ⟨rfl, rfl, rfl, .inr ⟨hrunning, rfl⟩⟩
    · rw [if_neg hthree]
      exact ⟨rfl, rfl, rfl, .inl rfl⟩

theorem appWatchdogTick_rest (d : Desktop K) :
    d.appWatchdogTick.apps.runtimes = (fun i => Apps.missHeartbeat (d.apps.runtimes i)) ∧
      d.appWatchdogTick.wm.windows = d.wm.windows := by
  unfold appWatchdogTick
  dsimp only
  split_ifs <;> exact ⟨rfl, rfl⟩

theorem watchdog_view (d : Desktop K) (i : Fin kApplicationCapacity) :
    ∃ responds, view d.appWatchdogTick i = (view d i).missed responds := by
  obtain ⟨hruntimes, hwindows⟩ := appWatchdogTick_rest d
  obtain ⟨-, -, hpid, hstate⟩ := missHeartbeat_cases (d.apps.runtimes i)
  have hview : view d.appWatchdogTick i =
      { view d i with state := (Apps.missHeartbeat (d.apps.runtimes i)).state } := by
    unfold view
    rw [hruntimes, hwindows]
    dsimp only
    rw [hpid]
  rw [hview]
  rcases hstate with hsame | ⟨hrunning, hgone⟩
  · exact ⟨true, by rw [hsame]; rfl⟩
  · refine ⟨false, ?_⟩
    rw [hgone]
    unfold AppView.missed AppView.setState
    rw [if_neg Bool.false_ne_true, if_pos (show (view d i).state = .running from hrunning)]

theorem watchdog_outcome (halive : Alive d) : Outcome d d.appWatchdogTick .watchdog := by
  obtain ⟨hruntimes, hwindows⟩ := appWatchdogTick_rest d
  refine Outcome.of_views ⟨fun i => ?_, ?_⟩ halive (fun i hlive => ?_) trivial
  · obtain ⟨hvalid, happ, -⟩ := missHeartbeat_cases (d.apps.runtimes i)
    rw [hruntimes]
    dsimp only
    rw [hvalid, happ]
    exact halive.wf.registered i
  · rw [hwindows]
    exact halive.wf.windows
  · obtain ⟨responds, hresponds⟩ := watchdog_view d i
    rw [hresponds]
    exact ⟨hlive.missed responds, fun hagrees => hagrees.missed responds⟩

/-- A kill of the application at `i`. -/
theorem Outcome.of_kill {op : LifeOp} (halive : Alive d) (h : Turns d d' i (view d i).kill)
    (hsafe : LifeSafe d op ↔ d.Unseen i) : Outcome d d' op := by
  refine Outcome.of_turns halive h (AppView.Live.kill _) fun _ => ?_
  rw [AppView.kill_agrees_iff, hsafe]
  exact forall_window_iff halive.wf

theorem taskManagerKill_outcome (k : AppKernel K) (halive : Alive d) :
    Outcome d (d.taskManagerKillFocusedApp k).2 .taskManagerKill := by
  cases hfind : d.findKillableApp with
  | none =>
      have hsame : (d.taskManagerKillFocusedApp k).2 = d := by
        unfold taskManagerKillFocusedApp
        rw [hfind]
      rw [hsame]
      refine Outcome.refl halive fun i hi => ?_
      rw [hfind] at hi
      exact nomatch hi
  | some i =>
      refine Outcome.of_kill halive (taskManagerKill_turns k halive.wf hfind) ?_
      refine ⟨fun h => h i hfind, fun h n hn => ?_⟩
      rw [hfind] at hn
      rw [← Option.some.inj hn]
      exact h

/-- The kill finds an application, or it changes nothing. -/
theorem terminalKill_outcome (halive : Alive d) (argument : Text) :
    Outcome d (d.terminalKill argument).2 (.terminalKill argument) := by
  by_cases hfound : ∃ processId i, Apps.killTarget argument = some processId ∧
      d.apps.findKillTarget processId = some i
  · obtain ⟨processId, i, htarget, hfind⟩ := hfound
    refine Outcome.of_kill halive (terminalKill_turns halive.wf htarget hfind) ?_
    refine ⟨fun h => h processId i htarget hfind, fun h processId' n htarget' hfind' => ?_⟩
    rw [htarget] at htarget'
    rw [← Option.some.inj htarget', hfind] at hfind'
    rw [← Option.some.inj hfind']
    exact h
  · have hmisses := terminalKill_misses fun processId i htarget hfind => hfound ⟨processId, i, htarget, hfind⟩
    rw [hmisses]
    exact Outcome.refl halive fun processId i htarget hfind => absurd ⟨processId, i, htarget, hfind⟩ hfound

theorem lifeStep_outcome (k : AppKernel K) (halive : Alive d) (op : LifeOp) : Outcome d (lifeStep k d op) op := by
  cases op with
  | launch appId => exact launch_outcome k halive appId
  | minimize index =>
      rcases window_cases d index with hnone | ⟨w, i, hw, happ⟩
      · have hsame : d.minimizeWindow index = d := by
          unfold minimizeWindow
          rw [hnone]
        show Outcome d (d.minimizeWindow index) _
        rw [hsame]
        exact Outcome.refl halive trivial
      · exact Outcome.of_turns halive (minimizeWindow_turns halive.wf hw happ) (halive.live i).minimize fun hagrees =>
          iff_of_true hagrees.minimize trivial
  | restore index =>
      rcases window_cases d index with hnone | ⟨w, i, hw, happ⟩
      · have hsame : d.restoreWindowFromTaskbar index = d := by
          unfold restoreWindowFromTaskbar
          rw [hnone]
        show Outcome d (d.restoreWindowFromTaskbar index) _
        rw [hsame]
        exact Outcome.refl halive trivial
      · exact Outcome.of_turns halive (restoreWindowFromTaskbar_turns halive.wf hw happ) (halive.live i).restore
          fun hagrees => iff_of_true hagrees.restore trivial
  | close index =>
      rcases window_cases d index with hnone | ⟨w, i, hw, happ⟩
      · have hsame : d.closeWindow k index = d := by
          unfold closeWindow
          rw [hnone]
        show Outcome d (d.closeWindow k index) _
        rw [hsame]
        exact Outcome.refl halive trivial
      · exact Outcome.of_turns halive (closeWindow_turns k halive.wf hw happ) (halive.live i).close fun _ =>
          iff_of_true (AppView.Agrees.close (halive.live i)) trivial
  | watchdog => exact watchdog_outcome halive
  | heartbeat app =>
      obtain ⟨i, rfl⟩ := exists_appOf app
      refine Outcome.of_turns halive (appHeartbeat_turns halive.wf i) (halive.live i).heartbeat fun hagrees => ?_
      rw [AppView.heartbeat_agrees_iff (halive.live i) hagrees, forall_window_iff halive.wf]
      refine ⟨fun h n hn => ?_, fun h => h i rfl⟩
      rw [appOf_injective hn]
      exact h
  | taskManagerKill => exact taskManagerKill_outcome k halive
  | terminalKill argument => exact terminalKill_outcome halive argument

/-! ### From `InitWindowManager` on -/

theorem registry_alive (framebuffer : FramebufferInfo) (kernel : K) :
    Alive { reset framebuffer kernel with apps := (reset framebuffer kernel).apps.initApplicationRegistry } ∧
      Agrees { reset framebuffer kernel with apps := (reset framebuffer kernel).apps.initApplicationRegistry } := by
  refine ⟨⟨⟨fun i => ⟨rfl, rfl⟩, List.nodup_nil, fun w hw => absurd hw List.not_mem_nil⟩, fun i => ?_⟩, ?_⟩
  · exact AppView.Live.of_not_runs AppView.not_runs_notRunning
  · exact ⟨fun i _ hs => (nomatch hs), fun i _ hs => (nomatch hs), fun i _ _ w hw => absurd hw List.not_mem_nil⟩

theorem start_alive (k : AppKernel K) (framebuffer : FramebufferInfo) (kernel : K) :
    Alive (start k framebuffer kernel) ∧ Agrees (start k framebuffer kernel) := by
  have hlaunch : ∀ (d : Desktop K) appId, Alive d ∧ Agrees d →
      Alive (d.launchApplicationById k appId).2 ∧ Agrees (d.launchApplicationById k appId).2 := by
    rintro d appId ⟨halive, hagrees⟩
    have houtcome := launch_outcome k halive appId
    exact ⟨houtcome.alive, (houtcome.agrees hagrees).mpr trivial⟩
  have hfiles := hlaunch _ (some "files") (registry_alive framebuffer kernel)
  unfold start initWindowManager
  dsimp only
  set launched := launchApplicationById k
    { reset framebuffer kernel with apps := (reset framebuffer kernel).apps.initApplicationRegistry } (some "files")
  have hterm : Alive (if launched.1 = true then launched.2.launchApplicationById k (some "term")
        else (false, launched.2)).2 ∧
      Agrees (if launched.1 = true then launched.2.launchApplicationById k (some "term")
        else (false, launched.2)).2 := by
    split_ifs
    · exact hlaunch _ _ hfiles
    · exact hfiles
  generalize (if launched.1 = true then launched.2.launchApplicationById k (some "term")
      else (false, launched.2)) = d₁ at hterm ⊢
  obtain ⟨halive, hagrees⟩ := hterm
  set wm : WindowManager := { d₁.2.wm with windowManagerReady := d₁.1 }
  have hfocus : Outcome d₁.2 { d₁.2 with wm := wm.focusTopVisibleWindow } .watchdog :=
    Outcome.of_same halive rfl (focusTopVisibleWindow_reordered wm) trivial
  exact ⟨hfocus.alive, (hfocus.agrees hagrees).mpr trivial⟩

/-- **When the state of every application agrees with its window**: from `InitWindowManager` on, through any
    operations and with any kernel, iff no kill hits an application whose window can be seen and no heartbeat comes
    from an unresponsive application whose window has been minimized. -/
theorem lifecycle_agrees_iff (k : AppKernel K) (framebuffer : FramebufferInfo) (kernel : K) (ops : List LifeOp) :
    Lib.Throughout (lifeStep k) Agrees (start k framebuffer kernel) ops ↔
      Lib.Along (lifeStep k) LifeSafe (start k framebuffer kernel) ops := by
  obtain ⟨halive, hagrees⟩ := start_alive k framebuffer kernel
  exact Lib.throughout_iff_along (fun _ op h => (lifeStep_outcome k h op).alive)
    (fun _ op h hP => (lifeStep_outcome k h op).agrees hP) halive hagrees ops

/-- The terminal is minimized while it does not respond, and then it does. -/
theorem lifecycle_heartbeat :
    ¬ Lib.Throughout (lifeStep countingKernel) Agrees
        (start countingKernel { baseAddress := 0x80000000, width := 1024, height := 768, pixelsPerScanline := 1024 } 0)
        [.watchdog, .watchdog, .watchdog, .minimize 1, .heartbeat .terminalEmulator] := by
  intro h
  obtain ⟨w, hw, happ, -, hminimized⟩ := h.last.running 8 (by decide +kernel) (by decide +kernel)
  revert w
  decide +kernel

end Desktop
end Gui
end UefiBoot
