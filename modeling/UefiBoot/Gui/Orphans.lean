import UefiBoot.Gui.Lifecycle
import UefiBoot.Lib.Custody
import UefiBoot.User.Applications

/-!
# `Gui.Orphans` — every process of an application is known to the desktop

Launching an application creates a process of the kernel, and the entry of the application in `g_AppRuntimes` is the
only place that keeps its id. So the processes of applications and the entries are tokens and holders in the sense of
`Lib.Custody`. A token is lost when a launch fails after `KernelCreateProcess`, since none of its exits ends the
process, and when the terminal kills an application, since `TerminalKillProcess` only clears the entry.
`noOrphans_iff` says that nothing else loses one, whatever other code does to the tables of the kernel meanwhile.
-/

namespace UefiBoot
namespace Gui

open Userspace (System Entries Served ThreadRoom)

/-- The kernel under the desktop. `issued` are the process ids that `KernelLaunchUserApplication` has taken; the code
    does not keep them. -/
structure AppSystem where
  system : System
  issued : List UInt64 := []

/-- `userspace.cpp` as `gui.cpp` calls it. -/
def userKernel (e : Entries) : AppKernel AppSystem :=
  { launch := fun s appId executablePath =>
      let r := s.system.launchUserApplication (some appId) (some executablePath)
      (r.1, { system := r.2, issued := s.system.taken r.2 ++ s.issued })
    start := fun s processId appId =>
      let r := s.system.startUserApplicationEventLoop e processId (some appId)
      (r.1, { s with system := r.2 })
    exit := fun s processId exitCode =>
      let r := s.system.exitUserApplication processId exitCode
      (r.1, { s with system := r.2 }) }

namespace AppView

variable {v : AppView} {source target : AppLifecycleState}

/-- The process that the entry of the application names. -/
def process (v : AppView) : Option UInt64 := if v.processId = 0 then none else some v.processId

theorem process_eq_some_iff {pid : UInt64} : v.process = some pid ↔ pid ≠ 0 ∧ v.processId = pid := by
  unfold process
  split_ifs with h
  · refine iff_of_false (by simp) ?_
    rintro ⟨hne, heq⟩
    exact hne (heq.symm.trans h)
  · constructor
    · intro heq
      rw [← Option.some.inj heq]
      exact ⟨h, rfl⟩
    · rintro ⟨-, rfl⟩
      rfl

theorem process_eq_none (h : v.processId = 0) : v.process = none := if_pos h

/-- An application that does not run has no process. -/
def Idle (v : AppView) : Prop := ¬ Runs v.state → v.processId = 0

theorem Idle.setState (h : v.Idle) (f : WindowView → WindowView) (htarget : Runs target) :
    ((v.onWindow f).setState source target).Idle := by
  intro hnot
  rw [setState_processId]
  rw [setState_state] at hnot
  refine h fun hruns => hnot ?_
  split_ifs
  · exact htarget
  · exact hruns

/-- The operations that leave the process of an application alone. -/
def KeepsProcess (v v' : AppView) : Prop := v'.processId = v.processId ∧ (v.Idle → v'.Idle)

theorem keepsProcess_setState (v : AppView) (f : WindowView → WindowView) (source : AppLifecycleState)
    (htarget : Runs target) : KeepsProcess v ((v.onWindow f).setState source target) :=
  ⟨setState_processId _ _ _, fun h => h.setState f htarget⟩

theorem keepsProcess_minimize (v : AppView) : KeepsProcess v v.minimize :=
  keepsProcess_setState v _ _ (.inr (.inl rfl))

theorem keepsProcess_reopen (v : AppView) : KeepsProcess v v.reopen := keepsProcess_setState v _ _ (.inl rfl)

theorem keepsProcess_restore (v : AppView) : KeepsProcess v v.restore := by
  unfold restore
  split_ifs
  · exact keepsProcess_setState v _ _ (.inl rfl)
  · exact ⟨rfl, id⟩

theorem keepsProcess_heartbeat (v : AppView) : KeepsProcess v v.heartbeat := by
  rw [heartbeat_eq]
  exact keepsProcess_setState v id _ (.inl rfl)

theorem keepsProcess_missed (v : AppView) (responds : Bool) : KeepsProcess v (v.missed responds) := by
  cases responds with
  | true => exact ⟨rfl, id⟩
  | false =>
      rw [missed_eq]
      exact keepsProcess_setState v id _ (.inr (.inr rfl))

end AppView

namespace Desktop

variable {K : Type} {e : Entries} {d d' : Desktop AppSystem} {i : Fin kApplicationCapacity} {v : AppView}

/-- **No orphan process**: the active processes that launches have created are those that the entries name. -/
def NoOrphans (d : Desktop AppSystem) : Prop :=
  d.kernel.system.live d.kernel.issued = { pid | pid ≠ 0 ∧ ∃ i, (d.apps.runtimes i).processId = pid }

/-- What happens: an operation on the life cycle of applications, or a step of code that has nothing to do with
    applications, which may use up the tables of the kernel, its heap and its ids, or give some back. -/
inductive AppOp
  | gui (op : LifeOp)
  | other (a : System.Action)

def appStep (e : Entries) (d : Desktop AppSystem) : AppOp → Desktop AppSystem
  | .gui op  => lifeStep (userKernel e) d op
  | .other a =>
    if d.kernel.system.Spares d.kernel.issued a then
      { d with kernel := { d.kernel with system := d.kernel.system.step e a } }
    else d

/-- The desktop once `KernelGuiInit` has filled the registry, over the kernel after boot. -/
def registered (heap : { h : KernelHeap // h.InBlock }) (framebuffer : FramebufferInfo) : Desktop AppSystem :=
  let d := reset framebuffer { system := System.boot heap }
  { d with apps := d.apps.initApplicationRegistry }

/-- There is a window for the application, or one can be added. -/
def WindowFits (d : Desktop K) (i : Fin kApplicationCapacity) : Prop :=
  let bounds := d.wm.initialWindowBounds (application i) (d.apps.runtimes i).launchCount
  d.wm.findWindowByApp (appOf i) (application i).desktop ≠ none ∨ bounds.width ≠ 0 ∧ bounds.height ≠ 0

/-- The application runs already, or the launch is refused before it creates a process, or there is room for all that
    it needs: an id and a record for the process, a window, and a thread. -/
def LaunchesWhole (d : Desktop AppSystem) (i : Fin kApplicationCapacity) : Prop :=
  let s := d.kernel.system
  AppView.Runs (d.apps.runtimes i).state ∨ ¬ s.Starts (some (application i).id) (some (application i).executablePath) ∨
    (s.kernel.sched.nextProcessId ≠ 0 ∧ s.user.freeUserProcess ≠ none) ∧ d.WindowFits i ∧ ThreadRoom s.kernel.sched

/-- The launch is whole, or the terminal kill finds no process. -/
def Clean (d : Desktop AppSystem) : AppOp → Prop
  | .gui (.launch appId) => ∀ i, findApplicationById appId = some (application i) → d.LaunchesWhole i
  | .gui (.terminalKill argument) => ∀ processId i, Apps.killTarget argument = some processId →
    d.apps.findKillTarget processId = some i → processId = 0
  | _ => True

/-! ## Processes as tokens -/

/-- The process of each application. -/
def processes (d : Desktop K) (i : Fin kApplicationCapacity) : Option UInt64 := (view d i).process

theorem noOrphans_iff_owned : NoOrphans d ↔ Lib.Owned (d.kernel.system.live d.kernel.issued) d.processes := by
  have hheld : ∀ pid, pid ∈ { pid | pid ≠ 0 ∧ ∃ i, (d.apps.runtimes i).processId = pid } ↔
      ∃ i, d.processes i = some pid := by
    intro pid
    unfold processes
    simp only [AppView.process_eq_some_iff]
    exact exists_and_left.symm
  unfold NoOrphans Lib.Owned
  rw [Set.ext_iff]
  exact forall_congr' fun pid => by rw [hheld]

theorem Turns.processes {d d' : Desktop K} (h : Turns d d' i v) : d'.processes = Function.update d.processes i v.process := by
  funext n
  unfold Desktop.processes
  by_cases hn : n = i
  · rw [hn, h.self, Function.update_self]
  · rw [h.other hn, Function.update_of_ne hn]

/-- The invariant of clean runs. -/
structure Kept (d : Desktop AppSystem) : Prop where
  alive    : Alive d
  served   : Served d.kernel.system d.kernel.issued
  custody  : Lib.Custody (d.kernel.system.live d.kernel.issued) d.processes
  idle     : ∀ i, (view d i).Idle
  recorded : ∀ pid ∈ d.kernel.system.live d.kernel.issued, d.kernel.system.Recorded pid

theorem Kept.noOrphans (h : Kept d) : NoOrphans d := noOrphans_iff_owned.mpr h.custody.owned

/-- Something happens to the application at `i`. -/
theorem Kept.turns (h : Kept d) (hturns : Turns d d' i v) (hlive : v.Live) (hidle : v.Idle)
    (hserved : Served d'.kernel.system d'.kernel.issued)
    (hcustody : Lib.Custody (d'.kernel.system.live d'.kernel.issued) (Function.update d.processes i v.process))
    (hrecorded : ∀ pid ∈ d'.kernel.system.live d'.kernel.issued, d'.kernel.system.Recorded pid) : Kept d' := by
  refine ⟨hturns.alive h.alive hlive, hserved, ?_, fun n => ?_, hrecorded⟩
  · rw [hturns.processes]
    exact hcustody
  · by_cases hn : n = i
    · rw [hn, hturns.self]
      exact hidle
    · rw [hturns.other hn]
      exact h.idle n

/-- The kernel and the processes stay. -/
theorem Kept.same (h : Kept d) (halive : Alive d') (hkernel : d'.kernel = d.kernel)
    (hviews : ∀ i, AppView.KeepsProcess (view d i) (view d' i)) : Kept d' := by
  have hprocesses : d'.processes = d.processes := by
    funext i
    unfold processes AppView.process
    rw [(hviews i).1]
  refine ⟨halive, ?_, ?_, fun i => (hviews i).2 (h.idle i), ?_⟩
  · rw [hkernel]
    exact h.served
  · rw [hkernel, hprocesses]
    exact h.custody
  · rw [hkernel]
    exact h.recorded

theorem Kept.keepsProcess (h : Kept d) (hturns : Turns d d' i v) (hlive : v.Live) (hkernel : d'.kernel = d.kernel)
    (hkeeps : AppView.KeepsProcess (view d i) v) : Kept d' := by
  refine h.same (hturns.alive h.alive hlive) hkernel fun n => ?_
  by_cases hn : n = i
  · rw [hn, hturns.self]
    exact hkeeps
  · rw [hturns.other hn]
    exact ⟨rfl, id⟩

/-! ## One step -/

/-- What one step comes to. -/
structure Result (d d' : Desktop AppSystem) (op : AppOp) : Prop where
  kept  : Clean d op → Kept d'
  clean : NoOrphans d' → Clean d op

theorem Result.of_kept {op : AppOp} (h : Kept d') (hclean : Clean d op) : Result d d' op := ⟨fun _ => h, fun _ => hclean⟩

theorem Result.of_same {op : AppOp} (h : Kept d) (hsame : d' = d) (hclean : Clean d op) : Result d d' op := by
  rw [hsame]
  exact Result.of_kept h hclean

/-- An operation that leaves the processes alone, or finds no window. -/
theorem minimize_result (h : Kept d) (index : Nat) : Result d (d.minimizeWindow index) (.gui (.minimize index)) := by
  rcases window_cases d index with hnone | ⟨w, i, hw, happ⟩
  · refine Result.of_same h ?_ trivial
    unfold minimizeWindow
    rw [hnone]
  · refine Result.of_kept (h.keepsProcess (minimizeWindow_turns h.alive.wf hw happ) (h.alive.live i).minimize ?_
      (AppView.keepsProcess_minimize _)) trivial
    unfold minimizeWindow
    rw [hw]
    exact changeState_kernel _ _ _ _

theorem restore_result (h : Kept d) (index : Nat) :
    Result d (d.restoreWindowFromTaskbar index) (.gui (.restore index)) := by
  rcases window_cases d index with hnone | ⟨w, i, hw, happ⟩
  · refine Result.of_same h ?_ trivial
    unfold restoreWindowFromTaskbar
    rw [hnone]
  · refine Result.of_kept (h.keepsProcess (restoreWindowFromTaskbar_turns h.alive.wf hw happ) (h.alive.live i).restore
      ?_ (AppView.keepsProcess_restore _)) trivial
    unfold restoreWindowFromTaskbar
    rw [hw]
    dsimp only
    split_ifs
    · rfl
    · exact changeState_kernel _ _ _ _

theorem watchdog_result (h : Kept d) : Result d d.appWatchdogTick (.gui .watchdog) := by
  refine Result.of_kept (h.same (watchdog_outcome h.alive).alive ?_ fun i => ?_) trivial
  · unfold appWatchdogTick
    dsimp only
    split_ifs <;> rfl
  · obtain ⟨responds, hresponds⟩ := watchdog_view d i
    rw [hresponds]
    exact AppView.keepsProcess_missed _ responds

theorem heartbeat_result (h : Kept d) (app : AppKind) : Result d (d.appHeartbeat app) (.gui (.heartbeat app)) := by
  obtain ⟨i, rfl⟩ := exists_appOf app
  refine Result.of_kept (h.keepsProcess (appHeartbeat_turns h.alive.wf i) (h.alive.live i).heartbeat ?_
    (AppView.keepsProcess_heartbeat _)) trivial
  unfold appHeartbeat
  rw [h.alive.wf.findAppRuntime i]
  rfl

theorem other_result (h : Kept d) (a : System.Action) : Result d (d.appStep e (.other a)) (.other a) := by
  unfold appStep
  dsimp only
  split_ifs with hspares
  · obtain ⟨hserved, hlive⟩ := h.served.other (e := e) hspares
    refine Result.of_kept ⟨⟨⟨h.alive.wf.registered, h.alive.wf.windows⟩, h.alive.live⟩, hserved, ?_, h.idle, ?_⟩ trivial
    · show Lib.Custody (System.live (d.kernel.system.step e a) d.kernel.issued) d.processes
      rw [hlive]
      exact h.custody
    · show ∀ pid ∈ System.live (d.kernel.system.step e a) d.kernel.issued, (d.kernel.system.step e a).Recorded pid
      rw [hlive]
      exact fun pid hpid => Userspace.recorded_step (h.recorded pid hpid)
  · exact Result.of_kept h trivial

/-! ### The end of an application -/

/-- **The process of an application is ended** and its entry cleared. -/
theorem Kept.exit (h : Kept d) (hturns : Turns d d' i v) (hlive : v.Live) (hcleared : v.processId = 0)
    (hkernel : d'.kernel = ((userKernel e).exit d.kernel (d.apps.runtimes i).processId 0).2) : Kept d' := by
  have hsystem : d'.kernel.system = (d.kernel.system.exitUserApplication (d.apps.runtimes i).processId 0).2 := by
    rw [hkernel]
    rfl
  have hissued : d'.kernel.issued = d.kernel.issued := by
    rw [hkernel]
    rfl
  have hidle : v.Idle := fun _ => hcleared
  have hrecorded : ∀ pid ∈ d.kernel.system.live d.kernel.issued, d'.kernel.system.Recorded pid := fun pid hpid => by
    rw [hsystem]
    exact Userspace.recorded_exit 0 (h.recorded pid hpid)
  by_cases hpid : (view d i).processId = 0
  · -- there was no process to end
    have habsent : ¬ Scheduler.HasProcess d.kernel.system.kernel.sched (d.apps.runtimes i).processId := by
      rintro ⟨k, hactive, hid⟩
      exact h.served.ids.nonzero k hactive (hid.trans hpid)
    obtain ⟨hserved, hsame⟩ := h.served.exit_absent habsent 0
    rw [← hsystem] at hserved hsame
    have hkeep : Function.update d.processes i v.process = d.processes := by
      rw [AppView.process_eq_none hcleared, ← AppView.process_eq_none hpid]
      exact Function.update_eq_self i d.processes
    refine h.turns hturns hlive hidle ?_ ?_ ?_ <;> rw [hissued]
    · exact hserved
    · rw [hsame, hkeep]
      exact h.custody
    · rw [hsame]
      exact hrecorded
  · have hholds : d.processes i = some (d.apps.runtimes i).processId := AppView.process_eq_some_iff.mpr ⟨hpid, rfl⟩
    have hmem := (h.custody.owned _).mpr ⟨i, hholds⟩
    obtain ⟨hserved, hended⟩ := h.served.exit hmem (h.recorded _ hmem) 0
    rw [← hsystem] at hserved hended
    refine h.turns hturns hlive hidle ?_ ?_ ?_ <;> rw [hissued]
    · exact hserved
    · rw [hended, AppView.process_eq_none hcleared]
      exact h.custody.release hholds
    · rw [hended]
      exact fun pid hmem => hrecorded pid hmem.1

theorem close_result (h : Kept d) (index : Nat) :
    Result d (d.closeWindow (userKernel e) index) (.gui (.close index)) := by
  rcases window_cases d index with hnone | ⟨w, i, hw, happ⟩
  · refine Result.of_same h ?_ trivial
    unfold closeWindow
    rw [hnone]
  · have hturns := closeWindow_turns (userKernel e) h.alive.wf hw happ
    have hlive := (h.alive.live i).close
    have hkernel : (d.closeWindow (userKernel e) index).kernel = if (d.apps.runtimes i).processId = w.processId then
        ((userKernel e).exit d.kernel (d.apps.runtimes i).processId 0).2 else d.kernel := by
      unfold closeWindow
      rw [hw]
      dsimp only
      unfold endApplication
      rw [happ, h.alive.wf.findAppRuntime i]
      dsimp only
      split_ifs <;> rfl
    have hview : (view d i).window = some w.look := view_window h.alive.wf hw happ
    refine Result.of_kept ?_ trivial
    by_cases hpid : (d.apps.runtimes i).processId = w.processId
    · rw [if_pos hpid] at hkernel
      refine h.exit hturns hlive ?_ hkernel
      have hown : (w.look.processId == (view d i).processId) = true := beq_iff_eq.mpr hpid.symm
      unfold AppView.close
      rw [hview, Option.any_some, if_pos hown]
      rfl
    · -- the window of another process: only the window is closed
      rw [if_neg hpid] at hkernel
      have hnot : ¬ (w.look.processId == (view d i).processId) = true := fun heq => hpid (beq_iff_eq.mp heq).symm
      refine h.keepsProcess hturns hlive hkernel ?_
      unfold AppView.close
      rw [hview, Option.any_some, if_neg hnot]
      exact ⟨rfl, id⟩

theorem taskManagerKill_result (h : Kept d) :
    Result d (d.taskManagerKillFocusedApp (userKernel e)).2 (.gui .taskManagerKill) := by
  cases hfind : d.findKillableApp with
  | none =>
      refine Result.of_same h ?_ trivial
      unfold taskManagerKillFocusedApp
      rw [hfind]
  | some i =>
      refine Result.of_kept (h.exit (e := e) (taskManagerKill_turns (userKernel e) h.alive.wf hfind) (AppView.Live.kill _)
        rfl ?_) trivial
      unfold taskManagerKillFocusedApp
      rw [hfind]
      rfl

/-- **`TerminalKillProcess`** clears the entry and does not end the process. -/
theorem terminalKill_result (h : Kept d) (argument : Text) :
    Result d (d.terminalKill argument).2 (.gui (.terminalKill argument)) := by
  by_cases hfound : ∃ processId i, Apps.killTarget argument = some processId ∧
      d.apps.findKillTarget processId = some i
  · obtain ⟨processId, i, htarget, hfind⟩ := hfound
    have hturns := terminalKill_turns h.alive.wf htarget hfind
    have hkernel : (d.terminalKill argument).2.kernel = d.kernel := rfl
    have hpid : (view d i).processId = processId := by
      have htest := Lib.firstSlot_true hfind
      rw [Bool.and_eq_true, Bool.and_eq_true, beq_iff_eq] at htest
      exact htest.1.2
    have hclean : Clean d (.gui (.terminalKill argument)) ↔ processId = 0 := by
      refine ⟨fun hclean => hclean processId i htarget hfind, fun hzero other n htarget' hfind' => ?_⟩
      rw [htarget] at htarget'
      rw [← Option.some.inj htarget']
      exact hzero
    refine ⟨fun hc => ?_, fun hno => hclean.mpr ?_⟩
    · -- the entry that is cleared names no process
      refine h.keepsProcess hturns (AppView.Live.kill _) hkernel ⟨?_, fun _ _ => rfl⟩
      exact (hpid.trans (hclean.mp hc)).symm
    · by_contra hne
      have hholds : d.processes i = some processId := by
        refine AppView.process_eq_some_iff.mpr ⟨hne, hpid⟩
      have howned := noOrphans_iff_owned.mp hno
      rw [hkernel, hturns.processes] at howned
      exact h.custody.drop hholds howned
  · have hmisses := terminalKill_misses fun processId i htarget hfind => hfound ⟨processId, i, htarget, hfind⟩
    exact Result.of_same h (congrArg Prod.snd hmisses) fun processId i htarget hfind =>
      absurd ⟨processId, i, htarget, hfind⟩ hfound

/-! ### A launch -/

/-- The window of an application is refused only for want of a size: there are fewer applications than places. -/
theorem launchWindow_iff {d : Desktop K} (h : Wf d) (i : Fin kApplicationCapacity) (processId threadId : UInt64) :
    (launchWindow d.wm (application i) (d.apps.runtimes i).launchCount processId threadId).1 = true ↔ d.WindowFits i := by
  unfold WindowFits
  dsimp only
  rcases findWindowByApp_eq h i with ⟨hfind, -⟩ | ⟨j, w, hfind, -, -⟩
  · have hlaunched : launchWindow d.wm (application i) (d.apps.runtimes i).launchCount processId threadId =
        d.wm.addWindow (some (application i).name)
          (d.wm.initialWindowBounds (application i) (d.apps.runtimes i).launchCount) (application i).color
          (application i).app (application i).desktop processId threadId := by
      unfold launchWindow
      rw [show d.wm.findWindowByApp (application i).app (application i).desktop = none from hfind]
    have hcount : d.wm.windowCount ≤ kApplicationCapacity := by
      have hall : (d.wm.windows.map (·.app)).toFinset ⊆ Finset.univ.image appOf := by
        intro app _
        obtain ⟨n, hn⟩ := exists_appOf app
        exact Finset.mem_image.mpr ⟨n, Finset.mem_univ n, hn⟩
      have hcard := (Finset.card_le_card hall).trans Finset.card_image_le
      rw [List.toFinset_card_of_nodup h.windows.oneEach, List.length_map, Finset.card_univ, Fintype.card_fin] at hcard
      exact hcard
    have hdesktop : ∀ n : Fin kApplicationCapacity, ¬ (application n).desktop ≥ kVirtualDesktopCount := by decide
    have hfull : ¬ d.wm.windowCount ≥ kMaxWindows := fun hge => absurd (hge.trans hcount) (by decide)
    rw [hlaunched, hfind]
    unfold WindowManager.addWindow
    split_ifs with hrefused
    · refine iff_of_false (by simp) ?_
      rintro (hno | ⟨hwidth, hheight⟩)
      · exact hno rfl
      · rcases hrefused with htitle | hzero | hzero | hbad | hbad
        · exact absurd htitle (by simp)
        · exact hwidth hzero
        · exact hheight hzero
        · exact hdesktop i hbad
        · exact hfull hbad
    · rw [not_or, not_or] at hrefused
      exact iff_of_true rfl (.inr ⟨hrefused.2.1, fun hzero => hrefused.2.2 (.inl hzero)⟩)
  · have hlaunched : (launchWindow d.wm (application i) (d.apps.runtimes i).launchCount processId threadId).1 = true := by
      unfold launchWindow
      rw [show d.wm.findWindowByApp (application i).app (application i).desktop = some j from hfind]
    rw [hfind]
    exact iff_of_true hlaunched (.inl (Option.some_ne_none j))

theorem clean_launch_iff {appId : Option String} (hfind : findApplicationById appId = some (application i)) :
    Clean d (.gui (.launch appId)) ↔ d.LaunchesWhole i := by
  refine ⟨fun hclean => hclean i hfind, fun hwhole n hn => ?_⟩
  rw [hfind] at hn
  rw [← appOf_injective (congrArg ApplicationDescriptor.app (Option.some.inj hn))]
  exact hwhole

/-- The launch has failed, and the entry names no process, as before. -/
theorem Kept.failed (h : Kept d) (hnot : ¬ AppView.Runs (view d i).state)
    (hturns : Turns d d' i v) (hstate : v.state = .failed) (hpid : v.processId = (view d i).processId) :
    v.Live ∧ v.Idle ∧ d'.processes = d.processes := by
  have hzero : (view d i).processId = 0 := h.idle i hnot
  refine ⟨AppView.Live.of_not_runs ?_, fun _ => hpid.trans hzero, ?_⟩
  · rw [hstate]
    exact AppView.not_runs_failed
  · rw [hturns.processes, AppView.process_eq_none (hpid.trans hzero), ← AppView.process_eq_none hzero]
    exact Function.update_eq_self i d.processes

/-- **A launch of an application that does not run.** -/
theorem launch_stopped (h : Kept d) (i : Fin kApplicationCapacity) (hnot : ¬ AppView.Runs (view d i).state) :
    let d' := (d.launchApplication (userKernel e) (application i)).2
    (d.LaunchesWhole i → Kept d') ∧ (NoOrphans d' → d.LaunchesWhole i) := by
  intro d'
  have hcases := launchApplication_cases (userKernel e) h.alive.wf i hnot
  set s := d.kernel.system with hs
  set id := some (application i).id
  set path := some (application i).executablePath
  set r := s.launchUserApplication id path with hr
  have hlaunch : (userKernel e).launch d.kernel (application i).id (application i).executablePath =
      (r.1, { system := r.2, issued := s.taken r.2 ++ d.kernel.issued }) := rfl
  rw [hlaunch] at hcases
  dsimp only at hcases
  by_cases hstarts : s.Starts id path
  · obtain ⟨htaken, hlive, hok, hafter⟩ := h.served.launch_starts hstarts
    rw [← hs, ← hr] at htaken hlive hok hafter
    rw [htaken] at hcases
    have hfresh := h.served.fresh
    rw [← hs] at hfresh
    -- where the launch fails now, the process that it has created is lost
    have hlost : ∀ {v}, Turns d d' i v → v.state = .failed → v.processId = (view d i).processId →
        d'.kernel.system.live d'.kernel.issued = insert s.kernel.sched.nextProcessId (s.live d.kernel.issued) →
        ¬ NoOrphans d' := by
      intro v hturns hstate hpid hgrown hno
      have howned := noOrphans_iff_owned.mp hno
      rw [hgrown, (h.failed hnot hturns hstate hpid).2.2] at howned
      exact h.custody.leak hfresh howned
    have hwhole : d.LaunchesWhole i ↔
        (s.kernel.sched.nextProcessId ≠ 0 ∧ s.user.freeUserProcess ≠ none) ∧ d.WindowFits i ∧ ThreadRoom s.kernel.sched := by
      refine ⟨fun hw => ?_, fun hw => .inr (.inr hw)⟩
      rcases hw with hruns | hno | hw
      · exact absurd hruns hnot
      · exact absurd hstarts hno
      · exact hw
    have hfits := launchWindow_iff h.alive.wf i r.1.2.1 r.1.2.2
    rcases hcases with ⟨hfalse, hkernel, hturns⟩ | ⟨htrue, hno, hkernel, hturns⟩ | ⟨htrue, hyes, hkernel, hturns⟩
    · refine ⟨fun hw => ?_, fun hno => absurd hno (hlost hturns rfl rfl ?_)⟩
      · rw [hok.mpr (hwhole.mp hw).1] at hfalse
        exact absurd hfalse (by simp)
      · rw [show d'.kernel = _ from hkernel]
        exact hlive
    · refine ⟨fun hw => ?_, fun hno => absurd hno (hlost hturns rfl rfl ?_)⟩
      · rw [hfits.mpr (hwhole.mp hw).2.1] at hno
        exact absurd hno (by simp)
      · rw [show d'.kernel = _ from hkernel]
        exact hlive
    · obtain ⟨hpid, hrecorded, hserved⟩ := hafter htrue
      obtain ⟨hnz, hfree⟩ := hok.mp htrue
      rw [hpid] at hkernel hturns
      have hmem : s.kernel.sched.nextProcessId ∈ r.2.live (s.kernel.sched.nextProcessId :: d.kernel.issued) := by
        rw [hlive]
        exact Set.mem_insert _ _
      obtain ⟨hroom, huser, hsame⟩ := Userspace.start_spec e id hnz (by simp [id]) hrecorded hmem.2
      set r' := r.2.startUserApplicationEventLoop e s.kernel.sched.nextProcessId id
      have hstart : (userKernel e).start { system := r.2, issued := [s.kernel.sched.nextProcessId] ++ d.kernel.issued }
          s.kernel.sched.nextProcessId (application i).id =
          (r'.1, { system := r'.2, issued := s.kernel.sched.nextProcessId :: d.kernel.issued }) := rfl
      rw [hstart] at hkernel hturns
      replace hkernel : d'.kernel = { system := r'.2, issued := s.kernel.sched.nextProcessId :: d.kernel.issued } := hkernel
      obtain ⟨hserved', hlive'⟩ := hserved.sameProcesses huser hsame
      rw [hlive] at hlive'
      have hthread : ThreadRoom r.2.kernel.sched ↔ ThreadRoom s.kernel.sched := by
        rcases Userspace.launch_spec h.served.based id path with ⟨hno, -⟩ | ⟨-, ⟨k, -, hsched⟩, -⟩
        · exact absurd hstarts hno
        · rw [← hs, ← hr] at hsched
          rw [hsched]
          exact Iff.rfl
      cases hstarted : r'.1.1 with
      | false =>
          rw [hstarted, if_neg Bool.false_ne_true] at hturns
          refine ⟨fun hw => ?_, fun hno => absurd hno (hlost hturns rfl rfl ?_)⟩
          · rw [hroom.mpr (hthread.mpr (hwhole.mp hw).2.2)] at hstarted
            exact absurd hstarted (by simp)
          · rw [hkernel]
            exact hlive'
      | true =>
          rw [hstarted, if_pos rfl] at hturns
          refine ⟨fun _ => ?_, fun _ => hwhole.mpr ⟨⟨hnz, hfree⟩, hfits.mp hyes, hthread.mp (hroom.mp hstarted)⟩⟩
          have hprocess : ∀ w, AppView.process ⟨.running, s.kernel.sched.nextProcessId, w⟩ =
              some s.kernel.sched.nextProcessId := fun w => AppView.process_eq_some_iff.mpr ⟨hnz, rfl⟩
          refine h.turns hturns (fun _ => ⟨_, rfl, rfl, rfl⟩) (fun hno => absurd (.inl rfl) hno) ?_ ?_ ?_ <;> rw [hkernel]
          · exact hserved'
          · rw [hlive', hprocess]
            exact h.custody.acquire hfresh (AppView.process_eq_none (h.idle i hnot))
          · intro pid hpid
            replace hpid : pid ∈ r'.2.live (s.kernel.sched.nextProcessId :: d.kernel.issued) := hpid
            rw [hlive'] at hpid
            show r'.2.user.findUserProcess pid ≠ none
            rw [huser]
            rcases hpid with rfl | hpid
            · exact hrecorded
            · exact Userspace.recorded_launch (h.recorded pid hpid)
  · obtain ⟨hfalse, htaken, hserved, hlive⟩ := h.served.launch_refused hstarts
    rw [← hs, ← hr] at hfalse htaken hserved hlive
    rcases hcases with ⟨-, hkernel, hturns⟩ | ⟨htrue, -⟩ | ⟨htrue, -⟩
    · rw [htaken, List.nil_append] at hkernel
      replace hkernel : d'.kernel = { system := r.2, issued := d.kernel.issued } := hkernel
      obtain ⟨hvlive, hvidle, hprocesses⟩ := h.failed hnot hturns rfl rfl
      rw [hturns.processes] at hprocesses
      refine ⟨fun _ => ?_, fun _ => .inr (.inl hstarts)⟩
      refine h.turns hturns hvlive hvidle ?_ ?_ ?_ <;> rw [hkernel]
      · exact hserved
      · rw [hprocesses]
        show Lib.Custody (r.2.live d.kernel.issued) _
        rw [hlive]
        exact h.custody
      · intro pid hpid
        replace hpid : pid ∈ r.2.live d.kernel.issued := hpid
        rw [hlive] at hpid
        exact Userspace.recorded_launch (h.recorded pid hpid)
    · exact absurd (htrue.symm.trans hfalse) (by simp)
    · exact absurd (htrue.symm.trans hfalse) (by simp)

theorem launch_result (h : Kept d) (appId : Option String) :
    Result d (d.launchApplicationById (userKernel e) appId).2 (.gui (.launch appId)) := by
  have halive := (launch_outcome (userKernel e) h.alive appId).alive
  unfold launchApplicationById at halive ⊢
  cases hfind : findApplicationById appId with
  | none =>
      rw [hfind] at halive
      refine Result.of_kept (h.same halive rfl fun i => ⟨rfl, id⟩) fun i hi => ?_
      rw [hfind] at hi
      cases hi
  | some app =>
      obtain ⟨n, hlt, rfl⟩ := List.mem_iff_getElem.mp (List.mem_of_find?_eq_some hfind)
      have hclean := clean_launch_iff (d := d) (i := ⟨n, hlt⟩) hfind
      by_cases hruns : AppView.Runs (view d ⟨n, hlt⟩).state
      · obtain ⟨w, hwindow, -⟩ := h.alive.live ⟨n, hlt⟩ hruns
        have hsome : (view d ⟨n, hlt⟩).window ≠ none := by
          rw [hwindow]
          exact Option.some_ne_none w
        have hrunning := launchApplication_running (userKernel e) h.alive.wf ⟨n, hlt⟩ hruns
        have hturns := restoreOrFocusRunningApp_turns h.alive.wf ⟨n, hlt⟩ hsome
        rw [← hrunning] at hturns
        refine Result.of_kept (h.keepsProcess hturns (h.alive.live _).reopen ?_ (AppView.keepsProcess_reopen _))
          (hclean.mpr (.inl hruns))
        show (d.launchApplication (userKernel e) (application ⟨n, hlt⟩)).2.kernel = _
        rw [hrunning]
        exact restoreOrFocusRunningApp_kernel _ _
      · have hboth := launch_stopped (e := e) h ⟨n, hlt⟩ hruns
        exact ⟨fun hc => hboth.1 (hclean.mp hc), fun hno => hclean.mpr (hboth.2 hno)⟩

/-! ## Runs -/

theorem appStep_result (h : Kept d) (op : AppOp) : Result d (d.appStep e op) op := by
  cases op with
  | gui op =>
      cases op with
      | launch appId => exact launch_result h appId
      | minimize index => exact minimize_result h index
      | restore index => exact restore_result h index
      | close index => exact close_result h index
      | watchdog => exact watchdog_result h
      | heartbeat app => exact heartbeat_result h app
      | taskManagerKill => exact taskManagerKill_result h
      | terminalKill argument => exact terminalKill_result h argument
  | other a => exact other_result h a

theorem kept_registered (e : Entries) (heap : { h : KernelHeap // h.InBlock }) (framebuffer : FramebufferInfo) :
    Kept (registered heap framebuffer) := by
  have halive := (registry_alive framebuffer ({ system := System.boot heap } : AppSystem)).1
  have hnone : System.live (System.boot heap) [] = ∅ := by
    ext pid
    exact iff_of_false (fun hpid => absurd hpid.1 List.not_mem_nil) (Set.notMem_empty pid)
  have hnext : (registered heap framebuffer).kernel.system.kernel.sched.nextProcessId = 2 := rfl
  refine ⟨halive, ⟨(Scheduler.tables_boot heap).ids, Userspace.based e heap [], ?_, fun _ => ⟨?_, ?_⟩⟩, ?_,
    fun i _ => rfl, ?_⟩
  · exact fun pid hpid => absurd hpid List.not_mem_nil
  · rw [hnext]
    decide
  · exact fun pid hpid => absurd hpid List.not_mem_nil
  · show Lib.Custody (System.live (System.boot heap) []) _
    rw [hnone]
    exact Lib.Custody.unused fun i => rfl
  · show ∀ pid ∈ System.live (System.boot heap) [], _
    rw [hnone]
    exact fun pid hpid => absurd hpid (Set.notMem_empty pid)

/-- **When there are no orphan processes**: from the filled registry on, through any operations on applications and
    any steps of other code, with any heap and on any screen, iff every launch that gets as far as creating a process
    finds room for the rest of it, and no terminal kill finds a process. -/
theorem noOrphans_iff (e : Entries) (heap : { h : KernelHeap // h.InBlock }) (framebuffer : FramebufferInfo)
    (ops : List AppOp) :
    Lib.Throughout (appStep e) NoOrphans (registered heap framebuffer) ops ↔
      Lib.Along (appStep e) Clean (registered heap framebuffer) ops := by
  have hkept : ∀ (d : Desktop AppSystem) op, Kept d → Clean d op → Kept (d.appStep e op) :=
    fun d op h hc => (appStep_result h op).kept hc
  have hclean : ∀ (d : Desktop AppSystem) op, Kept d → NoOrphans (d.appStep e op) → Clean d op :=
    fun d op h hno => (appStep_result h op).clean hno
  exact Lib.throughout_iff_of_safe hkept (fun _ h => h.noOrphans) hclean (kept_registered e heap framebuffer) ops

/-- The file manager is killed in the terminal: its entry is cleared, and process 2 goes on. -/
theorem killed_goes_on :
    ¬ Lib.Throughout (appStep Userspace.entriesAt1MiB) NoOrphans
        (registered Scheduler.heapAt2MiB
          { baseAddress := 0x80000000, width := 1024, height := 768, pixelsPerScanline := 1024 })
        [.gui (.launch (some "files")), .gui (.launch (some "term")), .gui (.terminalKill (text "2"))] := by
  intro h
  have hlast := h.last
  generalize hd : Lib.run _ _ _ = d at hlast
  have hissued : (2 : UInt64) ∈ d.kernel.issued := by
    rw [← hd]
    decide +kernel
  have hactive : (d.kernel.system.kernel.sched.processes 1).active = true ∧
      (d.kernel.system.kernel.sched.processes 1).id = 2 := by
    rw [← hd]
    decide +kernel
  have hcleared : ∀ i, (d.apps.runtimes i).processId ≠ 2 := by
    rw [← hd]
    decide +kernel
  have hmem : (2 : UInt64) ∈ d.kernel.system.live d.kernel.issued := ⟨hissued, 1, hactive⟩
  rw [hlast] at hmem
  obtain ⟨-, i, hi⟩ := hmem
  exact hcleared i hi

end Desktop
end Gui
end UefiBoot
