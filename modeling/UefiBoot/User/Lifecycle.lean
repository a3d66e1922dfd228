import UefiBoot.User.Records

/-!
# `User.Lifecycle` — whether an exited process stays exited

A user process is marked `Exited` by the `Exit` system call and by `KernelExitUserApplication`, and marked `Running`
by its own thread, when that is scheduled for the first time. The thread does not look at the state it overwrites,
and the system call does not stop the thread, so a process that has exited before its thread ran comes back to
life. `exited_final_iff` says that this is the only way: in a run in which no thread is started for an exited
process, exited processes stay exited.
-/

namespace UefiBoot
namespace Userspace

/-- Record `i` is that of process `processId`, which has exited. -/
def System.Exited (i : Fin kMaxUserProcesses) (processId : UInt64) (s : System) : Prop :=
  (s.user.userProcesses i).processId = processId ∧ (s.user.userProcesses i).state = .exited

/-- The process whose record the thread that the processor is about to start will mark: its argument for
    `AppProcessMain`, the shell's process for `ShellMain`. -/
def System.marks (e : Entries) (s : System) : Option UInt64 :=
  match s.kernel.control, s.kernel.sched.currentThread with
  | .resuming .trampoline, some c =>
    let t := s.kernel.sched.threads c
    if t.entry = e.appProcessMain then some t.argument
    else if t.entry = e.shellMain then some s.user.status.shellProcessId
    else none
  | _, _ => none

/-- The step starts a thread that will mark the record of an exited process. -/
def System.Revives (e : Entries) (s : System) (a : System.Action) : Prop :=
  a = .kernel .run ∧ ∃ processId i, s.marks e = some processId ∧ s.user.findUserProcess processId = some i ∧
    (s.user.userProcesses i).state = .exited

section Step

variable {e : Entries} {s : System} {i : Fin kMaxUserProcesses} {processId : UInt64}

/-- What an entry function does, in terms of the record it marks. -/
theorem entered_eq (e : Entries) (s : System) :
    s.entered e = match s.marks e with
      | some processId => s.user.mark processId .running
      | none           => s.user := by
  by_cases hcontrol : s.kernel.control = .resuming .trampoline
  · unfold System.entered System.marks
    rw [hcontrol]
    cases s.kernel.sched.currentThread with
    | none => rfl
    | some c =>
      dsimp only
      by_cases happ : (s.kernel.sched.threads c).entry = e.appProcessMain
      · rw [if_pos happ, if_pos happ]
        rfl
      · rw [if_neg happ, if_neg happ]
        by_cases hshell : (s.kernel.sched.threads c).entry = e.shellMain
        · rw [if_pos hshell, if_pos hshell]
          rfl
        · rw [if_neg hshell, if_neg hshell]
  · have hentered : s.entered e = s.user := by
      unfold System.entered
      split
      · contradiction
      · rfl
    have hmarks : s.marks e = none := by
      unfold System.marks
      split
      · contradiction
      · rfl
    rw [hentered, hmarks]

/-- A mark changes the state of the record it finds and nothing else. -/
theorem mark_other {u : State} {state : UserProcessState} (h : u.findUserProcess processId ≠ some i) :
    (u.mark processId state).userProcesses i = u.userProcesses i := by
  unfold State.mark
  split
  · rfl
  · next j hj =>
    have hji : i ≠ j := by
      rintro rfl
      exact h hj
    exact Function.update_of_ne hji _ _

theorem mark_found {u : State} {state : UserProcessState} (h : u.findUserProcess processId = some i) :
    (u.mark processId state).userProcesses i = { u.userProcesses i with state := state } := by
  unfold State.mark
  rw [h]
  exact Function.update_self _ _ _

/-- No call brings an exited process back. -/
theorem Written.exited {u : State} {records : Fin kMaxUserProcesses → UserProcess} (h : Written .exited u records)
    (hi : (u.userProcesses i).state = .exited) :
    (records i).processId = (u.userProcesses i).processId ∧ (records i).state = .exited := by
  cases h with
  | same => exact ⟨rfl, hi⟩
  | @registered j hfree _ _ name =>
    -- a record that is registered was empty
    have hij : i ≠ j := by
      rintro rfl
      rw [freeUserProcess_some hfree] at hi
      exact absurd hi (by simp)
    rw [Function.update_of_ne hij]
    exact ⟨rfl, hi⟩
  | @marked j _ hfind =>
    by_cases hij : i = j
    · rw [hij, Function.update_self]
      exact ⟨rfl, rfl⟩
    · rw [Function.update_of_ne hij]
      exact ⟨rfl, hi⟩

/-- **One step** keeps every exited process exited exactly when it does not revive one. -/
theorem exited_step_iff (e : Entries) (s : System) (a : System.Action) :
    (∀ i processId, s.Exited i processId → (s.step e a).Exited i processId) ↔ ¬ s.Revives e a := by
  constructor
  · rintro hkeep ⟨rfl, processId, i, hmarks, hfind, hexited⟩
    have huser : (s.step e (.kernel .run)).user = s.entered e := rfl
    have hstill := (hkeep i (s.user.userProcesses i).processId ⟨rfl, hexited⟩).2
    rw [huser, entered_eq, hmarks] at hstill
    dsimp only at hstill
    rw [mark_found hfind] at hstill
    exact absurd hstill (by simp)
  · rintro hsafe i processId ⟨rfl, hexited⟩
    rcases written_step e s a with hwritten | ⟨ha, huser⟩
    · exact hwritten.exited hexited
    · unfold System.Exited
      rw [huser, entered_eq]
      cases hmarks : s.marks e with
      | none => exact ⟨rfl, hexited⟩
      | some pid =>
        dsimp only
        have hother : s.user.findUserProcess pid ≠ some i := by
          intro hfind
          exact hsafe ⟨ha, pid, i, hmarks, hfind, hexited⟩
        rw [mark_other hother]
        exact ⟨rfl, hexited⟩

end Step

/-- **When exited is final.** In a run from the freshly initialised system, exited processes stay exited from any
    point of the run to any later one exactly when no step of the run starts a thread that marks an exited one. -/
theorem exited_final_iff (e : Entries) (heap : { h : KernelHeap // h.InBlock }) (as : List System.Action) :
    (∀ i processId bs cs ds, as = bs ++ (cs ++ ds) →
      (reached e heap bs).Exited i processId → (reached e heap (bs ++ cs)).Exited i processId) ↔
    Lib.Along (System.step e) (fun s a => ¬ s.Revives e a) (System.boot heap) as := by
  refine Iff.trans ?_ (Lib.along_congr (exited_step_iff e))
  refine Iff.trans (forall_congr' fun i => ?_) Lib.along_forall_iff.symm
  refine Iff.trans (forall_congr' fun processId => ?_) Lib.along_forall_iff.symm
  exact Lib.along_keeps_iff.symm

/-- The shell is started and ends before its thread has run. -/
def revivedShell : List System.Action :=
  [.call (.process .startShellProcess), .call (.process (.sysExit 2 0)),
    .kernel (.call .schedulerYield), .kernel .run, .kernel .run]

/-- Its record is `Exited` after the system call, and `Running` when the thread has been started. -/
theorem exited_shell_revived :
    System.Exited 0 2 (reached entriesAt1MiB Scheduler.heapAt2MiB (revivedShell.take 2)) ∧
    (((reached entriesAt1MiB Scheduler.heapAt2MiB revivedShell).user.userProcesses 0).processId = 2 ∧
      ((reached entriesAt1MiB Scheduler.heapAt2MiB revivedShell).user.userProcesses 0).state = .running) := by
  unfold System.Exited
  decide +kernel

end Userspace
end UefiBoot
