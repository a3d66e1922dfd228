import UefiBoot.Scheduler.ProcessTable
import UefiBoot.Scheduler.Exit

/-!
# `Scheduler.Tables` — the two tables refer to each other

A thread names its process by id, and the processor's thread is a slot of the thread table. `TablesOk` says what
the tables promise: no two threads in use with one id, no two active processes with one id, a process for every
thread, and nobody Running but the current thread.

A thread that ends its own process goes on in an emptied slot, and a counter of process ids that has come round
gives one id twice (`process_ids_come_round`): the runs are those without either (`SparesOwn`, `NotWrapped`).
-/

namespace UefiBoot
namespace Scheduler

/-! ## Process and turn of one thread -/

section Effect

variable {m m' : Machine} {a : Action} {i : Fin kMaxThreads}

theorem setThread_processId {s : State} {j : Fin kMaxThreads} {t : Thread}
    (ht : t.processId = (s.threads j).processId) :
    ((s.setThread j t).threads i).processId = (s.threads i).processId := by
  rw [State.setThread_threads]
  by_cases hij : i = j
  · rw [hij, Function.update_self, ht]
  · rw [Function.update_of_ne hij]

theorem signalled_processId (t : Thread) (signal : UInt32) : (t.signalled signal).processId = t.processId := by
  unfold Thread.signalled
  dsimp only
  split
  · rfl
  · rfl

/-- A thread stays in its process as long as it is there. -/
theorem Effect.processId (he : Effect m a m') (hi : (m.sched.threads i).state ≠ .empty)
    (hi' : (m'.sched.threads i).state ≠ .empty) :
    (m'.sched.threads i).processId = (m.sched.threads i).processId := by
  cases he with
  | tick =>
      show ((m.sched.threads i).wake _).processId = _
      unfold Thread.wake
      split
      · rfl
      · rfl
  | @created c res j pid entry argument stack name heap p n e f hu hc hempty =>
      have hij : i ≠ j := by
        rintro rfl
        exact hi hempty
      show (Function.update m.sched.threads j _ i).processId = _
      rw [Function.update_of_ne hij]
  | @terminated pid code k p hu hterm =>
      -- a thread of the process is gone
      have hp : ¬ (m.sched.threads i).processId = pid := by
        intro hp
        apply hi'
        show (m.sched.survivors pid i).state = _
        rw [survivors_state, if_pos hp]
      show (m.sched.survivors pid i).processId = _
      rw [State.survivors, if_neg fun h => hp h.2]
  | joined ht hfin => exact setThread_processId rfl
  | prioritized hu hfind => exact setThread_processId rfl
  | signalled hu hsignal hfind => exact setThread_processId (signalled_processId _ _)
  | slept hu hcur hticks => exact setThread_processId rfl
  | futexBlocked hu hcur haddr hslot => exact setThread_processId rfl
  | @futexWoken address count k j popped left hu haddr hfind hsplit =>
      show (m.sched.wokenThreads popped i).processId = _
      unfold State.wokenThreads
      split
      · rfl
      · rfl
  | lockBlocked hu hcur hi hlocked hother => exact setThread_processId rfl
  | unlockPassed hu hcur hi howner hnext => exact setThread_processId rfl
  | exited hu hcur hc => exact setThread_processId rfl
  | yieldReturned hy hcur hstay => exact stayed_processId hcur i
  | yieldSwitched hy hcur haway hne hrun => exact switched_processId hcur hne i
  | started hr hcur => exact setThread_processId (deliver_processId _)
  | _ => rfl

/-- A Running thread was chosen by this step, or was Running and has not been left. -/
theorem Effect.running (he : Effect m a m') (hi : (m'.sched.threads i).state = .running) :
    m'.sched.currentThread = some i ∨ ((m.sched.threads i).state = .running ∧
      (m'.sched.currentThread = m.sched.currentThread ∨ m.sched.currentThread ≠ some i)) := by
  have hts := he.threadStep (i := i)
  have hstays : m'.sched.currentThread = m.sched.currentThread → m'.sched.currentThread = some i ∨
      ((m.sched.threads i).state = .running ∧
        (m'.sched.currentThread = m.sched.currentThread ∨ m.sched.currentThread ≠ some i)) := by
    intro hcur
    cases hts with
    | same hs => exact Or.inr ⟨hs.symm.trans hi, Or.inl hcur⟩
    | chosen hcur' => exact Or.inl hcur'
    | created _ hs => simp [hs] at hi
    | terminated _ _ _ hs => simp [hs] at hi
    | joined _ hs => simp [hs] at hi
    | woke _ hs => simp [hs] at hi
    | signalled _ _ _ _ hs => simp [hs] at hi
    | popped _ _ _ _ _ _ hs => simp [hs] at hi
    | inherited _ _ _ _ _ _ _ hs => simp [hs] at hi
    | slept _ _ _ hs => simp [hs] at hi
    | futexBlocked _ _ _ hs => simp [hs] at hi
    | lockBlocked _ _ _ _ hs => simp [hs] at hi
    | exited _ _ _ _ hs => simp [hs] at hi
    | left _ _ hs => simp [hs] at hi
  cases he with
  | yieldReturned hy hcur hstay => exact hstays (by simp)
  | @yieldSwitched rest c n hy hcur haway hne hrun =>
      -- the thread that is left is made Ready
      have hs : ((yieldSwitch (yielded m.sched) c n rest).threads i).state = switchedState m.sched c n i :=
        switched_state hcur hne i
      rw [switchedState] at hs
      by_cases hin : i = n
      · left
        rw [hin]
        exact (yieldSwitch_others (yielded m.sched) c n rest).1
      · replace hi : ((yieldSwitch (yielded m.sched) c n rest).threads i).state = .running := hi
        rw [if_neg hin] at hs
        rw [hs] at hi
        split at hi
        · exact absurd hi (by decide)
        · rename_i hnot
          refine Or.inr ⟨hi, Or.inr ?_⟩
          rw [hcur]
          rintro ⟨⟩
          exact hnot (Or.inr ⟨rfl, hi⟩)
  | _ => exact hstays rfl

/-- Only the current thread is Running. -/
theorem Effect.running_current (he : Effect m a m')
    (h : ∀ i, (m.sched.threads i).state = .running → m.sched.currentThread = some i)
    (hi : (m'.sched.threads i).state = .running) : m'.sched.currentThread = some i := by
  rcases he.running hi with hcur | ⟨hold, hstay⟩
  · exact hcur
  · have hcur := h i hold
    rcases hstay with hsame | hne
    · exact hsame.trans hcur
    · exact absurd hcur hne

/-- A thread that has left its entry function never gets back to user code. -/
theorem Effect.exited_control (he : Effect m a m') {t : UInt64} (h : m.control.rest = some (.exited t)) :
    m'.control.rest = some (.exited t) ∨ m'.sched.currentThread ≠ m.sched.currentThread ∨
      ∃ reason, m'.control = .halted reason := by
  cases he with
  | stutter => exact Or.inl h
  | tick => exact Or.inl h
  | joined ht hfin =>
      rcases ht with ⟨-, hu, -⟩ | ⟨-, hr⟩
      · simp [hu, Control.rest] at h
      · simp [hr, Control.rest] at h
  | joinWaits ht hnot =>
      rcases ht with ⟨-, hu, -⟩ | ⟨-, hr⟩
      · simp [hu, Control.rest] at h
      · simp [hr, Control.rest] at h
  | yieldReturned hy hcur hstay =>
      rw [hy] at h
      exact Or.inl h
  | @yieldSwitched rest c n hy hcur haway hne hrun =>
      refine Or.inr (Or.inl ?_)
      show (yieldSwitch (yielded m.sched) c n rest).currentThread ≠ _
      rw [(yieldSwitch_others _ _ _ _).1, hcur]
      simpa using hne
  | panicked hr => exact Or.inr (Or.inr ⟨_, rfl⟩)
  | started hr => simp [hr, Control.rest] at h
  | badStart hr => simp [hr, Control.rest] at h
  | resumed hr hplain =>
      rw [hr] at h
      obtain rfl := Option.some.inj h
      simp [Continuation.plainReturn] at hplain
  | lockReturned hr => simp [hr, Control.rest] at h
  | _ => simp [*, Control.rest] at h

end Effect

/-! ## The invariant -/

/-- **The tables are in order.** -/
structure TablesOk (s : State) : Prop where
  threadIds  : ∀ i j, (s.threads i).state ≠ .empty → (s.threads j).state ≠ .empty →
    (s.threads i).id = (s.threads j).id → i = j
  processIds : ∀ k l, (s.processes k).active = true → (s.processes l).active = true →
    (s.processes k).id = (s.processes l).id → k = l
  homed      : ∀ i, (s.threads i).state ≠ .empty → HasProcess s (s.threads i).processId
  running    : ∀ i, (s.threads i).state = .running → s.currentThread = some i

/-- The process of the current thread. -/
def State.currentProcessId (s : State) : UInt64 :=
  match s.currentThread with
  | some c => (s.threads c).processId
  | none   => 0

/-- No thread ends its own process. -/
def SparesOwn (m : Machine) : Action → Prop
  | .call (.terminateProcess pid _) => m.sched.terminates pid = none ∨ m.sched.currentProcessId ≠ pid
  | _                               => True

/-- No process is created once the counter of ids has come round to 0. -/
def NotWrapped (m : Machine) : Action → Prop
  | .call c => c.createsProcess = true → m.sched.nextProcessId ≠ 0
  | _       => True

theorem terminates_id {s : State} {pid : UInt64} {k : Fin kMaxProcesses} (h : s.terminates pid = some k) :
    (s.processes k).id = pid := by
  unfold State.terminates at h
  split at h
  · exact absurd h (by simp)
  · exact (State.findProcess_some h).2

/-- **The ids of the processes** stay in order in a step that does not take the id 0. -/
theorem ProcessStep.ids {m : Machine} {s' : State} {a : Action} (h : ProcessStep m s' a)
    (hids : Lib.Issued (fun k => (m.sched.processes k).active = true) (fun k => (m.sched.processes k).id)
      m.sched.nextProcessId) (hwrap : NotWrapped m a) :
    Lib.Issued (fun k => (s'.processes k).active = true) (fun k => (s'.processes k).id) s'.nextProcessId := by
  cases h with
  | kept hnext hsame =>
      rw [hnext]
      refine hids.keeps (fun hnz => ⟨hnz, UInt64.le_refl _⟩) fun k hk => ?_
      exact ⟨(hsame k).1.symm.trans hk, (hsame k).2⟩
  | @created c i hu hc hactive hid hfree hsame hnext =>
      rw [hnext]
      refine hids.issue (hwrap hc) i fun k hk => ?_
      by_cases hki : k = i
      · exact Or.inl ⟨hki, hki ▸ hid⟩
      · exact Or.inr ⟨(hsame k hki).1.symm.trans hk, (hsame k hki).2⟩
  | @terminated pid code i hu hterm hdead hsame hnext =>
      rw [hnext]
      refine hids.keeps (fun hnz => ⟨hnz, UInt64.le_refl _⟩) fun k hk => ?_
      have hki : k ≠ i := by
        rintro rfl
        exact absurd (hdead.symm.trans hk) (by simp)
      exact ⟨(hsame k hki).1.symm.trans hk, (hsame k hki).2⟩

/-- The counter of process ids does not go down. -/
theorem ProcessStep.next_le {m : Machine} {s' : State} {a : Action} (h : ProcessStep m s' a) (hwrap : NotWrapped m a)
    (hnz : s'.nextProcessId ≠ 0) : m.sched.nextProcessId ≠ 0 ∧ m.sched.nextProcessId ≤ s'.nextProcessId := by
  cases h with
  | kept hnext hsame =>
      rw [hnext] at hnz ⊢
      exact ⟨hnz, UInt64.le_refl _⟩
  | created hu hc hactive hid hfree hsame hnext =>
      rw [hnext] at hnz ⊢
      exact ⟨hwrap hc, UInt64.le_of_lt (Lib.lt_add_one hnz)⟩
  | terminated hu hterm hdead hsame hnext =>
      rw [hnext] at hnz ⊢
      exact ⟨hnz, UInt64.le_refl _⟩

/-- A process that the step neither creates nor ends. -/
theorem ProcessStep.hasProcess_iff {m : Machine} {s' : State} {a : Action} (h : ProcessStep m s' a) {pid : UInt64}
    (hold : pid ≠ m.sched.nextProcessId) (hspared : ∀ code, a ≠ .call (.terminateProcess pid code)) :
    HasProcess s' pid ↔ HasProcess m.sched pid := by
  cases h with
  | kept hnext hsame =>
      refine exists_congr fun k => ?_
      rw [(hsame k).1, (hsame k).2]
  | @created c i hu hc hactive hid hfree hsame hnext =>
      refine exists_congr fun k => ?_
      by_cases hk : k = i
      · -- the new process has another id, and its slot was free
        rw [hk, hid, hfree]
        exact iff_of_false (fun hnew => hold hnew.2.symm) (fun hno => absurd hno.1 (by simp))
      · rw [(hsame k hk).1, (hsame k hk).2]
  | @terminated ended code i hu hterm hdead hsame hnext =>
      have hne : ended ≠ pid := fun heq => hspared code (by rw [heq])
      refine exists_congr fun k => ?_
      by_cases hk : k = i
      · rw [hk, hdead]
        refine iff_of_false (fun hno => absurd hno.1 (by simp)) fun hpid => ?_
        exact hne ((terminates_id hterm).symm.trans hpid.2)
      · rw [(hsame k hk).1, (hsame k hk).2]

/-- What holds in every state of a run in which both are so. The current thread is in use, and once it has left
    its entry function it is on its way out: this keeps it from being joined while it runs. -/
structure Tables (m : Machine) : Prop where
  wf      : Wf m
  ids     : Lib.Issued (fun k => (m.sched.processes k).active = true)
    (fun k => (m.sched.processes k).id) m.sched.nextProcessId
  homed   : ∀ i, (m.sched.threads i).state ≠ .empty → HasProcess m.sched (m.sched.threads i).processId
  running : ∀ i, (m.sched.threads i).state = .running → m.sched.currentThread = some i
  onCpu   : ∀ c, m.sched.currentThread = some c → (m.sched.threads c).state ≠ .empty
  leaving : ∀ c, m.sched.currentThread = some c → (m.sched.threads c).state = .finished →
    (∃ t, m.control.rest = some (.exited t)) ∨ ∃ reason, m.control = .halted reason

/-- The part of it that is about the current thread. -/
structure OnProcessor (m : Machine) : Prop where
  wf      : Wf m
  onCpu   : ∀ c, m.sched.currentThread = some c → (m.sched.threads c).state ≠ .empty
  leaving : ∀ c, m.sched.currentThread = some c → (m.sched.threads c).state = .finished →
    (∃ t, m.control.rest = some (.exited t)) ∨ ∃ reason, m.control = .halted reason

namespace OnProcessor

variable {m m' : Machine} {a : Action}

/-- The thread chosen by a `Yield` is Running. -/
theorem chosen_state (he : Effect m a m') {c : Fin kMaxThreads}
    (hcur' : m'.sched.currentThread = some c) (hcur : m.sched.currentThread ≠ some c) :
    (m'.sched.threads c).state = .running := by
  cases he with
  | yieldReturned hy hc hstay => exact absurd (by simpa using hcur') hcur
  | @yieldSwitched rest p n hy hc haway hne hrun =>
      have hn : (yieldSwitch (yielded m.sched) p n rest).currentThread = some c := hcur'
      rw [(yieldSwitch_others _ _ _ _).1] at hn
      obtain rfl := Option.some.inj hn
      have hs : ((yieldSwitch (yielded m.sched) p n rest).threads n).state = switchedState m.sched p n n :=
        switched_state hc hne n
      rw [switchedState, if_pos rfl] at hs
      exact hs
  | _ => exact absurd hcur' hcur

theorem next_onCpu (h : OnProcessor m) (hspare : m.control = .user → SparesOwn m a) (c : Fin kMaxThreads)
    (hcur' : (m.step a).sched.currentThread = some c) : ((m.step a).sched.threads c).state ≠ .empty := by
  have he := h.wf.effect a
  by_cases hcur : m.sched.currentThread = some c
  · have hused := h.onCpu c hcur
    intro hempty
    cases he.threadStep (i := c) with
    | same hs => exact hused (hs.symm.trans hempty)
    | @terminated pid code hu hterm hp hs hu' =>
        -- the current thread would have ended its own process
        have hown : m.sched.currentProcessId = pid := by
          unfold State.currentProcessId
          rw [hcur]
          exact hp
        rcases hspare hu with hnone | hne
        · exact hterm hnone
        · exact hne hown
    | joined hfin hs hu' =>
        -- a current thread that is finished is not in user code
        rcases h.leaving c hcur hfin with ⟨t, ht⟩ | ⟨reason, hhalt⟩
        · rcases he.exited_control ht with ht' | hmoved | ⟨reason, hhalt⟩
          · rw [hu'] at ht'
            exact absurd ht' (by simp [Control.rest])
          · exact hmoved (hcur'.trans hcur.symm)
          · rw [hu'] at hhalt
            exact absurd hhalt (by simp)
        · rw [step_halted hhalt, hhalt] at hu'
          exact absurd hu' (by simp)
    | created _ hs => simp [hs] at hempty
    | woke _ hs => simp [hs] at hempty
    | signalled _ _ _ _ hs => simp [hs] at hempty
    | popped _ _ _ _ _ _ hs => simp [hs] at hempty
    | inherited _ _ _ _ _ _ _ hs => simp [hs] at hempty
    | slept _ _ _ hs => simp [hs] at hempty
    | futexBlocked _ _ _ hs => simp [hs] at hempty
    | lockBlocked _ _ _ _ hs => simp [hs] at hempty
    | exited _ _ _ _ hs => simp [hs] at hempty
    | chosen _ _ hs => simp [hs] at hempty
    | left _ _ hs => simp [hs] at hempty
  · rw [chosen_state he hcur' hcur]
    decide

theorem next_leaving (h : OnProcessor m) (a : Action) (c : Fin kMaxThreads)
    (hcur' : (m.step a).sched.currentThread = some c)
    (hfin' : ((m.step a).sched.threads c).state = .finished) :
    (∃ t, (m.step a).control.rest = some (.exited t)) ∨ ∃ reason, (m.step a).control = .halted reason := by
  have he := h.wf.effect a
  by_cases hcur : m.sched.currentThread = some c
  · cases hts : he.threadStep (i := c) with
    | same hs =>
        rcases h.leaving c hcur (hs.symm.trans hfin') with ⟨t, ht⟩ | ⟨reason, hhalt⟩
        · rcases he.exited_control ht with ht' | hmoved | hhalt'
          · exact Or.inl ⟨t, ht'⟩
          · exact absurd (hcur'.trans hcur.symm) hmoved
          · exact Or.inr hhalt'
        · rw [step_halted hhalt]
          exact Or.inr ⟨reason, hhalt⟩
    | exited hu _ hc hin hs =>
        rw [step_exit hu hcur hc]
        exact Or.inl ⟨_, rfl⟩
    | created _ hs => simp [hs] at hfin'
    | terminated _ _ _ hs => simp [hs] at hfin'
    | joined _ hs => simp [hs] at hfin'
    | woke _ hs => simp [hs] at hfin'
    | signalled _ _ _ _ hs => simp [hs] at hfin'
    | popped _ _ _ _ _ _ hs => simp [hs] at hfin'
    | inherited _ _ _ _ _ _ _ hs => simp [hs] at hfin'
    | slept _ _ _ hs => simp [hs] at hfin'
    | futexBlocked _ _ _ hs => simp [hs] at hfin'
    | lockBlocked _ _ _ _ hs => simp [hs] at hfin'
    | chosen _ _ hs => simp [hs] at hfin'
    | left _ _ hs => simp [hs] at hfin'
  · rw [chosen_state he hcur' hcur] at hfin'
    exact absurd hfin' (by decide)

theorem step (h : OnProcessor m) (hspare : m.control = .user → SparesOwn m a) : OnProcessor (m.step a) where
  wf      := h.wf.step a
  onCpu   := h.next_onCpu hspare
  leaving := h.next_leaving a

end OnProcessor

namespace Tables

variable {m m' : Machine} {a : Action}

theorem ok (h : Tables m) : TablesOk m.sched where
  threadIds  := fun i j hi hj => h.wf.distinct i j (Or.inl hi) (Or.inl hj)
  processIds := h.ids.distinct
  homed      := h.homed
  running    := h.running

theorem next_running (h : Tables m) (he : Effect m a m') (i : Fin kMaxThreads)
    (hi : (m'.sched.threads i).state = .running) : m'.sched.currentThread = some i :=
  he.running_current h.running hi

theorem next_ids (h : Tables m) (hwrap : NotWrapped m a) :
    Lib.Issued (fun k => ((m.step a).sched.processes k).active = true)
      (fun k => ((m.step a).sched.processes k).id) (m.step a).sched.nextProcessId :=
  (step_processes m a).ids h.ids hwrap

/-- A successful `KernelTerminateProcess` leaves the threads of other processes. -/
theorem terminate_threads {pid : UInt64} {code : Int32} {k : Fin kMaxProcesses} (hu : m.control = .user)
    (hterm : m.sched.terminates pid = some k) :
    (m.step (.call (.terminateProcess pid code))).sched.threads = m.sched.survivors pid := by
  rw [step_call hu]
  unfold Machine.call
  dsimp only [kernelTerminateProcess]
  rw [hterm]
  rfl

/-- The process of a thread that is there after the step is there too. -/
theorem home_stays (h : Tables m) {i : Fin kMaxThreads} (hi : (m.sched.threads i).state ≠ .empty)
    (hi' : ((m.step a).sched.threads i).state ≠ .empty) :
    HasProcess (m.step a).sched ((m.step a).sched.threads i).processId := by
  obtain ⟨k, hactive, hid⟩ := h.homed i hi
  rw [(h.wf.effect a).processId hi hi']
  have hkept : SameProcess m.sched (m.step a).sched k →
      HasProcess (m.step a).sched (m.sched.threads i).processId := fun hs =>
    ⟨k, hs.1.trans hactive, hs.2.trans hid⟩
  cases step_processes m a with
  | kept hnext hsame => exact hkept (hsame k)
  | @created c j hu hc hactive' hid' hfree hsame hnext =>
      apply hkept (hsame k _)
      rintro rfl
      exact absurd (hactive.symm.trans hfree) (by simp)
  | @terminated pid code j hu hterm hdead hsame hnext =>
      apply hkept (hsame k _)
      rintro rfl
      -- the thread would have been ended with its process
      apply hi'
      rw [terminate_threads hu hterm, survivors_state, if_pos (hid.symm.trans (terminates_id hterm))]

theorem next_homed (h : Tables m) (a : Action) (i : Fin kMaxThreads)
    (hi' : ((m.step a).sched.threads i).state ≠ .empty) :
    HasProcess (m.step a).sched ((m.step a).sched.threads i).processId := by
  have hused : Live m.sched i → (m.sched.threads i).state ≠ .empty := fun hlive => hlive.elim id (h.onCpu i)
  rcases (h.wf.effect a).slots with ⟨-, hkept⟩ | ⟨j, hj, hkept⟩
  · exact h.home_stays (hused ((hkept i).live (Or.inl hi'))) hi'
  · by_cases hij : i = j
    · rw [hij]
      exact created_home hj
    · exact h.home_stays (hused ((hkept i hij).live (Or.inl hi'))) hi'

theorem onProcessor (h : Tables m) : OnProcessor m := ⟨h.wf, h.onCpu, h.leaving⟩

theorem step (h : Tables m) (hspare : SparesOwn m a) (hwrap : NotWrapped m a) : Tables (m.step a) where
  wf      := h.wf.step a
  ids     := h.next_ids hwrap
  homed   := h.next_homed a
  running := h.next_running (h.wf.effect a)
  onCpu   := h.onProcessor.next_onCpu fun _ => hspare
  leaving := h.onProcessor.next_leaving a

end Tables

theorem boot_used (heap : { h : KernelHeap // h.InBlock }) (i : Fin kMaxThreads)
    (hi : ((Machine.boot heap).sched.threads i).state ≠ .empty) : i = 0 := by
  by_contra hne
  exact hi (by rw [boot_threads heap i hne])

theorem onProcessor_boot (heap : { h : KernelHeap // h.InBlock }) : OnProcessor (Machine.boot heap) := by
  refine ⟨wf_boot heap, fun c hc => ?_, fun c hc hfin => ?_⟩
  · obtain rfl : 0 = c := Option.some.inj hc
    exact fun hempty => absurd (show ThreadState.running = .empty from hempty) (by decide)
  · obtain rfl : 0 = c := Option.some.inj hc
    exact absurd (show ThreadState.running = .finished from hfin) (by decide)

theorem tables_boot (heap : { h : KernelHeap // h.InBlock }) : Tables (Machine.boot heap) where
  wf      := wf_boot heap
  ids     := (registered_init heap.val).ids
  homed   := by
    intro i hi
    rw [boot_used heap i hi]
    exact ⟨0, rfl, rfl⟩
  running := by
    intro i hi
    rw [boot_used heap i (by rw [hi]; decide)]
    rfl
  onCpu   := (onProcessor_boot heap).onCpu
  leaving := (onProcessor_boot heap).leaving

/-- **The tables stay in order.** In every run after boot in which no thread ends its own process and no process
    is created once the counter of ids has come round to 0, in every state: threads in use have ids of their
    own, active processes have ids of their own, the process of every thread is there, and only the current
    thread is Running. -/
theorem tables_ok (heap : { h : KernelHeap // h.InBlock }) (as : List Action)
    (hsafe : Lib.Along Machine.step (fun m a => SparesOwn m a ∧ NotWrapped m a) (Machine.boot heap) as) :
    Lib.Throughout Machine.step (fun m => TablesOk m.sched) (Machine.boot heap) as := by
  have hall : Lib.Throughout Machine.step Tables (Machine.boot heap) as :=
    Lib.throughout_of_along (fun _ _ h hs => h.step hs.1 hs.2) (tables_boot heap) hsafe
  exact hall.mono fun _ h => h.ok

/-- A process is created, gets a thread that runs and sleeps, and is ended by the kernel's thread. -/
theorem tables_ok_example :
    Lib.Throughout Machine.step (fun m => TablesOk m.sched) (Machine.boot heapAt2MiB)
      [.call (.createProcess none), .call (.createThread 2 none 1 0), .call .schedulerYield, .run, .run,
        .call (.threadSleep 5), .run, .run, .call (.terminateProcess 2 0)] := by
  apply tables_ok
  refine ⟨⟨trivial, ?_⟩, ⟨trivial, ?_⟩, ⟨trivial, ?_⟩, ⟨trivial, trivial⟩, ⟨trivial, trivial⟩,
    ⟨trivial, ?_⟩, ⟨trivial, trivial⟩, ⟨trivial, trivial⟩, ⟨?_, ?_⟩, trivial⟩
  · exact fun _ => show (2 : UInt64) ≠ 0 by decide
  · exact fun h => absurd h (by decide)
  · exact fun h => absurd h (by decide)
  · exact fun h => absurd h (by decide)
  · right
    decide +kernel
  · exact fun h => absurd h (by decide)

/-! ## A run in which the ids come round -/

/-- The call of the machine. -/
def IpcCall.toCall : IpcCall → Call
  | .createProcess name                => .createProcess name
  | .forkProcess parent                => .forkProcess parent
  | .execProcess id name entry argument => .execProcess id name entry argument
  | .terminateProcess id exitCode      => .terminateProcess id exitCode
  | .ipcSend id value                  => .ipcSend id value
  | .ipcReceive id                     => .ipcReceive id

section Wrap

variable {m : Machine}

/-- A call of the machine that works on processes is the call of `Scheduler.Ipc`. -/
theorem step_ipcCall (hu : m.control = .user) (c : IpcCall) :
    (m.step (.call c.toCall)).sched = c.step m.sched ∧ (m.step (.call c.toCall)).control = .user := by
  rw [step_call hu]
  cases c with
  | _ => exact ⟨rfl, rfl⟩

/-- The machine in user code of the kernel's thread, with the kernel's process alone. -/
structure Idle (n : Nat) (m : Machine) : Prop where
  user    : m.control = .user
  current : m.sched.currentThread = some 0
  process : (m.sched.threads 0).processId = 1
  lone    : Lone n m.sched

theorem Idle.currentProcessId {n : Nat} (h : Idle n m) : m.sched.currentProcessId = 1 := by
  unfold State.currentProcessId
  rw [h.current]
  exact h.process

/-- The calls of one round. -/
def roundActions (n : Nat) : List Action :=
  [.call (.createProcess none), .call (.terminateProcess (UInt64.ofNat n) 0)]

/-- `n` rounds, the first with the id 2. -/
def wrapActions : Nat → List Action
  | 0     => []
  | n + 1 => wrapActions n ++ roundActions (n + 2)

/-- A process comes and goes; the kernel's thread does not end its own process. -/
theorem Idle.round {n : Nat} (h : Idle n m) (hne : UInt64.ofNat n ≠ 1) :
    Idle (n + 1) (Lib.run Machine.step m (roundActions n)) ∧
      Lib.Along Machine.step SparesOwn m (roundActions n) := by
  have hround := h.lone.round hne 0
  obtain ⟨hsched, huser⟩ := step_ipcCall h.user (.createProcess none)
  have hquiet := quiet_createProcess m.sched none
  have hstep : IpcCall.step m.sched (.createProcess none) = (kernelCreateProcess m.sched none).2 := rfl
  rw [Lib.run_cons, Lib.run_cons, Lib.run_nil] at hround
  rw [← hsched] at hround
  rw [← hstep, ← hsched] at hquiet
  generalize hm₁ : m.step (.call (IpcCall.toCall (.createProcess none))) = m₁ at hsched huser hround hquiet
  obtain ⟨hsched₂, huser₂⟩ := step_ipcCall huser (.terminateProcess (UInt64.ofNat n) 0)
  have hcur₁ : m₁.sched.currentThread = some 0 := by
    obtain ⟨p, x, e, f, hq⟩ := hquiet
    rw [hq]
    exact h.current
  have hproc₁ : (m₁.sched.threads 0).processId = 1 := by
    obtain ⟨p, x, e, f, hq⟩ := hquiet
    rw [hq]
    exact h.process
  have hown : m₁.sched.currentProcessId ≠ UInt64.ofNat n := by
    unfold State.currentProcessId
    rw [hcur₁]
    show (m₁.sched.threads 0).processId ≠ UInt64.ofNat n
    rw [hproc₁]
    exact hne.symm
  have hrun : Lib.run Machine.step m (roundActions n)
      = m₁.step (.call (IpcCall.toCall (.terminateProcess (UInt64.ofNat n) 0))) := by rw [← hm₁]; rfl
  have halong : Lib.Along Machine.step SparesOwn m (roundActions n) := by
    refine ⟨trivial, ?_, trivial⟩
    have hm₁' : m.step (.call (.createProcess none)) = m₁ := hm₁
    rw [hm₁']
    exact Or.inr hown
  refine ⟨?_, halong⟩
  rw [hrun]
  refine ⟨huser₂, ?_, ?_, ?_⟩
  · rw [hsched₂]
    show (kernelTerminateProcess m₁.sched (UInt64.ofNat n)).2.currentThread = _
    unfold kernelTerminateProcess
    split
    · exact hcur₁
    · exact hcur₁
  · rw [hsched₂]
    show ((kernelTerminateProcess m₁.sched (UInt64.ofNat n)).2.threads 0).processId = _
    unfold kernelTerminateProcess
    split
    · exact hproc₁
    · -- thread 0 is of process 1
      show (m₁.sched.survivors (UInt64.ofNat n) 0).processId = 1
      rw [State.survivors, if_neg fun hp => hne (hp.2.symm.trans hproc₁)]
      exact hproc₁
  · rw [hsched₂]
    exact hround

theorem Idle.rounds (h : Idle 2 m) (n : Nat) (hn : n < 2 ^ 64) :
    Idle (n + 2) (Lib.run Machine.step m (wrapActions n)) ∧
      Lib.Along Machine.step SparesOwn m (wrapActions n) := by
  induction n with
  | zero => exact ⟨h, trivial⟩
  | succ n ih =>
      obtain ⟨hidle, halong⟩ := ih (by omega)
      have hne : UInt64.ofNat (n + 2) ≠ 1 := by
        intro hone
        have hval := congrArg UInt64.toNat hone
        rw [UInt64.toNat_ofNat'] at hval
        have : (1 : UInt64).toNat = 1 := rfl
        omega
      obtain ⟨hnext, hround⟩ := hidle.round hne
      rw [wrapActions, Lib.run_append]
      exact ⟨hnext, halong.append hround⟩

theorem idle_boot (heap : { h : KernelHeap // h.InBlock }) :
    Idle 2 ((Machine.boot heap).step (.call (.ipcSend 1 5))) := by
  obtain ⟨hsched, huser⟩ := step_ipcCall (m := Machine.boot heap) rfl (.ipcSend 1 5)
  have hquiet := quiet_ipcSend (kernelSchedulerInit { heap := heap.val }) 1 5
  refine ⟨huser, ?_, ?_, ?_⟩
  · obtain ⟨p, x, e, f, hq⟩ := hquiet
    show (kernelIpcSend (kernelSchedulerInit { heap := heap.val }) 1 5).2.currentThread = _
    rw [hq]
    rfl
  · obtain ⟨p, x, e, f, hq⟩ := hquiet
    show ((kernelIpcSend (kernelSchedulerInit { heap := heap.val }) 1 5).2.threads 0).processId = _
    rw [hq]
    rfl
  · exact lone_send heap.val

/-- A process that gets the kernel's id is a second process 1. -/
theorem Idle.not_tablesOk {n : Nat} (h : Idle n m) (hn : UInt64.ofNat n = 1) :
    ¬ TablesOk (m.step (.call (.createProcess none))).sched := by
  intro hok
  obtain ⟨hsched, -⟩ := step_ipcCall h.user (.createProcess none)
  obtain ⟨hproc, -⟩ := h.lone.createProcess none
  have hstep : (m.step (.call (.createProcess none))).sched = IpcCall.step m.sched (.createProcess none) :=
    hsched
  rw [hstep] at hok
  have hzero : (IpcCall.step m.sched (.createProcess none)).processes 0 = m.sched.processes 0 := by
    rw [hproc, Function.update_of_ne (by decide)]
  have hone : (IpcCall.step m.sched (.createProcess none)).processes 1
      = { id := UInt64.ofNat n, name := none, active := true } := by
    rw [hproc, Function.update_self]
  have heq : (0 : Fin kMaxProcesses) = 1 := by
    apply hok.processIds
    · rw [hzero]
      exact h.lone.active
    · rw [hone]
    · rw [hzero, hone, h.lone.id, hn]
  exact absurd heq (by decide)

/-- No thread ends its own process, and yet two active processes get one id. -/
theorem ids_come_round {n : Nat} (hn : n < 2 ^ 64) (hone : UInt64.ofNat (n + 2) = 1)
    (heap : { h : KernelHeap // h.InBlock }) :
    Lib.Along Machine.step SparesOwn (Machine.boot heap)
        (.call (.ipcSend 1 5) :: (wrapActions n ++ [.call (.createProcess none)])) ∧
      ¬ Lib.Throughout Machine.step (fun m => TablesOk m.sched) (Machine.boot heap)
        (.call (.ipcSend 1 5) :: (wrapActions n ++ [.call (.createProcess none)])) := by
  obtain ⟨hidle, halong⟩ := (idle_boot heap).rounds n hn
  refine ⟨⟨trivial, halong.append ⟨trivial, trivial⟩⟩, fun hall => ?_⟩
  have hlast := hall.last
  rw [Lib.run_cons, Lib.run_append] at hlast
  exact hidle.not_tablesOk hone hlast

/-- `2 ^ 64 - 1` processes come and go, and the next one gets the id 1 of the kernel's process. -/
theorem process_ids_come_round :
    Lib.Along Machine.step SparesOwn (Machine.boot heapAt2MiB)
        (.call (.ipcSend 1 5) :: (wrapActions (2 ^ 64 - 1) ++ [.call (.createProcess none)])) ∧
      ¬ Lib.Throughout Machine.step (fun m => TablesOk m.sched) (Machine.boot heapAt2MiB)
        (.call (.ipcSend 1 5) :: (wrapActions (2 ^ 64 - 1) ++ [.call (.createProcess none)])) :=
  ids_come_round (by decide) (by decide) heapAt2MiB

end Wrap

end Scheduler
end UefiBoot
