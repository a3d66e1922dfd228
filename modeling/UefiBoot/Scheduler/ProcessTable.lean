import UefiBoot.Scheduler.Frame
import UefiBoot.Scheduler.Slot
import UefiBoot.Scheduler.Ipc

/-!
# `Scheduler.ProcessTable` — what a step does to the process table

`ProcessStep` says what one step may do to the ids and flags of the processes: nothing, create one, or terminate
one. `created_home` is the link to the thread table: a thread that a step creates belongs to a process that is
active after the step.
-/

namespace UefiBoot
namespace Scheduler

/-! ## New threads -/

/-- The process a call creates a thread in. -/
def Call.creates : Call → Option UInt64
  | .createThread pid _ _ _ => some pid
  | .execProcess pid _ _ _  => some pid
  | .cloneThread pid _ _    => some pid
  | .pthreadCreate pid _ _  => some pid
  | _                       => none

section Creation

variable {m : Machine} {i : Fin kMaxThreads}

theorem quiet_nextThreadId {s s' : State} (h : Quiet s s') : s'.nextThreadId = s.nextThreadId := by
  obtain ⟨p, n, e, f, rfl⟩ := h
  rfl

/-- Only these calls take a thread id. -/
theorem call_nextThreadId (c : Call) (hc : c.creates = none) :
    (m.call c).sched.nextThreadId = m.sched.nextThreadId := by
  cases c with
  | createThread | execProcess | cloneThread | pthreadCreate => exact absurd hc (by simp [Call.creates])
  | createProcess name => exact quiet_nextThreadId (quiet_createProcess _ _)
  | terminateProcess pid code =>
      unfold Machine.call
      dsimp only [kernelTerminateProcess]
      split
      · rfl
      · rfl
  | forkProcess pid => exact quiet_nextThreadId (quiet_forkProcess _ _)
  | pthreadJoin id =>
      unfold Machine.call
      rw [reply_sched]
      exact (aside_pthreadJoin _ _).nextThreadId
  | futexWait address expected observed =>
      unfold Machine.call
      rw [reply_sched]
      exact (aside_futexWait _ _ _ _).nextThreadId
  | futexWake address count => exact (aside_futexWake _ _ _).nextThreadId
  | epollCreate => exact quiet_nextThreadId (quiet_allocateEventObject _ _)
  | epollAdd fd watched => exact quiet_nextThreadId (quiet_epollAdd _ _ _)
  | epollWait fd buffer capacity => exact quiet_nextThreadId (quiet_epollWait _ _ _ _)
  | eventFd v => exact quiet_nextThreadId (quiet_eventFd _ _)
  | eventFdWrite fd v => exact quiet_nextThreadId (quiet_eventFdWrite _ _ _)
  | eventFdRead fd => exact quiet_nextThreadId (quiet_eventFdRead _ _)
  | timerFd initial interval => exact quiet_nextThreadId (quiet_timerFd _ _ _)
  | timerFdRead fd => exact quiet_nextThreadId (quiet_timerFdRead _ _)
  | setThreadPriority id priority => exact (aside_setThreadPriority _ _ _).nextThreadId
  | threadSleep ticks =>
      unfold Machine.call
      rw [reply_sched]
      exact (aside_threadSleep _ _).nextThreadId
  | sendSignal id signal => exact (aside_sendSignal _ _ _).nextThreadId
  | ipcSend pid v => exact quiet_nextThreadId (quiet_ipcSend _ _ _)
  | ipcReceive pid => exact quiet_nextThreadId (quiet_ipcReceive _ _)
  | mutexCreate => exact (aside_mutexCreate _).nextThreadId
  | mutexLock id =>
      unfold Machine.call
      rw [reply_sched]
      exact (aside_mutexLock _ _).nextThreadId
  | mutexUnlock id => exact (aside_mutexUnlock _ _).nextThreadId
  | schedulerYield => rfl

/-- `s'` has an active process with this id. -/
def HasProcess (s : State) (pid : UInt64) : Prop :=
  ∃ k, (s.processes k).active = true ∧ (s.processes k).id = pid

/-- The slot `KernelCreateThread` fills is one of an active process. -/
theorem createThread_home (s : State) (pid : UInt64) (name : Option String) (entry argument : UInt64)
    (hempty : (s.threads i).state = .empty)
    (hfilled : ((kernelCreateThread s pid name entry argument).2.threads i).state ≠ .empty) :
    HasProcess (kernelCreateThread s pid name entry argument).2
      ((kernelCreateThread s pid name entry argument).2.threads i).processId := by
  revert hfilled
  unfold kernelCreateThread
  split
  · exact fun hfilled => absurd hempty hfilled
  · rename_i hok
    split
    · exact fun hfilled => absurd hempty hfilled
    · rename_i j _
      dsimp only
      split
      · exact fun hfilled => absurd hempty hfilled
      · have hhome : HasProcess s pid := by
          obtain ⟨k, hk⟩ := Option.ne_none_iff_exists'.mp fun hnone => hok (Or.inl hnone)
          exact ⟨k, State.findProcess_some hk⟩
        generalize hfresh : freshThread s.nextThreadId pid name entry argument
          (s.heap.allocate kThreadStackSize 16).1 = fresh
        have hpid : fresh.processId = pid := by rw [← hfresh]; rfl
        intro hfilled
        show HasProcess s (Function.update s.threads j fresh i).processId
        by_cases hij : i = j
        · rw [hij, Function.update_self, hpid]
          exact hhome
        · replace hfilled : (Function.update s.threads j fresh i).state ≠ .empty := hfilled
          rw [Function.update_of_ne hij] at hfilled
          exact absurd hempty hfilled

/-- **A step that creates a thread is a `KernelCreateThread`**, over the threads and the heap before it. -/
theorem created_by {a : Action} (h : Creates m (m.step a) i) : ∃ s pid name entry argument,
    s.threads = m.sched.threads ∧ s.heap = m.sched.heap ∧ s.nextThreadId = m.sched.nextThreadId ∧
      (m.step a).sched = (kernelCreateThread s pid name entry argument).2 := by
  have hgrown : (m.step a).sched.nextThreadId ≠ m.sched.nextThreadId := by
    rw [h.next]
    exact fun heq => by simp at heq
  rcases step_aside (m := m) a with ⟨c, -, -, hstep⟩ | haside
  · rw [hstep] at hgrown ⊢
    cases hc : c.creates with
    | none => exact absurd (call_nextThreadId c hc) hgrown
    | some pid =>
        cases c with
        | createThread p name entry argument => exact ⟨m.sched, p, name, entry, argument, rfl, rfl, rfl, rfl⟩
        | cloneThread p entry argument => exact ⟨m.sched, p, some "clone", entry, argument, rfl, rfl, rfl, rfl⟩
        | pthreadCreate p entry argument =>
            exact ⟨m.sched, p, some "pthread", entry, argument, rfl, rfl, rfl, rfl⟩
        | execProcess p name entry argument =>
            revert hgrown
            unfold Machine.call
            dsimp only [Machine.returns_sched]
            unfold kernelExecProcess
            split
            · exact fun hgrown => absurd rfl hgrown
            · split
              · exact fun hgrown => absurd rfl hgrown
              · exact fun _ => ⟨m.sched.setProcess _ _, p, name, entry, argument, rfl, rfl, rfl, rfl⟩
        | _ => simp [Call.creates] at hc
  · exact absurd haside.nextThreadId hgrown

/-- **A thread that a step creates belongs to an active process.** -/
theorem created_home {a : Action} (h : Creates m (m.step a) i) :
    HasProcess (m.step a).sched ((m.step a).sched.threads i).processId := by
  obtain ⟨s, pid, name, entry, argument, hthreads, -, -, hs⟩ := created_by h
  have hempty : (s.threads i).state = .empty := by
    rw [hthreads]
    exact h.empty
  have hfilled : ((m.step a).sched.threads i).state ≠ .empty := by
    rw [h.state]
    decide
  rw [hs] at hfilled ⊢
  exact createThread_home s pid name entry argument hempty hfilled

end Creation

/-! ## What a step does to the process table -/

/-- Process `k` keeps its id and its flag. -/
def SameProcess (s s' : State) (k : Fin kMaxProcesses) : Prop :=
  (s'.processes k).active = (s.processes k).active ∧ (s'.processes k).id = (s.processes k).id

/-- The calls that create a process. -/
def Call.createsProcess : Call → Bool
  | .createProcess _ | .forkProcess _ => true
  | _ => false

/-- **How the processes change**: not, or one is created, or one is terminated. -/
inductive ProcessStep (m : Machine) (s' : State) : Action → Prop where
  | kept {a : Action} (hnext : s'.nextProcessId = m.sched.nextProcessId)
      (hsame : ∀ k, SameProcess m.sched s' k) : ProcessStep m s' a
  | created {c : Call} {i : Fin kMaxProcesses} (hu : m.control = .user) (hc : c.createsProcess = true)
      (hactive : (s'.processes i).active = true) (hid : (s'.processes i).id = m.sched.nextProcessId)
      (hfree : (m.sched.processes i).active = false) (hsame : ∀ k, k ≠ i → SameProcess m.sched s' k)
      (hnext : s'.nextProcessId = m.sched.nextProcessId + 1) : ProcessStep m s' (.call c)
  | terminated {pid : UInt64} {code : Int32} {i : Fin kMaxProcesses} (hu : m.control = .user)
      (hterm : m.sched.terminates pid = some i) (hdead : (s'.processes i).active = false)
      (hsame : ∀ k, k ≠ i → SameProcess m.sched s' k)
      (hnext : s'.nextProcessId = m.sched.nextProcessId) :
      ProcessStep m s' (.call (.terminateProcess pid code))

section ProcessStep

variable {m : Machine} {s s' : State} {a : Action}

theorem SameProcess.refl (s : State) (k : Fin kMaxProcesses) : SameProcess s s k := ⟨rfl, rfl⟩

theorem SameProcesses.processStep (h : SameProcesses m.sched s') : ProcessStep m s' a :=
  .kept h.nextProcessId fun k => by
    unfold SameProcess
    rw [h.processes]
    exact ⟨rfl, rfl⟩

/-- A write to one record that keeps its id and flag. -/
theorem sameProcess_set {i : Fin kMaxProcesses} {p : Process} (hactive : p.active = (s.processes i).active)
    (hid : p.id = (s.processes i).id) (k : Fin kMaxProcesses) : SameProcess s (s.setProcess i p) k := by
  unfold SameProcess
  rw [State.setProcess_processes]
  by_cases hki : k = i
  · rw [hki, Function.update_self]
    exact ⟨hactive, hid⟩
  · rw [Function.update_of_ne hki]
    exact ⟨rfl, rfl⟩

/-- `KernelCreateProcess` fails, or gives a free slot the next id. -/
theorem createProcess_slot (s : State) (name : Option String) :
    kernelCreateProcess s name = (0, s) ∨ ∃ i, (s.processes i).active = false ∧
      kernelCreateProcess s name = (s.nextProcessId,
        { s.setProcess i { id := s.nextProcessId, name := name, active := true } with
          nextProcessId := s.nextProcessId + 1 }) := by
  unfold kernelCreateProcess
  split
  · rename_i i hi
    exact Or.inr ⟨i, by simpa using Lib.firstSlot_true hi, rfl⟩
  · exact Or.inl rfl

theorem processStep_createProcess (hu : m.control = .user) (name : Option String) :
    ProcessStep m (kernelCreateProcess m.sched name).2 (.call (.createProcess name)) := by
  rcases createProcess_slot m.sched name with h | ⟨i, hfree, h⟩
  · rw [h]
    exact .kept rfl (SameProcess.refl _)
  · rw [h]
    refine .created hu rfl ?_ ?_ hfree (fun k hk => ?_) rfl
    · show (Function.update m.sched.processes i _ i).active = true
      rw [Function.update_self]
    · show (Function.update m.sched.processes i _ i).id = _
      rw [Function.update_self]
    · show (Function.update m.sched.processes i _ k).active = _ ∧ (Function.update m.sched.processes i _ k).id = _
      rw [Function.update_of_ne hk]
      exact ⟨rfl, rfl⟩

/-- A write that keeps ids and flags, after a step. -/
theorem ProcessStep.trans {t : State} (h : ProcessStep m s' a) (hnext : t.nextProcessId = s'.nextProcessId)
    (hsame : ∀ k, SameProcess s' t k) : ProcessStep m t a := by
  have hthen : ∀ k, SameProcess m.sched s' k → SameProcess m.sched t k := fun k hk =>
    ⟨(hsame k).1.trans hk.1, (hsame k).2.trans hk.2⟩
  cases h with
  | kept hn hs => exact .kept (hnext.trans hn) fun k => hthen k (hs k)
  | created hu hc hactive hid hfree hs hn =>
      exact .created hu hc ((hsame _).1.trans hactive) ((hsame _).2.trans hid) hfree
        (fun k hk => hthen k (hs k hk)) (hnext.trans hn)
  | terminated hu hterm hdead hs hn =>
      exact .terminated hu hterm ((hsame _).1.trans hdead) (fun k hk => hthen k (hs k hk)) (hnext.trans hn)

/-- What creates a process in a call creates it in any other call that creates one. -/
theorem ProcessStep.of_create {c d : Call} (h : ProcessStep m s' (.call c)) (hc : c.createsProcess = true)
    (hd : d.createsProcess = true) : ProcessStep m s' (.call d) := by
  cases h with
  | kept hnext hsame => exact .kept hnext hsame
  | created hu _ hactive hid hfree hsame hnext => exact .created hu hd hactive hid hfree hsame hnext
  | terminated => exact absurd hc (by simp [Call.createsProcess])

theorem processStep_forkProcess (hu : m.control = .user) (parent : UInt64) :
    ProcessStep m (kernelForkProcess m.sched parent).2 (.call (.forkProcess parent)) := by
  unfold kernelForkProcess
  split
  · exact .kept rfl (SameProcess.refl _)
  · rename_i i hi
    have hcreate : ProcessStep m (kernelCreateProcess m.sched (m.sched.processes i).name).2
        (.call (.forkProcess parent)) := (processStep_createProcess hu _).of_create rfl rfl
    dsimp only
    split
    · exact hcreate
    · -- the child's queue is copied from the parent's
      exact hcreate.trans rfl fun k => sameProcess_set (by rfl) (by rfl) k

theorem processStep_terminateProcess (hu : m.control = .user) (pid : UInt64) (code : Int32) :
    ProcessStep m (kernelTerminateProcess m.sched pid).2 (.call (.terminateProcess pid code)) := by
  unfold kernelTerminateProcess
  split
  · exact .kept rfl (SameProcess.refl _)
  · rename_i i hterm
    refine .terminated hu hterm ?_ (fun k hk => ?_) rfl
    · show (Function.update m.sched.processes i _ i).active = false
      rw [Function.update_self]
    · show (Function.update m.sched.processes i _ k).active = _ ∧ (Function.update m.sched.processes i _ k).id = _
      rw [Function.update_of_ne hk]
      exact ⟨rfl, rfl⟩

theorem processStep_execProcess (pid : UInt64) (name : Option String) (entry argument : UInt64) :
    ProcessStep m (kernelExecProcess m.sched pid name entry argument).2 a := by
  unfold kernelExecProcess
  split
  · exact .kept rfl (SameProcess.refl _)
  · rename_i i hi
    split
    · exact .kept rfl (SameProcess.refl _)
    · have hcreate := sameProcesses_createThread (m.sched.setProcess i { m.sched.processes i with
        name := name, ipcHead := 0, ipcTail := 0, ipcCount := 0, ipcQueue := fun _ => 0 })
        pid name entry argument
      refine .kept hcreate.nextProcessId fun k => ?_
      have hset := sameProcess_set (s := m.sched) (i := i) (p := { m.sched.processes i with
        name := name, ipcHead := 0, ipcTail := 0, ipcCount := 0, ipcQueue := fun _ => 0 }) rfl rfl k
      unfold SameProcess at hset ⊢
      rw [← hcreate.processes] at hset
      exact hset

theorem processStep_ipcSend (pid v : UInt64) : ProcessStep m (kernelIpcSend m.sched pid v).2 a := by
  unfold kernelIpcSend
  split
  · exact .kept rfl (SameProcess.refl _)
  · dsimp only
    split
    · exact .kept rfl (SameProcess.refl _)
    · exact .kept rfl fun k => sameProcess_set (by rfl) (by rfl) k

theorem processStep_ipcReceive (pid : UInt64) : ProcessStep m (kernelIpcReceive m.sched pid).2 a := by
  unfold kernelIpcReceive
  split
  · exact .kept rfl (SameProcess.refl _)
  · dsimp only
    split
    · exact .kept rfl (SameProcess.refl _)
    · exact .kept rfl fun k => sameProcess_set (by rfl) (by rfl) k

/-- **Every step is one of these.** -/
theorem step_processes (m : Machine) (a : Action) : ProcessStep m (m.step a).sched a := by
  rcases step_aside (m := m) a with ⟨c, hu, rfl, hstep⟩ | haside
  · rw [hstep]
    cases hc : c.onProcesses with
    | false => exact (call_processes c hc).processStep
    | true =>
        cases c with
        | createProcess name => exact processStep_createProcess hu name
        | forkProcess parent => exact processStep_forkProcess hu parent
        | terminateProcess pid code => exact processStep_terminateProcess hu pid code
        | execProcess pid name entry argument => exact processStep_execProcess pid name entry argument
        | ipcSend pid v => exact processStep_ipcSend pid v
        | ipcReceive pid => exact processStep_ipcReceive pid
        | _ => simp [Call.onProcesses] at hc
  · exact haside.toSameProcesses.processStep

end ProcessStep

end Scheduler
end UefiBoot
