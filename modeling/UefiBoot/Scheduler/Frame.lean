import UefiBoot.Scheduler.Machine

/-!
# `Scheduler.Frame` — what the functions of the scheduler leave alone

The process table and the table of event objects are each written by a few functions only. `SameProcesses` and
`SameEvents` say that a change of the state left one of them and its counter alone. `Aside` says that it left
both, and created no thread: this is so of everything that schedules, blocks, wakes, locks or joins.

`call_events` and `call_processes` read it off every call, `step_aside` off every step that is not a call.
-/

namespace UefiBoot
namespace Scheduler

/-- The event objects and the next descriptor are untouched. -/
structure SameEvents (s s' : State) : Prop where
  eventObjects : s'.eventObjects = s.eventObjects
  nextEventFd  : s'.nextEventFd = s.nextEventFd

/-- The processes and the next process id are untouched. -/
structure SameProcesses (s s' : State) : Prop where
  processes     : s'.processes = s.processes
  nextProcessId : s'.nextProcessId = s.nextProcessId

/-- Neither table is touched, and no thread is created. -/
structure Aside (s s' : State) : Prop extends SameEvents s s', SameProcesses s s' where
  nextThreadId : s'.nextThreadId = s.nextThreadId

section Relations

variable {s t u : State}

theorem SameEvents.refl (s : State) : SameEvents s s := ⟨rfl, rfl⟩

theorem SameEvents.trans (h : SameEvents s t) (h' : SameEvents t u) : SameEvents s u :=
  ⟨h'.eventObjects.trans h.eventObjects, h'.nextEventFd.trans h.nextEventFd⟩

theorem SameProcesses.refl (s : State) : SameProcesses s s := ⟨rfl, rfl⟩

theorem SameProcesses.trans (h : SameProcesses s t) (h' : SameProcesses t u) : SameProcesses s u :=
  ⟨h'.processes.trans h.processes, h'.nextProcessId.trans h.nextProcessId⟩

theorem Aside.refl (s : State) : Aside s s := ⟨.refl s, .refl s, rfl⟩

theorem Aside.trans (h : Aside s t) (h' : Aside t u) : Aside s u :=
  ⟨h.toSameEvents.trans h'.toSameEvents, h.toSameProcesses.trans h'.toSameProcesses,
    h'.nextThreadId.trans h.nextThreadId⟩

end Relations

/-! ## One write -/

section Writes

variable (s : State)

theorem aside_setThread (i : Fin kMaxThreads) (t : Thread) : Aside s (s.setThread i t) :=
  ⟨⟨rfl, rfl⟩, ⟨rfl, rfl⟩, rfl⟩

theorem aside_setMutex (i : Fin kMaxMutexes) (x : KernelMutex) : Aside s (s.setMutex i x) :=
  ⟨⟨rfl, rfl⟩, ⟨rfl, rfl⟩, rfl⟩

theorem aside_setFutex (i : Fin kMaxFutexes) (q : FutexWaitQueue) : Aside s (s.setFutex i q) :=
  ⟨⟨rfl, rfl⟩, ⟨rfl, rfl⟩, rfl⟩

theorem sameEvents_setProcess (i : Fin kMaxProcesses) (p : Process) : SameEvents s (s.setProcess i p) :=
  ⟨rfl, rfl⟩

theorem sameProcesses_setEventObject (i : Fin kMaxEventObjects) (o : EventObject) :
    SameProcesses s (s.setEventObject i o) := ⟨rfl, rfl⟩

end Writes

/-! ## Scheduling -/

section Scheduling

variable (s : State)

theorem aside_wakeSleepers : Aside s s.wakeSleepers := ⟨⟨rfl, rfl⟩, ⟨rfl, rfl⟩, rfl⟩

theorem aside_deliverSignals (i : Fin kMaxThreads) : Aside s (deliverSignals s i) :=
  ⟨⟨rfl, rfl⟩, ⟨rfl, rfl⟩, rfl⟩

theorem aside_timerTick : Aside s (kernelSchedulerTimerTick s) := ⟨⟨rfl, rfl⟩, ⟨rfl, rfl⟩, rfl⟩

theorem aside_findNextRunnable : Aside s (findNextRunnable s).2 := by
  unfold findNextRunnable
  split
  · exact Aside.refl s
  · exact aside_wakeSleepers s

theorem aside_yieldPrologue : Aside s (yieldPrologue s) := by
  unfold yieldPrologue
  dsimp only
  split
  · exact ⟨⟨rfl, rfl⟩, ⟨rfl, rfl⟩, rfl⟩
  · exact ⟨⟨rfl, rfl⟩, ⟨rfl, rfl⟩, rfl⟩

theorem aside_yieldReturn : Aside s (yieldReturn s) := by
  unfold yieldReturn
  split
  · exact Aside.refl s
  · split
    · exact aside_setThread s _ _
    · exact Aside.refl s

theorem aside_yieldSwitch (previous next : Fin kMaxThreads) (rest : Continuation) :
    Aside s (yieldSwitch s previous next rest) := by
  unfold yieldSwitch
  dsimp only
  split
  · exact ⟨⟨rfl, rfl⟩, ⟨rfl, rfl⟩, rfl⟩
  · exact ⟨⟨rfl, rfl⟩, ⟨rfl, rfl⟩, rfl⟩

theorem aside_schedulerYield (rest : Continuation) : Aside s (kernelSchedulerYield s rest).2 := by
  have hnext : Aside s (findNextRunnable (yieldPrologue s)).2 :=
    (aside_yieldPrologue s).trans (aside_findNextRunnable _)
  unfold kernelSchedulerYield
  dsimp only
  split
  · split
    · exact hnext.trans (aside_yieldReturn _)
    · exact hnext.trans (aside_yieldSwitch _ _ _ _)
  · exact hnext.trans (aside_yieldReturn _)

end Scheduling

/-! ## Threads -/

section Threads

variable (s : State)

theorem sameEvents_createThread (pid : UInt64) (name : Option String) (entry argument : UInt64) :
    SameEvents s (kernelCreateThread s pid name entry argument).2 := by
  unfold kernelCreateThread
  split
  · exact SameEvents.refl s
  · split
    · exact SameEvents.refl s
    · dsimp only
      split
      · exact ⟨rfl, rfl⟩
      · exact ⟨rfl, rfl⟩

theorem sameProcesses_createThread (pid : UInt64) (name : Option String) (entry argument : UInt64) :
    SameProcesses s (kernelCreateThread s pid name entry argument).2 := by
  unfold kernelCreateThread
  split
  · exact SameProcesses.refl s
  · split
    · exact SameProcesses.refl s
    · dsimp only
      split
      · exact ⟨rfl, rfl⟩
      · exact ⟨rfl, rfl⟩

theorem aside_setThreadPriority (id : UInt64) (priority : UInt8) :
    Aside s (kernelSetThreadPriority s id priority).2 := by
  unfold kernelSetThreadPriority
  split
  · exact Aside.refl s
  · split
    · exact Aside.refl s
    · exact aside_setThread s _ _

theorem aside_threadSleep (ticks : UInt64) : Aside s (kernelThreadSleep s ticks).2 := by
  unfold kernelThreadSleep
  split
  · exact Aside.refl s
  · split
    · exact Aside.refl s
    · exact aside_setThread s _ _

theorem aside_sendSignal (id : UInt64) (signal : UInt32) : Aside s (kernelSendSignal s id signal).2 := by
  unfold kernelSendSignal
  split
  · exact Aside.refl s
  · split
    · exact Aside.refl s
    · exact aside_setThread s _ _

theorem aside_pthreadJoinLoop (caller id : UInt64) (thread : Fin kMaxThreads) :
    Aside s (pthreadJoinLoop s caller id thread).2 := by
  unfold pthreadJoinLoop
  split
  · exact Aside.refl s
  · exact aside_setThread s _ _

theorem aside_pthreadJoin (id : UInt64) : Aside s (kernelPthreadJoin s id).2 := by
  unfold kernelPthreadJoin
  split
  · exact Aside.refl s
  · split
    · exact Aside.refl s
    · exact aside_pthreadJoinLoop s _ _ _

end Threads

/-! ## Futexes and mutexes -/

section Sync

variable (s : State)

theorem aside_futexWait (address : UInt64) (expected observed : UInt32) :
    Aside s (kernelFutexWait s address expected observed).2 := by
  unfold kernelFutexWait
  split
  · exact Aside.refl s
  · split
    · exact Aside.refl s
    · split
      · exact Aside.refl s
      · split
        · exact Aside.refl s
        · exact (aside_setFutex s _ _).trans (aside_setThread _ _ _)

theorem aside_futexWakeLoop (count : UInt32) (l : List UInt64) (woken : UInt32) :
    Aside s (futexWakeLoop count l woken s).2 := by
  fun_induction futexWakeLoop count l woken s with
  | case1 woken s => exact Aside.refl s
  | case2 id rest woken s hlt j hfind hblocked ih => exact (aside_setThread s _ _).trans ih
  | case3 id rest woken s hlt j hfind hnot ih => exact ih
  | case4 id rest woken s hlt hfind ih => exact ih
  | case5 id rest woken s hlt => exact Aside.refl s

theorem aside_futexWake (address : UInt64) (count : UInt32) :
    Aside s (kernelFutexWake s address count).2 := by
  unfold kernelFutexWake
  split
  · exact Aside.refl s
  · split
    · exact Aside.refl s
    · exact (aside_futexWakeLoop s _ _ _).trans (aside_setFutex _ _ _)

theorem aside_mutexCreate : Aside s (kernelMutexCreate s).2 := by
  unfold kernelMutexCreate
  split
  · exact ⟨⟨rfl, rfl⟩, ⟨rfl, rfl⟩, rfl⟩
  · exact Aside.refl s

theorem aside_mutexLock (id : UInt64) : Aside s (kernelMutexLock s id).2 := by
  unfold kernelMutexLock
  split
  · split
    · exact aside_setMutex s _ _
    · split
      · exact Aside.refl s
      · exact aside_setThread s _ _
  · exact Aside.refl s

theorem aside_mutexUnlock (id : UInt64) : Aside s (kernelMutexUnlock s id).2 := by
  unfold kernelMutexUnlock
  split
  · split
    · exact Aside.refl s
    · split
      · exact (aside_setThread s _ _).trans (aside_setMutex _ _ _)
      · exact aside_setMutex s _ _
  · exact Aside.refl s

end Sync

/-! ## Processes and messages -/

section Processes

variable (s : State)

theorem sameEvents_createProcess (name : Option String) : SameEvents s (kernelCreateProcess s name).2 := by
  unfold kernelCreateProcess
  split
  · exact ⟨rfl, rfl⟩
  · exact SameEvents.refl s

theorem sameEvents_terminateProcess (pid : UInt64) : SameEvents s (kernelTerminateProcess s pid).2 := by
  unfold kernelTerminateProcess
  split
  · exact SameEvents.refl s
  · exact ⟨rfl, rfl⟩

theorem sameEvents_forkProcess (pid : UInt64) : SameEvents s (kernelForkProcess s pid).2 := by
  unfold kernelForkProcess
  split
  · exact SameEvents.refl s
  · dsimp only
    split
    · exact sameEvents_createProcess s _
    · exact (sameEvents_createProcess s _).trans (sameEvents_setProcess _ _ _)

theorem sameEvents_execProcess (pid : UInt64) (name : Option String) (entry argument : UInt64) :
    SameEvents s (kernelExecProcess s pid name entry argument).2 := by
  unfold kernelExecProcess
  split
  · exact SameEvents.refl s
  · split
    · exact SameEvents.refl s
    · exact (sameEvents_setProcess s _ _).trans (sameEvents_createThread _ _ _ _ _)

theorem sameEvents_ipcSend (pid v : UInt64) : SameEvents s (kernelIpcSend s pid v).2 := by
  unfold kernelIpcSend
  split
  · exact SameEvents.refl s
  · dsimp only
    split
    · exact SameEvents.refl s
    · exact sameEvents_setProcess s _ _

theorem sameEvents_ipcReceive (pid : UInt64) : SameEvents s (kernelIpcReceive s pid).2 := by
  unfold kernelIpcReceive
  split
  · exact SameEvents.refl s
  · dsimp only
    split
    · exact SameEvents.refl s
    · exact sameEvents_setProcess s _ _

end Processes

/-! ## Event objects -/

section Events

variable (s : State)

theorem sameProcesses_allocateEventObject (type : EventObjectType) :
    SameProcesses s (allocateEventObject s type).2 := by
  unfold allocateEventObject
  split
  · exact SameProcesses.refl s
  · exact ⟨rfl, rfl⟩

theorem sameProcesses_eventReady (i : Fin kMaxEventObjects) : SameProcesses s (eventReady s i).2 :=
  sameProcesses_setEventObject s i _

theorem sameProcesses_epollPoll (capacity : Nat) (acc : List Int32 × State) (fd : Int32) :
    SameProcesses acc.2 (epollPoll capacity acc fd).2 := by
  unfold epollPoll
  split
  · exact SameProcesses.refl _
  · split
    · exact SameProcesses.refl _
    · exact sameProcesses_eventReady _ _

theorem sameProcesses_epollPolls (capacity : Nat) (l : List Int32) (acc : List Int32 × State) :
    SameProcesses acc.2 (l.foldl (epollPoll capacity) acc).2 := by
  induction l generalizing acc with
  | nil => exact SameProcesses.refl _
  | cons fd l ih => exact (sameProcesses_epollPoll capacity acc fd).trans (ih _)

theorem sameProcesses_epollWait (fd : Int32) (buffer : Bool) (capacity : UInt32) :
    SameProcesses s (kernelEpollWait s fd buffer capacity).2 := by
  unfold kernelEpollWait
  split
  · exact SameProcesses.refl s
  · split
    · exact SameProcesses.refl s
    · exact sameProcesses_epollPolls _ _ ([], s)

theorem sameProcesses_epollAdd (fd watched : Int32) : SameProcesses s (kernelEpollAdd s fd watched).2 := by
  unfold kernelEpollAdd
  split
  · exact SameProcesses.refl s
  · split
    · exact SameProcesses.refl s
    · exact sameProcesses_setEventObject s _ _

theorem sameProcesses_eventFd (v : UInt64) : SameProcesses s (kernelEventFd s v).2 := by
  have halloc := sameProcesses_allocateEventObject s .event
  unfold kernelEventFd
  split
  · rename_i heq
    rw [heq] at halloc
    exact halloc.trans (sameProcesses_setEventObject _ _ _)
  · rename_i heq
    rw [heq] at halloc
    exact halloc

theorem sameProcesses_eventFdWrite (fd : Int32) (v : UInt64) :
    SameProcesses s (kernelEventFdWrite s fd v).2 := by
  unfold kernelEventFdWrite
  split
  · exact SameProcesses.refl s
  · dsimp only
    split
    · exact SameProcesses.refl s
    · exact sameProcesses_setEventObject s _ _

theorem sameProcesses_eventFdRead (fd : Int32) : SameProcesses s (kernelEventFdRead s fd).2 := by
  unfold kernelEventFdRead
  split
  · exact SameProcesses.refl s
  · dsimp only
    split
    · exact SameProcesses.refl s
    · exact sameProcesses_setEventObject s _ _

theorem sameProcesses_timerFd (initial interval : UInt64) :
    SameProcesses s (kernelTimerFd s initial interval).2 := by
  have halloc := sameProcesses_allocateEventObject s .timer
  unfold kernelTimerFd
  split
  · exact SameProcesses.refl s
  · split
    · rename_i heq
      rw [heq] at halloc
      exact halloc.trans (sameProcesses_setEventObject _ _ _)
    · rename_i heq
      rw [heq] at halloc
      exact halloc

theorem sameProcesses_timerFdRead (fd : Int32) : SameProcesses s (kernelTimerFdRead s fd).2 := by
  unfold kernelTimerFdRead
  split
  · exact SameProcesses.refl s
  · rename_i i _
    split
    · exact SameProcesses.refl s
    · dsimp only
      split
      · exact sameProcesses_eventReady s i
      · exact (sameProcesses_eventReady s i).trans (sameProcesses_setEventObject _ _ _)

end Events

/-! ## Calls and steps -/

/-- The calls that work on event objects. -/
def Call.onEvents : Call → Bool
  | .epollCreate | .epollAdd .. | .epollWait .. | .eventFd _ | .eventFdWrite .. | .eventFdRead _
  | .timerFd .. | .timerFdRead _ => true
  | _ => false

/-- The calls that work on processes. -/
def Call.onProcesses : Call → Bool
  | .createProcess _ | .terminateProcess .. | .forkProcess _ | .execProcess .. | .ipcSend ..
  | .ipcReceive _ => true
  | _ => false

variable {m : Machine}

/-- What `reply` leaves as the state is the state it is given. -/
theorem reply_sched {ρ : Type} (m : Machine) (c : Call) (result : ρ → Result) (r : Reply ρ × State) :
    (m.reply c result r).sched = r.2 := by
  obtain ⟨r, s⟩ := r
  cases r with
  | done r => rfl
  | yields rest => rfl

theorem call_events (c : Call) (hc : c.onEvents = false) : SameEvents m.sched (m.call c).sched := by
  cases c with
  | createProcess name => exact sameEvents_createProcess _ _
  | createThread pid name entry argument => exact sameEvents_createThread _ _ _ _ _
  | terminateProcess pid code => exact sameEvents_terminateProcess _ _
  | forkProcess pid => exact sameEvents_forkProcess _ _
  | execProcess pid name entry argument => exact sameEvents_execProcess _ _ _ _ _
  | cloneThread pid entry argument => exact sameEvents_createThread _ _ _ _ _
  | pthreadCreate pid entry argument => exact sameEvents_createThread _ _ _ _ _
  | pthreadJoin id =>
      unfold Machine.call
      rw [reply_sched]
      exact (aside_pthreadJoin _ _).toSameEvents
  | futexWait address expected observed =>
      unfold Machine.call
      rw [reply_sched]
      exact (aside_futexWait _ _ _ _).toSameEvents
  | futexWake address count => exact (aside_futexWake _ _ _).toSameEvents
  | epollCreate | epollAdd | epollWait | eventFd | eventFdWrite | eventFdRead | timerFd | timerFdRead =>
      exact absurd hc (by simp [Call.onEvents])
  | setThreadPriority id priority => exact (aside_setThreadPriority _ _ _).toSameEvents
  | threadSleep ticks =>
      unfold Machine.call
      rw [reply_sched]
      exact (aside_threadSleep _ _).toSameEvents
  | sendSignal id signal => exact (aside_sendSignal _ _ _).toSameEvents
  | ipcSend pid v => exact sameEvents_ipcSend _ _ _
  | ipcReceive pid => exact sameEvents_ipcReceive _ _
  | mutexCreate => exact (aside_mutexCreate _).toSameEvents
  | mutexLock id =>
      unfold Machine.call
      rw [reply_sched]
      exact (aside_mutexLock _ _).toSameEvents
  | mutexUnlock id => exact (aside_mutexUnlock _ _).toSameEvents
  | schedulerYield => exact SameEvents.refl _

theorem call_processes (c : Call) (hc : c.onProcesses = false) : SameProcesses m.sched (m.call c).sched := by
  cases c with
  | createProcess | terminateProcess | forkProcess | execProcess | ipcSend | ipcReceive =>
      exact absurd hc (by simp [Call.onProcesses])
  | createThread pid name entry argument => exact sameProcesses_createThread _ _ _ _ _
  | cloneThread pid entry argument => exact sameProcesses_createThread _ _ _ _ _
  | pthreadCreate pid entry argument => exact sameProcesses_createThread _ _ _ _ _
  | pthreadJoin id =>
      unfold Machine.call
      rw [reply_sched]
      exact (aside_pthreadJoin _ _).toSameProcesses
  | futexWait address expected observed =>
      unfold Machine.call
      rw [reply_sched]
      exact (aside_futexWait _ _ _ _).toSameProcesses
  | futexWake address count => exact (aside_futexWake _ _ _).toSameProcesses
  | epollCreate => exact sameProcesses_allocateEventObject _ _
  | epollAdd fd watched => exact sameProcesses_epollAdd _ _ _
  | epollWait fd buffer capacity => exact sameProcesses_epollWait _ _ _ _
  | eventFd v => exact sameProcesses_eventFd _ _
  | eventFdWrite fd v => exact sameProcesses_eventFdWrite _ _ _
  | eventFdRead fd => exact sameProcesses_eventFdRead _ _
  | timerFd initial interval => exact sameProcesses_timerFd _ _ _
  | timerFdRead fd => exact sameProcesses_timerFdRead _ _
  | setThreadPriority id priority => exact (aside_setThreadPriority _ _ _).toSameProcesses
  | threadSleep ticks =>
      unfold Machine.call
      rw [reply_sched]
      exact (aside_threadSleep _ _).toSameProcesses
  | sendSignal id signal => exact (aside_sendSignal _ _ _).toSameProcesses
  | mutexCreate => exact (aside_mutexCreate _).toSameProcesses
  | mutexLock id =>
      unfold Machine.call
      rw [reply_sched]
      exact (aside_mutexLock _ _).toSameProcesses
  | mutexUnlock id => exact (aside_mutexUnlock _ _).toSameProcesses
  | schedulerYield => exact SameProcesses.refl _

theorem aside_resume (rest : Continuation) : Aside m.sched (m.resume rest).sched := by
  cases rest with
  | trampoline =>
      unfold Machine.resume
      dsimp only
      split
      · exact Aside.refl _
      · split
        · exact Aside.refl _
        · exact aside_deliverSignals _ _
  | schedulerYield caller => exact Aside.refl _
  | threadSleep caller ticks => exact Aside.refl _
  | futexWait caller address expected => exact Aside.refl _
  | mutexLock caller id i => exact Aside.refl _
  | pthreadJoin caller id i =>
      unfold Machine.resume
      rw [reply_sched]
      exact aside_pthreadJoinLoop _ _ _ _
  | exited caller => exact Aside.refl _

theorem aside_exit : Aside m.sched m.exit.sched := by
  unfold Machine.exit
  split
  · exact Aside.refl _
  · split
    · exact Aside.refl _
    · exact aside_setThread _ _ _

/-- **A step is a call, or leaves both tables alone.** -/
theorem step_aside (a : Action) :
    (∃ c, m.control = .user ∧ a = .call c ∧ m.step a = m.call c) ∨ Aside m.sched (m.step a).sched := by
  unfold Machine.step
  split
  · exact Or.inr (Aside.refl _)
  · exact Or.inr (aside_timerTick _)
  · rename_i c hu
    exact Or.inl ⟨c, hu, rfl, rfl⟩
  · exact Or.inr aside_exit
  · exact Or.inr (aside_schedulerYield _ _)
  · exact Or.inr (aside_resume _)
  · exact Or.inr (Aside.refl _)

end Scheduler
end UefiBoot
