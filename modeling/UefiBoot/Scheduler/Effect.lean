import UefiBoot.Scheduler.Machine
import UefiBoot.Scheduler.Yield

/-!
# `Scheduler.Effect` — what one step of the system can do

`step_effect` says once and for all what a step changes: it is one of the cases of `Effect`, each with its
guard and the exact state it leads to. The thirty calls fall into few cases because most of them never touch
a thread, a mutex or a futex queue (`quiet`). Every invariant of the scheduler is proved by cases on
`Effect`, so none of them unfolds a function of the source again.
-/

namespace UefiBoot
namespace Scheduler

/-! ## Quiet changes -/

/-- `s` with new processes, event objects and counters of these: what the threads cannot see. -/
@[simps] def State.others (s : State) (p : Fin kMaxProcesses → Process) (n : UInt64)
    (e : Fin kMaxEventObjects → EventObject) (f : Int32) : State :=
  { s with processes := p, nextProcessId := n, eventObjects := e, nextEventFd := f }

/-- `s'` differs from `s` at most in processes and event objects. -/
def Quiet (s s' : State) : Prop := ∃ p n e f, s' = s.others p n e f

namespace Quiet

theorem refl (s : State) : Quiet s s := ⟨_, _, _, _, rfl⟩

theorem trans {s t u : State} (h : Quiet s t) (h' : Quiet t u) : Quiet s u := by
  obtain ⟨p, n, e, f, rfl⟩ := h
  obtain ⟨p', n', e', f', rfl⟩ := h'
  exact ⟨p', n', e', f', rfl⟩

theorem setProcess (s : State) (i : Fin kMaxProcesses) (p : Process) : Quiet s (s.setProcess i p) :=
  ⟨_, _, _, _, rfl⟩

theorem setEventObject (s : State) (i : Fin kMaxEventObjects) (o : EventObject) :
    Quiet s (s.setEventObject i o) := ⟨_, _, _, _, rfl⟩

end Quiet

theorem quiet_createProcess (s : State) (name : Option String) :
    Quiet s (kernelCreateProcess s name).2 := by
  unfold kernelCreateProcess
  split
  · exact ⟨_, _, _, _, rfl⟩
  · exact Quiet.refl s

theorem quiet_forkProcess (s : State) (pid : UInt64) : Quiet s (kernelForkProcess s pid).2 := by
  unfold kernelForkProcess
  split
  · exact Quiet.refl s
  · rename_i parent _
    dsimp only
    have hcreate := quiet_createProcess s (s.processes parent).name
    split
    · exact hcreate
    · exact hcreate.trans (Quiet.setProcess _ _ _)

theorem quiet_ipcSend (s : State) (pid v : UInt64) : Quiet s (kernelIpcSend s pid v).2 := by
  unfold kernelIpcSend
  split
  · exact Quiet.refl s
  · dsimp only
    split
    · exact Quiet.refl s
    · exact Quiet.setProcess _ _ _

theorem quiet_ipcReceive (s : State) (pid : UInt64) : Quiet s (kernelIpcReceive s pid).2 := by
  unfold kernelIpcReceive
  split
  · exact Quiet.refl s
  · dsimp only
    split
    · exact Quiet.refl s
    · exact Quiet.setProcess _ _ _

theorem quiet_allocateEventObject (s : State) (type : EventObjectType) :
    Quiet s (allocateEventObject s type).2 := by
  unfold allocateEventObject
  split
  · exact Quiet.refl s
  · exact ⟨_, _, _, _, rfl⟩

theorem quiet_eventReady (s : State) (i : Fin kMaxEventObjects) : Quiet s (eventReady s i).2 := by
  unfold eventReady
  exact Quiet.setEventObject s i _

theorem quiet_epollPoll (capacity : Nat) (acc : List Int32 × State) (fd : Int32) :
    Quiet acc.2 (epollPoll capacity acc fd).2 := by
  unfold epollPoll
  split
  · exact Quiet.refl _
  · split
    · exact Quiet.refl _
    · exact quiet_eventReady _ _

theorem quiet_epollPolls (capacity : Nat) (l : List Int32) (acc : List Int32 × State) :
    Quiet acc.2 (l.foldl (epollPoll capacity) acc).2 := by
  induction l generalizing acc with
  | nil => exact Quiet.refl _
  | cons fd l ih => exact (quiet_epollPoll capacity acc fd).trans (ih _)

theorem quiet_epollWait (s : State) (fd : Int32) (buffer : Bool) (capacity : UInt32) :
    Quiet s (kernelEpollWait s fd buffer capacity).2 := by
  unfold kernelEpollWait
  split
  · exact Quiet.refl s
  · split
    · exact Quiet.refl s
    · exact quiet_epollPolls _ _ ([], s)

theorem quiet_epollAdd (s : State) (fd watched : Int32) : Quiet s (kernelEpollAdd s fd watched).2 := by
  unfold kernelEpollAdd
  split
  · exact Quiet.refl s
  · split
    · exact Quiet.refl s
    · exact Quiet.setEventObject _ _ _

theorem quiet_eventFd (s : State) (v : UInt64) : Quiet s (kernelEventFd s v).2 := by
  have halloc := quiet_allocateEventObject s .event
  unfold kernelEventFd
  split
  · rename_i heq; rw [heq] at halloc
    exact halloc.trans (Quiet.setEventObject _ _ _)
  · rename_i heq; rw [heq] at halloc; exact halloc

theorem quiet_eventFdWrite (s : State) (fd : Int32) (v : UInt64) :
    Quiet s (kernelEventFdWrite s fd v).2 := by
  unfold kernelEventFdWrite
  split
  · exact Quiet.refl s
  · dsimp only
    split
    · exact Quiet.refl s
    · exact Quiet.setEventObject _ _ _

theorem quiet_eventFdRead (s : State) (fd : Int32) : Quiet s (kernelEventFdRead s fd).2 := by
  unfold kernelEventFdRead
  split
  · exact Quiet.refl s
  · dsimp only
    split
    · exact Quiet.refl s
    · exact Quiet.setEventObject _ _ _

theorem quiet_timerFd (s : State) (initial interval : UInt64) :
    Quiet s (kernelTimerFd s initial interval).2 := by
  have halloc := quiet_allocateEventObject s .timer
  unfold kernelTimerFd
  split
  · exact Quiet.refl s
  · split
    · rename_i heq; rw [heq] at halloc
      exact halloc.trans (Quiet.setEventObject _ _ _)
    · rename_i heq; rw [heq] at halloc; exact halloc

theorem quiet_timerFdRead (s : State) (fd : Int32) : Quiet s (kernelTimerFdRead s fd).2 := by
  unfold kernelTimerFdRead
  split
  · exact Quiet.refl s
  · rename_i i _
    split
    · exact Quiet.refl s
    · dsimp only
      split
      · exact quiet_eventReady s i
      · exact (quiet_eventReady s i).trans (Quiet.setEventObject _ _ _)

/-! ## The wake loop of `KernelFutexWake` -/

@[simp] theorem wokenThreads_nil (s : State) : s.wokenThreads [] = s.threads := by
  funext k; simp [State.wokenThreads]

/-- Popping `id` and then `popped` wakes the same threads as popping `id :: popped`. -/
theorem wokenThreads_cons {s : State} (hd : IdsDistinct s) {j : Fin kMaxThreads}
    (hj : (s.threads j).state = .blocked) (popped : List UInt64) :
    (s.setThread j { s.threads j with state := .ready }).wokenThreads popped
      = s.wokenThreads ((s.threads j).id :: popped) := by
  funext k
  unfold State.wokenThreads
  by_cases hk : k = j
  · subst hk
    simp [hj]
  · have hnot : ¬ ((s.threads k).state = .blocked ∧ (s.threads k).id = (s.threads j).id) := by
      rintro ⟨hb, hid⟩
      exact hk (hd k j (Or.inl (by simp [hb])) (Or.inl (by simp [hj])) hid)
    simp only [State.setThread_threads, Function.update_of_ne hk, List.mem_cons]
    by_cases hb : (s.threads k).state = .blocked
    · have hid : (s.threads k).id ≠ (s.threads j).id := fun h => hnot ⟨hb, h⟩
      simp [hb, hid]
    · simp [hb]

/-- Popping an id that no Blocked thread carries wakes nobody. -/
theorem wokenThreads_cons_of_not_blocked {s : State} {id : UInt64}
    (h : ∀ k, (s.threads k).state = .blocked → (s.threads k).id ≠ id) (popped : List UInt64) :
    s.wokenThreads popped = s.wokenThreads (id :: popped) := by
  funext k
  unfold State.wokenThreads
  by_cases hb : (s.threads k).state = .blocked
  · simp [hb, h k hb]
  · simp [hb]

theorem IdsDistinct.setState {s : State} (hd : IdsDistinct s) (j : Fin kMaxThreads)
    (hj : (s.threads j).state ≠ .empty) (state : ThreadState) :
    IdsDistinct (s.setThread j { s.threads j with state := state }) := by
  have hid : ∀ i, ((s.setThread j { s.threads j with state := state }).threads i).id
      = (s.threads i).id := by
    intro i
    by_cases hij : i = j <;> simp [hij]
  have hlive : ∀ i, Live (s.setThread j { s.threads j with state := state }) i → Live s i := by
    rintro i (hi | hi)
    · by_cases hij : i = j
      · subst hij; exact Or.inl hj
      · rw [State.setThread_threads, Function.update_of_ne hij] at hi; exact Or.inl hi
    · exact Or.inr hi
  intro i k hi hk h
  rw [hid, hid] at h
  exact hd i k (hlive i hi) (hlive k hk) h

/-- **The wake loop** pops a prefix of the queue and makes the Blocked threads on it Ready. -/
theorem futexWakeLoop_spec (count : UInt32) (l : List UInt64) (woken : UInt32) (s : State)
    (hd : IdsDistinct s) :
    ∃ popped, l = popped ++ (futexWakeLoop count l woken s).1.2 ∧
      (futexWakeLoop count l woken s).2 = { s with threads := s.wokenThreads popped } := by
  fun_induction futexWakeLoop count l woken s with
  | case1 woken s => exact ⟨[], rfl, by rw [wokenThreads_nil]⟩
  | case2 id rest woken s hlt j hfind hblocked ih =>
      -- the head is Blocked: it is made Ready
      obtain ⟨hne, hid⟩ := State.findThread_some hfind
      obtain ⟨popped, hl, hs⟩ := ih (hd.setState j hne .ready)
      refine ⟨id :: popped, by rw [List.cons_append, ← hl], ?_⟩
      rw [hs, wokenThreads_cons hd hblocked, hid]
      rfl
  | case3 id rest woken s hlt j hfind hnot ih =>
      -- the head is stale: its thread is not Blocked
      obtain ⟨hne, hid⟩ := State.findThread_some hfind
      obtain ⟨popped, hl, hs⟩ := ih hd
      refine ⟨id :: popped, by rw [List.cons_append, ← hl], ?_⟩
      rw [hs, wokenThreads_cons_of_not_blocked]
      intro k hk hkid
      have hkj : k = j :=
        hd k j (Or.inl (by simp [hk])) (Or.inl hne) (hkid.trans hid.symm)
      exact hnot (hkj ▸ hk)
  | case4 id rest woken s hlt hfind ih =>
      -- the head is stale: its thread is gone
      obtain ⟨popped, hl, hs⟩ := ih hd
      refine ⟨id :: popped, by rw [List.cons_append, ← hl], ?_⟩
      rw [hs, wokenThreads_cons_of_not_blocked]
      intro k hk hkid
      obtain ⟨i, hi⟩ := State.findThread_isSome (s := s) (j := k) (by simp [hk])
      rw [hkid, hfind] at hi; exact absurd hi (by simp)
  | case5 id rest woken s hlt => exact ⟨[], rfl, by rw [wokenThreads_nil]⟩

/-! ## The cases of a step -/

/-- The calls whose return value says who is inside a mutex. -/
def Call.locks : Call → Bool
  | .mutexLock _ | .mutexUnlock _ => true
  | _ => false

/-- The calls that return as soon as their `Yield` does, and what they return. -/
def Continuation.plainReturn : Continuation → Option (Call × Result)
  | .schedulerYield _               => some (.schedulerYield, .unit)
  | .threadSleep _ ticks            => some (.threadSleep ticks, .unit)
  | .futexWait _ address expected   => some (.futexWait address expected expected, .bool true)
  | _                               => none

/-- `m` is in `KernelPthreadJoin(id)`, about to test slot `i`: it was just called, or its `Yield` returned. -/
def JoinTests (m : Machine) (a : Action) (caller id : UInt64) (i : Fin kMaxThreads) : Prop :=
  (a = .call (.pthreadJoin id) ∧ m.control = .user ∧ caller = m.sched.currentId) ∨
    (a = .run ∧ m.control = .resuming (.pthreadJoin caller id i))

/-- The queue `KernelFutexWait` appends to: the one of its slot if active, else a new one. -/
def State.futexQueue (s : State) (i : Fin kMaxFutexes) (address : UInt64) : FutexWaitQueue :=
  if (s.futexes i).active then s.futexes i
  else { address := address, waitingThreads := [], active := true }

/-- **What one step does.** The index is the action, the last argument the state it leads to. -/
inductive Effect (m : Machine) : Action → Machine → Prop where
  | stutter {a : Action} : Effect m a m
  | tick : Effect m .tick { m with sched := kernelSchedulerTimerTick m.sched }
  | quiet {c : Call} {res : Result} {p n e f} (hu : m.control = .user)
      (hc : c.locks = false ∨ res = .bool false) :
      Effect m (.call c) (m.returns c res (m.sched.others p n e f))
  | created {c : Call} {res : Result} {i : Fin kMaxThreads} {pid entry argument stack : UInt64}
      {name : Option String} {heap : KernelHeap} {p n e f} (hu : m.control = .user)
      (hc : c.locks = false) (hempty : (m.sched.threads i).state = .empty) (hentry : entry ≠ 0)
      (hheap : heap.InBlock) (hgrow : m.sched.heap.mCurrent.toNat + 8192 ≤ heap.mCurrent.toNat) :
      Effect m (.call c) (m.returns c res
        { (m.sched.others p n e f).setThread i
            (freshThread m.sched.nextThreadId pid name entry argument stack) with
          heap := heap, nextThreadId := m.sched.nextThreadId + 1 })
  | terminated {pid : UInt64} {code : Int32} {k : Fin kMaxProcesses} {p} (hu : m.control = .user)
      (hterm : m.sched.terminates pid = some k) :
      Effect m (.call (.terminateProcess pid code)) (m.returns (.terminateProcess pid code) (.bool true)
        { m.sched with processes := p, threads := m.sched.survivors pid })
  | joined {a : Action} {caller id : UInt64} {i : Fin kMaxThreads} (ht : JoinTests m a caller id i)
      (hfin : (m.sched.threads i).state = .finished) :
      Effect m a (m.returns (.pthreadJoin id) (.bool true)
        (m.sched.setThread i { m.sched.threads i with state := .empty }))
  | joinWaits {a : Action} {caller id : UInt64} {i : Fin kMaxThreads} (ht : JoinTests m a caller id i)
      (hnot : (m.sched.threads i).state ≠ .finished) :
      Effect m a { m with control := .yielding (.pthreadJoin caller id i) }
  | prioritized {id : UInt64} {priority : UInt8} {j : Fin kMaxThreads} (hu : m.control = .user)
      (hfind : m.sched.findThread id = some j) :
      Effect m (.call (.setThreadPriority id priority))
        (m.returns (.setThreadPriority id priority) (.bool true)
          (m.sched.setThread j { m.sched.threads j with priority := priority }))
  | signalled {id : UInt64} {signal : UInt32} {j : Fin kMaxThreads} (hu : m.control = .user)
      (hsignal : signal < 32) (hfind : m.sched.findThread id = some j) :
      Effect m (.call (.sendSignal id signal)) (m.returns (.sendSignal id signal) (.bool true)
        (m.sched.setThread j ((m.sched.threads j).signalled signal)))
  | slept {ticks : UInt64} {c : Fin kMaxThreads} (hu : m.control = .user)
      (hcur : m.sched.currentThread = some c) (hticks : ticks ≠ 0) :
      Effect m (.call (.threadSleep ticks)) { m with
        sched := m.sched.setThread c { m.sched.threads c with
          wakeTick := m.sched.schedulerTick + ticks, state := .sleeping }
        control := .yielding (.threadSleep (m.sched.threads c).id ticks) }
  | futexBlocked {address : UInt64} {expected : UInt32} {c : Fin kMaxThreads} {i : Fin kMaxFutexes}
      (hu : m.control = .user) (hcur : m.sched.currentThread = some c) (haddr : address ≠ 0)
      (hslot : findFutexSlot m.sched address = some i) :
      Effect m (.call (.futexWait address expected expected)) { m with
        sched := (m.sched.setFutex i { m.sched.futexQueue i address with
            waitingThreads := (m.sched.futexQueue i address).waitingThreads ++ [(m.sched.threads c).id]
          }).setThread c { m.sched.threads c with state := .blocked }
        control := .yielding (.futexWait (m.sched.threads c).id address expected) }
  | futexWoken {address : UInt64} {count k : UInt32} {i : Fin kMaxFutexes} {popped left : List UInt64}
      (hu : m.control = .user) (haddr : address ≠ 0) (hfind : findFutex m.sched address = some i)
      (hsplit : (m.sched.futexes i).waitingThreads = popped ++ left) :
      Effect m (.call (.futexWake address count)) (m.returns (.futexWake address count) (.count k)
        ({ m.sched with threads := m.sched.wokenThreads popped }.setFutex i
          { m.sched.futexes i with waitingThreads := left, active := !left.isEmpty }))
  | mutexCreated {i : Fin kMaxMutexes} (hu : m.control = .user)
      (hi : Lib.firstSlot (fun i => !(m.sched.mutexes i).active) = some i) :
      Effect m (.call .mutexCreate) (m.returns .mutexCreate (.id m.sched.nextMutexId)
        { m.sched.setMutex i
            { id := m.sched.nextMutexId, active := true, locked := false, ownerThreadId := 0 } with
          nextMutexId := m.sched.nextMutexId + 1 })
  | lockTaken {id : UInt64} {i : Fin kMaxMutexes} {c : Fin kMaxThreads} (hu : m.control = .user)
      (hcur : m.sched.currentThread = some c) (hi : m.sched.findMutex id = some i)
      (hfree : (m.sched.mutexes i).locked = false) :
      Effect m (.call (.mutexLock id)) (m.returns (.mutexLock id) (.bool true)
        (m.sched.setMutex i { m.sched.mutexes i with
          locked := true, ownerThreadId := (m.sched.threads c).id }))
  | lockHeld {id : UInt64} {i : Fin kMaxMutexes} {c : Fin kMaxThreads} (hu : m.control = .user)
      (hcur : m.sched.currentThread = some c) (hi : m.sched.findMutex id = some i)
      (hlocked : (m.sched.mutexes i).locked = true)
      (howner : (m.sched.mutexes i).ownerThreadId = (m.sched.threads c).id) :
      Effect m (.call (.mutexLock id)) (m.returns (.mutexLock id) (.bool true) m.sched)
  | lockBlocked {id : UInt64} {i : Fin kMaxMutexes} {c : Fin kMaxThreads} (hu : m.control = .user)
      (hcur : m.sched.currentThread = some c) (hi : m.sched.findMutex id = some i)
      (hlocked : (m.sched.mutexes i).locked = true)
      (hother : (m.sched.mutexes i).ownerThreadId ≠ (m.sched.threads c).id) :
      Effect m (.call (.mutexLock id)) { m with
        sched := m.sched.setThread c { m.sched.threads c with
          state := .blocked, waitingMutexId := id }
        control := .yielding (.mutexLock (m.sched.threads c).id id i) }
  | unlockPassed {id : UInt64} {i : Fin kMaxMutexes} {c j : Fin kMaxThreads} (hu : m.control = .user)
      (hcur : m.sched.currentThread = some c) (hi : m.sched.findMutex id = some i)
      (howner : (m.sched.mutexes i).ownerThreadId = (m.sched.threads c).id)
      (hnext : nextOwner m.sched id = some j) :
      Effect m (.call (.mutexUnlock id)) (m.returns (.mutexUnlock id) (.bool true)
        ((m.sched.setThread j { m.sched.threads j with state := .ready, waitingMutexId := 0 }).setMutex i
          { m.sched.mutexes i with ownerThreadId := (m.sched.threads j).id }))
  | unlockFreed {id : UInt64} {i : Fin kMaxMutexes} {c : Fin kMaxThreads} (hu : m.control = .user)
      (hcur : m.sched.currentThread = some c) (hi : m.sched.findMutex id = some i)
      (howner : (m.sched.mutexes i).ownerThreadId = (m.sched.threads c).id)
      (hnext : nextOwner m.sched id = none) :
      Effect m (.call (.mutexUnlock id)) (m.returns (.mutexUnlock id) (.bool true)
        (m.sched.setMutex i { m.sched.mutexes i with locked := false, ownerThreadId := 0 }))
  | yieldCalled (hu : m.control = .user) :
      Effect m (.call .schedulerYield)
        { m with control := .yielding (.schedulerYield m.sched.currentId) }
  | exited {c : Fin kMaxThreads} (hu : m.control = .user) (hcur : m.sched.currentThread = some c)
      (hc : c ≠ 0) :
      Effect m .exit { m with
        sched := m.sched.setThread c { m.sched.threads c with state := .finished }
        control := .yielding (.exited (m.sched.threads c).id) }
  | yieldReturned {rest : Continuation} {c : Fin kMaxThreads} (hy : m.control = .yielding rest)
      (hcur : m.sched.currentThread = some c) (hstay : ¬ SwitchesAway m.sched) :
      Effect m .run { m with sched := yieldReturn (yielded m.sched), control := .resuming rest }
  | yieldSwitched {rest : Continuation} {c n : Fin kMaxThreads} (hy : m.control = .yielding rest)
      (hcur : m.sched.currentThread = some c) (haway : SwitchesAway m.sched) (hne : n ≠ c)
      (hrun : Runnable m.sched n) :
      Effect m .run { m with
        sched := yieldSwitch (yielded m.sched) c n rest
        control := .resuming (m.sched.threads n).context }
  | started {c : Fin kMaxThreads} (hr : m.control = .resuming .trampoline)
      (hcur : m.sched.currentThread = some c) :
      Effect m .run { m with sched := deliverSignals m.sched c, control := .user }
  | badStart (hr : m.control = .resuming .trampoline) :
      Effect m .run { m with control := .halted "Scheduler entered invalid thread" }
  | resumed {rest : Continuation} {c : Call} {res : Result} (hr : m.control = .resuming rest)
      (hplain : rest.plainReturn = some (c, res)) : Effect m .run (m.returns c res m.sched)
  | lockReturned {caller id : UInt64} {i : Fin kMaxMutexes}
      (hr : m.control = .resuming (.mutexLock caller id i)) :
      Effect m .run
        (m.returns (.mutexLock id) (.bool (kernelMutexLockReturn m.sched i)) m.sched)
  | panicked {caller : UInt64} (hr : m.control = .resuming (.exited caller)) :
      Effect m .run { m with
        control := .halted "Finished thread resumed", log := .panicked caller :: m.log }

/-! ## Every step is one of the cases -/

theorem createThread_cases {s : State} (hb : s.heap.InBlock) (pid : UInt64) (name : Option String)
    (entry argument : UInt64) :
    kernelCreateThread s pid name entry argument = (0, s) ∨
    ∃ i stack heap, (s.threads i).state = .empty ∧ entry ≠ 0 ∧ heap.InBlock ∧
      s.heap.mCurrent.toNat + 8192 ≤ heap.mCurrent.toNat ∧
      kernelCreateThread s pid name entry argument = (s.nextThreadId,
        { s.setThread i (freshThread s.nextThreadId pid name entry argument stack) with
          heap := heap, nextThreadId := s.nextThreadId + 1 }) := by
  unfold kernelCreateThread
  split
  · exact Or.inl rfl
  · rename_i hok
    split
    · exact Or.inl rfl
    · rename_i i hslot
      dsimp only
      rcases KernelHeap.allocate_bounds hb kThreadStackSize 16 (k := 4) (by decide) (by decide)
        (by decide) with halloc | ⟨hstack, hin, -, -, hgrow⟩
      · rw [halloc]; exact Or.inl rfl
      · rw [if_neg hstack]
        exact Or.inr ⟨i, _, _, State.findThreadSlot_some hslot, fun h => hok (Or.inr h), hin, hgrow, rfl⟩

section Calls

variable {m : Machine} (hu : m.control = .user)
include hu

/-- A call that changes nothing a thread can see. -/
theorem Effect.of_quiet {c : Call} {res : Result} {s : State} (hc : c.locks = false ∨ res = .bool false)
    (h : Quiet m.sched s) : Effect m (.call c) (m.returns c res s) := by
  obtain ⟨p, n, e, f, rfl⟩ := h
  exact .quiet hu hc

/-- A call that returns and changes nothing. -/
theorem Effect.unchanged {c : Call} {res : Result} (hc : c.locks = false ∨ res = .bool false) :
    Effect m (.call c) (m.returns c res m.sched) := .of_quiet hu hc (Quiet.refl _)

/-- A call that creates a thread, after a quiet change of the rest. -/
theorem Effect.of_createThread (hb : m.sched.heap.InBlock) {c : Call} (hc : c.locks = false)
    {s : State} (hs : Quiet m.sched s) (result : UInt64 → Result) (pid : UInt64)
    (name : Option String) (entry argument : UInt64) :
    Effect m (.call c) (m.returns c (result (kernelCreateThread s pid name entry argument).1)
      (kernelCreateThread s pid name entry argument).2) := by
  obtain ⟨p, n, e, f, rfl⟩ := hs
  rcases createThread_cases (s := m.sched.others p n e f) hb pid name entry argument with
    h | ⟨i, stack, heap, hempty, hentry, hheap, hgrow, h⟩
  · rw [h]; exact .quiet hu (Or.inl hc)
  · rw [h]; exact .created hu hc hempty hentry hheap hgrow

theorem effect_createThread (hb : m.sched.heap.InBlock) (pid : UInt64) (name : Option String)
    (entry argument : UInt64) : Effect m (.call (.createThread pid name entry argument))
      (m.call (.createThread pid name entry argument)) :=
  .of_createThread hu hb rfl (Quiet.refl _) .id pid name entry argument

theorem effect_execProcess (hb : m.sched.heap.InBlock) (pid : UInt64) (name : Option String)
    (entry argument : UInt64) : Effect m (.call (.execProcess pid name entry argument))
      (m.call (.execProcess pid name entry argument)) := by
  unfold Machine.call
  dsimp only [kernelExecProcess]
  split
  · exact .unchanged hu (Or.inl rfl)
  · split
    · exact .unchanged hu (Or.inl rfl)
    · exact .of_createThread hu hb rfl (Quiet.setProcess _ _ _) (fun id => .bool (decide (id ≠ 0)))
        pid name entry argument

theorem effect_terminateProcess (pid : UInt64) (code : Int32) :
    Effect m (.call (.terminateProcess pid code)) (m.call (.terminateProcess pid code)) := by
  unfold Machine.call
  dsimp only [kernelTerminateProcess]
  split
  · exact .unchanged hu (Or.inl rfl)
  · rename_i i hterm; exact .terminated hu hterm

theorem effect_pthreadJoin (id : UInt64) :
    Effect m (.call (.pthreadJoin id)) (m.call (.pthreadJoin id)) := by
  unfold Machine.call
  dsimp only [kernelPthreadJoin]
  split
  · exact .unchanged hu (Or.inl rfl)
  · rename_i i hfind
    split
    · exact .unchanged hu (Or.inl rfl)
    · have ht : JoinTests m (.call (.pthreadJoin id)) m.sched.currentId id i := Or.inl ⟨rfl, hu, rfl⟩
      unfold pthreadJoinLoop
      split
      · rename_i hnot; exact .joinWaits ht hnot
      · rename_i hfin; exact .joined ht (not_not.mp hfin)

theorem effect_futexWait (address : UInt64) (expected observed : UInt32) :
    Effect m (.call (.futexWait address expected observed))
      (m.call (.futexWait address expected observed)) := by
  unfold Machine.call
  dsimp only [kernelFutexWait]
  split
  · exact .unchanged hu (Or.inl rfl)
  · rename_i c hcur
    split
    · exact .unchanged hu (Or.inl rfl)
    · rename_i hargs
      push Not at hargs
      obtain ⟨haddr, rfl⟩ := hargs
      split
      · exact .unchanged hu (Or.inl rfl)
      · rename_i i hslot
        split
        · exact .unchanged hu (Or.inl rfl)
        · exact .futexBlocked hu hcur haddr hslot

theorem effect_futexWake (hd : IdsDistinct m.sched) (address : UInt64) (count : UInt32) :
    Effect m (.call (.futexWake address count)) (m.call (.futexWake address count)) := by
  unfold Machine.call
  dsimp only [kernelFutexWake]
  split
  · exact .unchanged hu (Or.inl rfl)
  · rename_i hargs
    push Not at hargs
    split
    · exact .unchanged hu (Or.inl rfl)
    · rename_i i hfind
      obtain ⟨popped, hsplit, hs⟩ :=
        futexWakeLoop_spec count (m.sched.futexes i).waitingThreads 0 m.sched hd
      rw [hs]
      exact .futexWoken hu hargs.1 hfind hsplit

theorem effect_mutexLock (id : UInt64) :
    Effect m (.call (.mutexLock id)) (m.call (.mutexLock id)) := by
  unfold Machine.call
  dsimp only [kernelMutexLock]
  split
  · rename_i i c hi hcur
    split
    · rename_i hfree; exact .lockTaken hu hcur hi hfree
    · rename_i hlocked
      have hlocked' : (m.sched.mutexes i).locked = true := by simpa using hlocked
      split
      · rename_i howner; exact .lockHeld hu hcur hi hlocked' howner
      · rename_i hother; exact .lockBlocked hu hcur hi hlocked' hother
  · exact .unchanged hu (Or.inr rfl)

theorem effect_mutexUnlock (id : UInt64) :
    Effect m (.call (.mutexUnlock id)) (m.call (.mutexUnlock id)) := by
  unfold Machine.call
  dsimp only [kernelMutexUnlock]
  split
  · rename_i i c hi hcur
    split
    · exact .unchanged hu (Or.inr rfl)
    · rename_i howner
      split
      · rename_i j hnext; exact .unlockPassed hu hcur hi (not_not.mp howner) hnext
      · rename_i hnext; exact .unlockFreed hu hcur hi (not_not.mp howner) hnext
  · exact .unchanged hu (Or.inr rfl)

/-- Every call is one of the cases. -/
theorem call_effect (hb : m.sched.heap.InBlock) (hd : IdsDistinct m.sched) (c : Call) :
    Effect m (.call c) (m.call c) := by
  cases c with
  | createProcess name => exact .of_quiet hu (Or.inl rfl) (quiet_createProcess _ _)
  | createThread pid name entry argument => exact effect_createThread hu hb pid name entry argument
  | terminateProcess pid code => exact effect_terminateProcess hu pid code
  | forkProcess pid => exact .of_quiet hu (Or.inl rfl) (quiet_forkProcess _ _)
  | execProcess pid name entry argument => exact effect_execProcess hu hb pid name entry argument
  | cloneThread pid entry argument =>
      exact .of_createThread hu hb rfl (Quiet.refl _) .id pid _ entry argument
  | pthreadCreate pid entry argument =>
      exact .of_createThread hu hb rfl (Quiet.refl _) .id pid _ entry argument
  | pthreadJoin id => exact effect_pthreadJoin hu id
  | futexWait address expected observed => exact effect_futexWait hu address expected observed
  | futexWake address count => exact effect_futexWake hu hd address count
  | epollCreate => exact .of_quiet hu (Or.inl rfl) (quiet_allocateEventObject _ _)
  | epollAdd fd watched => exact .of_quiet hu (Or.inl rfl) (quiet_epollAdd _ _ _)
  | epollWait fd buffer capacity => exact .of_quiet hu (Or.inl rfl) (quiet_epollWait _ _ _ _)
  | eventFd v => exact .of_quiet hu (Or.inl rfl) (quiet_eventFd _ _)
  | eventFdWrite fd v => exact .of_quiet hu (Or.inl rfl) (quiet_eventFdWrite _ _ _)
  | eventFdRead fd => exact .of_quiet hu (Or.inl rfl) (quiet_eventFdRead _ _)
  | timerFd initial interval => exact .of_quiet hu (Or.inl rfl) (quiet_timerFd _ _ _)
  | timerFdRead fd => exact .of_quiet hu (Or.inl rfl) (quiet_timerFdRead _ _)
  | setThreadPriority id priority =>
      unfold Machine.call
      dsimp only [kernelSetThreadPriority]
      split
      · exact .unchanged hu (Or.inl rfl)
      · rename_i j hfind
        split
        · exact .unchanged hu (Or.inl rfl)
        · exact .prioritized hu hfind
  | threadSleep ticks =>
      unfold Machine.call
      dsimp only [kernelThreadSleep]
      split
      · exact .unchanged hu (Or.inl rfl)
      · rename_i c hcur
        split
        · exact .unchanged hu (Or.inl rfl)
        · rename_i hticks; exact .slept hu hcur hticks
  | sendSignal id signal =>
      unfold Machine.call
      dsimp only [kernelSendSignal]
      split
      · exact .unchanged hu (Or.inl rfl)
      · rename_i hsignal
        split
        · exact .unchanged hu (Or.inl rfl)
        · rename_i j hfind; exact .signalled hu (by simpa using hsignal) hfind
  | ipcSend pid v => exact .of_quiet hu (Or.inl rfl) (quiet_ipcSend _ _ _)
  | ipcReceive pid => exact .of_quiet hu (Or.inl rfl) (quiet_ipcReceive _ _)
  | mutexCreate =>
      unfold Machine.call
      dsimp only [kernelMutexCreate]
      split
      · rename_i i hi; exact .mutexCreated hu hi
      · exact .unchanged hu (Or.inl rfl)
  | mutexLock id => exact effect_mutexLock hu id
  | mutexUnlock id => exact effect_mutexUnlock hu id
  | schedulerYield => exact .yieldCalled hu

end Calls

/-- Going on after a `Yield` is one of the cases. -/
theorem resume_effect {m : Machine} {c : Fin kMaxThreads} (hcur : m.sched.currentThread = some c)
    {rest : Continuation} (hr : m.control = .resuming rest) : Effect m .run (m.resume rest) := by
  cases rest with
  | trampoline =>
      unfold Machine.resume
      dsimp only
      rw [hcur]
      dsimp only
      split
      · exact .badStart hr
      · exact .started hr hcur
  | schedulerYield caller => exact .resumed hr rfl
  | threadSleep caller ticks => exact .resumed hr rfl
  | futexWait caller address expected => exact .resumed hr rfl
  | mutexLock caller id i => exact .lockReturned hr
  | pthreadJoin caller id i =>
      unfold Machine.resume
      dsimp only [pthreadJoinLoop]
      split
      · rename_i hnot; exact .joinWaits (Or.inr ⟨rfl, hr⟩) hnot
      · rename_i hfin; exact .joined (Or.inr ⟨rfl, hr⟩) (not_not.mp hfin)
  | exited caller => exact .panicked hr

/-- **The cases are complete.** From a state with a current thread, an intact heap and distinct live thread
    ids, every step is one of the cases of `Effect`. -/
theorem step_effect {m : Machine} {c : Fin kMaxThreads} (hcur : m.sched.currentThread = some c)
    (hb : m.sched.heap.InBlock) (hd : IdsDistinct m.sched) (a : Action) :
    Effect m a (m.step a) := by
  unfold Machine.step
  split
  · exact .stutter
  · exact .tick
  · rename_i c hu; exact call_effect hu hb hd c
  · rename_i hu
    simp only [Machine.exit, hcur]
    split
    · exact .stutter
    · rename_i hc; exact .exited hu hcur hc
  · rename_i rest hy
    rcases yield_cases hcur rest with ⟨hstay, h⟩ | ⟨haway, n, hne, hrun, h⟩
    · rw [h]; exact .yieldReturned hy hcur hstay
    · rw [h]; exact .yieldSwitched hy hcur haway hne hrun
  · rename_i rest hr; exact resume_effect hcur hr
  · exact .stutter

/-! ## Steps computed -/

section Steps

variable {m : Machine}

theorem step_call (hu : m.control = .user) (c : Call) : m.step (.call c) = m.call c := by
  unfold Machine.step
  rw [hu]

theorem step_exit (hu : m.control = .user) {c : Fin kMaxThreads}
    (hcur : m.sched.currentThread = some c) (hc : c ≠ 0) :
    m.step .exit = { m with
      sched := m.sched.setThread c { m.sched.threads c with state := .finished }
      control := .yielding (.exited (m.sched.threads c).id) } := by
  unfold Machine.step
  rw [hu]
  unfold Machine.exit
  dsimp only
  rw [hcur]
  exact if_neg hc

theorem step_tick (hc : ∀ reason, m.control ≠ .halted reason) :
    m.step .tick = { m with sched := kernelSchedulerTimerTick m.sched } := by
  unfold Machine.step
  cases h : m.control with
  | halted reason => exact absurd h (hc reason)
  | _ => rfl

theorem step_run_stays {rest : Continuation} {c : Fin kMaxThreads} (hy : m.control = .yielding rest)
    (hcur : m.sched.currentThread = some c) (hstay : ¬ SwitchesAway m.sched) :
    m.step .run = { m with sched := yieldReturn (yielded m.sched), control := .resuming rest } := by
  rcases yield_cases hcur rest with ⟨-, h⟩ | ⟨haway, -⟩
  · unfold Machine.step
    rw [hy]
    dsimp only
    rw [h]
  · exact absurd haway hstay

theorem step_run_switches {rest : Continuation} {c : Fin kMaxThreads} (hy : m.control = .yielding rest)
    (hcur : m.sched.currentThread = some c) (haway : SwitchesAway m.sched) :
    ∃ n, n ≠ c ∧ Runnable m.sched n ∧ m.step .run = { m with
      sched := yieldSwitch (yielded m.sched) c n rest
      control := .resuming (m.sched.threads n).context } := by
  rcases yield_cases hcur rest with ⟨hstay, -⟩ | ⟨-, n, hne, hrun, h⟩
  · exact absurd haway hstay
  · refine ⟨n, hne, hrun, ?_⟩
    unfold Machine.step
    rw [hy]
    dsimp only
    rw [h]

end Steps

end Scheduler
end UefiBoot
