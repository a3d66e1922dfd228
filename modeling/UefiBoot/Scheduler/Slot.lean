import UefiBoot.Scheduler.Effect

/-!
# `Scheduler.Slot` — what one step does to one slot of the thread table

A slot is described by the thread it holds and by its *frame*, the function whose `Yield` that thread is in.
`Effect.slots` says how both can change: a step creates at most one thread, in an empty slot, and keeps the
others; `Effect.frame_stays` says when a thread leaves its `Yield`. The invariants of the scheduler read
these instead of the thirty cases of `Effect` where they can.
-/

namespace UefiBoot
namespace Scheduler

/-! ## Frames -/

/-- The function whose `Yield` the running thread is in or has returned from. -/
def Control.rest : Control → Option Continuation
  | .yielding r | .resuming r => some r
  | .user | .halted _         => none

/-- Where the code of a slot is: of the running thread, the function whose `Yield` it is in; of another
    one, its saved context. -/
def Machine.frame (m : Machine) (i : Fin kMaxThreads) : Option Continuation :=
  if m.sched.currentThread = some i then m.control.rest else some (m.sched.threads i).context

/-- The thread that made the call; a fresh context has no call in it. -/
def Continuation.caller : Continuation → Option UInt64
  | .trampoline         => none
  | .schedulerYield t   => some t
  | .threadSleep t _    => some t
  | .futexWait t _ _    => some t
  | .mutexLock t _ _    => some t
  | .pthreadJoin t _ _  => some t
  | .exited t           => some t

theorem frame_current {m : Machine} {i : Fin kMaxThreads} (h : m.sched.currentThread = some i) :
    m.frame i = m.control.rest := if_pos h

theorem frame_other {m : Machine} {i : Fin kMaxThreads} (h : m.sched.currentThread ≠ some i) :
    m.frame i = some (m.sched.threads i).context := if_neg h

/-! ## What a step does to a slot -/

/-- The running thread, in slot `j`, goes into a `Yield` that will return to `r`. -/
structure Enters (m : Machine) (a : Action) (m' : Machine) (j : Fin kMaxThreads) (r : Continuation) :
    Prop where
  current : m.sched.currentThread = some j
  caller  : r.caller = some (m.sched.threads j).id
  mutex   : ∀ caller id k, r = .mutexLock caller id k → m.sched.findMutex id = some k
  futex   : ∀ caller address expected, r = .futexWait caller address expected →
    a = .call (.futexWait address expected expected)
  exits   : ∀ t, r = .exited t → (m'.sched.threads j).state = .finished

/-- The slot holds the thread it held before, if any. Its code is where it was, or has left the scheduler,
    or has just gone into a `Yield`. -/
structure Kept (m : Machine) (a : Action) (m' : Machine) (j : Fin kMaxThreads) : Prop where
  id    : (m'.sched.threads j).id = (m.sched.threads j).id
  live  : Live m'.sched j → Live m.sched j
  frame : ∀ r, m'.frame j = some r → m.frame j = some r ∨ Enters m a m' j r

/-- The step creates a thread in slot `i`. -/
structure Creates (m m' : Machine) (i : Fin kMaxThreads) : Prop where
  empty   : (m.sched.threads i).state = .empty
  id      : (m'.sched.threads i).id = m.sched.nextThreadId
  state   : (m'.sched.threads i).state = .ready
  context : (m'.sched.threads i).context = .trampoline
  next    : m'.sched.nextThreadId = m.sched.nextThreadId + 1
  heap    : m'.sched.heap.InBlock
  grows   : m.sched.heap.mCurrent.toNat + 8192 ≤ m'.sched.heap.mCurrent.toNat
  user    : m.control.rest = none ∧ m'.control.rest = none
  log     : ∃ t c res, m'.log = .returned t c res :: .created m.sched.nextThreadId :: m.log

/-- The step creates no thread. -/
structure CreatesNone (m m' : Machine) : Prop where
  next : m'.sched.nextThreadId = m.sched.nextThreadId
  heap : m'.sched.heap = m.sched.heap
  log  : m'.log = m.log ∨ (∃ t c res, m'.log = .returned t c res :: m.log) ∨
    ∃ t, m.control = .resuming (.exited t) ∧ m'.control = .halted "Finished thread resumed" ∧
      m'.log = .panicked t :: m.log

/-- A step that switches no thread and creates none keeps every slot, if it leaves ids and contexts alone
    and fills no empty slot. -/
theorem kept_of_same {m m' : Machine} {a : Action} (hcur : m'.sched.currentThread = m.sched.currentThread)
    (hid : ∀ j, (m'.sched.threads j).id = (m.sched.threads j).id)
    (hctx : ∀ j, (m'.sched.threads j).context = (m.sched.threads j).context)
    (hlive : ∀ j, (m'.sched.threads j).state ≠ .empty → Live m.sched j)
    (hrest : ∀ j r, m.sched.currentThread = some j → m'.control.rest = some r →
      m.control.rest = some r ∨ Enters m a m' j r) (j : Fin kMaxThreads) : Kept m a m' j := by
  refine ⟨hid j, ?_, ?_⟩
  · rintro (h | h)
    · exact hlive j h
    · exact Or.inr (hcur ▸ h)
  · intro r hr
    by_cases hj : m.sched.currentThread = some j
    · rw [frame_current (hcur.trans hj)] at hr
      rw [frame_current hj]
      exact hrest j r hj hr
    · rw [frame_other (by rw [hcur]; exact hj), hctx] at hr
      rw [frame_other hj]
      exact Or.inl hr

section SetThread

variable {s : State} {i j : Fin kMaxThreads} {t : Thread}

theorem setThread_id (h : t.id = (s.threads i).id) :
    ((s.setThread i t).threads j).id = (s.threads j).id := by
  by_cases hj : j = i
  · subst hj; simp [h]
  · simp [hj]

theorem setThread_context (h : t.context = (s.threads i).context) :
    ((s.setThread i t).threads j).context = (s.threads j).context := by
  by_cases hj : j = i
  · subst hj; simp [h]
  · simp [hj]

theorem setThread_live (h : t.state ≠ .empty → Live s i)
    (hj : ((s.setThread i t).threads j).state ≠ .empty) : Live s j := by
  by_cases hji : j = i
  · subst hji; exact h (by simpa using hj)
  · exact Or.inl (by simpa [hji] using hj)

end SetThread

@[simp] theorem creation_of_same {s s' : State} (h : s'.nextThreadId = s.nextThreadId) :
    Machine.creation s s' = [] := if_pos h

/-- The running call returned, the scheduler's counters and heap are as before. -/
theorem createsNone_returns (m : Machine) (c : Call) (res : Result) {s : State}
    (hn : s.nextThreadId = m.sched.nextThreadId) (hh : s.heap = m.sched.heap) :
    CreatesNone m (m.returns c res s) :=
  ⟨hn, hh, Or.inr (Or.inl ⟨m.sched.currentId, c, res, by simp [creation_of_same hn]⟩)⟩

/-- **Slots.** A step either creates one thread, in an empty slot, or none, and keeps every other slot. -/
theorem Effect.slots {m m' : Machine} {a : Action} (he : Effect m a m') :
    (CreatesNone m m' ∧ ∀ j, Kept m a m' j) ∨ ∃ i, Creates m m' i ∧ ∀ j, j ≠ i → Kept m a m' j := by
  have hlive : ∀ j, (m.sched.threads j).state ≠ .empty → Live m.sched j := fun j h => Or.inl h
  cases he with
  | stutter => exact Or.inl ⟨⟨rfl, rfl, Or.inl rfl⟩, fun j => ⟨rfl, id, fun r hr => Or.inl hr⟩⟩
  | tick =>
      refine Or.inl ⟨⟨rfl, rfl, Or.inl rfl⟩, kept_of_same rfl ?_ ?_ ?_ fun j r _ hr => Or.inl hr⟩
      · intro j; simp [kernelSchedulerTimerTick]
      · intro j; simp [kernelSchedulerTimerTick]
      · intro j h
        refine Or.inl fun he => h ?_
        simp [kernelSchedulerTimerTick, Thread.wake, he]
  | quiet hu hc =>
      exact Or.inl ⟨createsNone_returns m _ _ rfl rfl,
        kept_of_same rfl (fun _ => rfl) (fun _ => rfl) hlive fun j r _ hr => by simp [Control.rest] at hr⟩
  | @created c res i pid entry argument stack name heap p n e f hu hc hempty hentry hheap hgrow =>
      refine Or.inr ⟨i, ⟨hempty, ?_, ?_, ?_, rfl, hheap, hgrow, ?_, ?_⟩, ?_⟩
      · simp [freshThread]
      · simp [freshThread]
      · simp [freshThread]
      · exact ⟨by rw [hu]; rfl, rfl⟩
      · refine ⟨m.sched.currentId, c, res, ?_⟩
        simp [Machine.creation]
      · intro j hj
        refine ⟨by simp [hj], ?_, ?_⟩
        · simp [Live, hj]
        · intro r hr
          left
          by_cases hcur : m.sched.currentThread = some j
          · simp [Machine.frame, hcur, Control.rest] at hr
          · simpa [Machine.frame, hcur, hj] using hr
  | terminated hu hterm =>
      refine Or.inl ⟨createsNone_returns m _ _ rfl rfl, kept_of_same rfl ?_ ?_ ?_ ?_⟩
      · intro j; simp
      · intro j; simp
      · intro j h
        refine Or.inl fun he => h ?_
        simp [survivors_state, he]
      · intro j r _ hr; simp [Control.rest] at hr
  | joined ht hfin =>
      refine Or.inl ⟨createsNone_returns m _ _ rfl rfl, kept_of_same rfl ?_ ?_ ?_ ?_⟩
      · intro j; exact setThread_id rfl
      · intro j; exact setThread_context rfl
      · intro j h; exact setThread_live (fun h => absurd rfl h) h
      · intro j r _ hr; simp [Control.rest] at hr
  | @joinWaits _ caller id i ht hnot =>
      refine Or.inl ⟨⟨rfl, rfl, Or.inl rfl⟩, kept_of_same rfl (fun _ => rfl) (fun _ => rfl) hlive ?_⟩
      intro j r hj hr
      obtain rfl : Continuation.pthreadJoin caller id i = r := by simpa [Control.rest] using hr
      rcases ht with ⟨-, hu, rfl⟩ | ⟨-, hr⟩
      · refine Or.inr ⟨hj, ?_, ?_, ?_, ?_⟩
        · simp [Continuation.caller, State.currentId, hj]
        · intro _ _ _ h; cases h
        · intro _ _ _ h; cases h
        · intro _ h; cases h
      · exact Or.inl (by rw [hr]; rfl)
  | prioritized hu hfind =>
      obtain ⟨hne, -⟩ := State.findThread_some hfind
      refine Or.inl ⟨createsNone_returns m _ _ rfl rfl, kept_of_same rfl ?_ ?_ ?_ ?_⟩
      · intro j; exact setThread_id rfl
      · intro j; exact setThread_context rfl
      · intro j h; exact setThread_live (fun _ => Or.inl hne) h
      · intro j r _ hr; simp [Control.rest] at hr
  | signalled hu hsignal hfind =>
      obtain ⟨hne, -⟩ := State.findThread_some hfind
      refine Or.inl ⟨createsNone_returns m _ _ rfl rfl, kept_of_same rfl ?_ ?_ ?_ ?_⟩
      · intro j; exact setThread_id (signalled_id _ _)
      · intro j; exact setThread_context (signalled_context _ _)
      · intro j h; exact setThread_live (fun _ => Or.inl hne) h
      · intro j r _ hr; simp [Control.rest] at hr
  | @slept ticks c hu hcur hticks =>
      refine Or.inl ⟨⟨rfl, rfl, Or.inl rfl⟩, kept_of_same rfl ?_ ?_ ?_ ?_⟩
      · intro j; exact setThread_id rfl
      · intro j; exact setThread_context rfl
      · intro j h; exact setThread_live (fun _ => Or.inr hcur) h
      · intro j r hj hr
        obtain rfl : c = j := Option.some.inj (hcur.symm.trans hj)
        obtain rfl : Continuation.threadSleep (m.sched.threads c).id ticks = r := by
          simpa [Control.rest] using hr
        exact Or.inr ⟨hj, rfl, by rintro _ _ _ ⟨⟩, by rintro _ _ _ ⟨⟩, by rintro _ ⟨⟩⟩
  | @futexBlocked address expected c i hu hcur haddr hslot =>
      refine Or.inl ⟨⟨rfl, rfl, Or.inl rfl⟩, kept_of_same rfl ?_ ?_ ?_ ?_⟩
      · intro j; exact setThread_id (s := m.sched) rfl
      · intro j; exact setThread_context (s := m.sched) rfl
      · intro j h; exact setThread_live (s := m.sched) (fun _ => Or.inr hcur) h
      · intro j r hj hr
        obtain rfl : c = j := Option.some.inj (hcur.symm.trans hj)
        obtain rfl : Continuation.futexWait (m.sched.threads c).id address expected = r := by
          simpa [Control.rest] using hr
        refine Or.inr ⟨hj, rfl, by rintro _ _ _ ⟨⟩, ?_, by rintro _ ⟨⟩⟩
        rintro _ _ _ ⟨⟩; rfl
  | futexWoken hu haddr hfind hsplit =>
      refine Or.inl ⟨createsNone_returns m _ _ rfl rfl, kept_of_same rfl ?_ ?_ ?_ ?_⟩
      · intro j; simp
      · intro j; simp
      · intro j h
        refine Or.inl fun he => h ?_
        simp [wokenThreads_state, he]
      · intro j r _ hr; simp [Control.rest] at hr
  | mutexCreated hu hi =>
      exact Or.inl ⟨createsNone_returns m _ _ rfl rfl,
        kept_of_same rfl (fun _ => rfl) (fun _ => rfl) hlive fun j r _ hr => by simp [Control.rest] at hr⟩
  | lockTaken hu hcur hi hfree =>
      exact Or.inl ⟨createsNone_returns m _ _ rfl rfl,
        kept_of_same rfl (fun _ => rfl) (fun _ => rfl) hlive fun j r _ hr => by simp [Control.rest] at hr⟩
  | lockHeld hu hcur hi hlocked howner =>
      exact Or.inl ⟨createsNone_returns m _ _ rfl rfl,
        kept_of_same rfl (fun _ => rfl) (fun _ => rfl) hlive fun j r _ hr => by simp [Control.rest] at hr⟩
  | @lockBlocked id i c hu hcur hi hlocked hother =>
      refine Or.inl ⟨⟨rfl, rfl, Or.inl rfl⟩, kept_of_same rfl ?_ ?_ ?_ ?_⟩
      · intro j; exact setThread_id rfl
      · intro j; exact setThread_context rfl
      · intro j h; exact setThread_live (fun _ => Or.inr hcur) h
      · intro j r hj hr
        obtain rfl : c = j := Option.some.inj (hcur.symm.trans hj)
        obtain rfl : Continuation.mutexLock (m.sched.threads c).id id i = r := by
          simpa [Control.rest] using hr
        refine Or.inr ⟨hj, rfl, ?_, by rintro _ _ _ ⟨⟩, by rintro _ ⟨⟩⟩
        rintro _ _ _ ⟨⟩; exact hi
  | @unlockPassed id i c j hu hcur hi howner hnext =>
      have hj : (m.sched.threads j).state ≠ .empty := by
        have hok := Lib.pickBest_ok hnext
        simp only [Bool.and_eq_true, beq_iff_eq] at hok
        simp [hok.1]
      refine Or.inl ⟨createsNone_returns m _ _ rfl rfl, kept_of_same rfl ?_ ?_ ?_ ?_⟩
      · intro j; exact setThread_id rfl
      · intro j; exact setThread_context rfl
      · intro j h; exact setThread_live (fun _ => Or.inl hj) h
      · intro j r _ hr; simp [Control.rest] at hr
  | unlockFreed hu hcur hi howner hnext =>
      exact Or.inl ⟨createsNone_returns m _ _ rfl rfl,
        kept_of_same rfl (fun _ => rfl) (fun _ => rfl) hlive fun j r _ hr => by simp [Control.rest] at hr⟩
  | yieldCalled hu =>
      refine Or.inl ⟨⟨rfl, rfl, Or.inl rfl⟩, kept_of_same rfl (fun _ => rfl) (fun _ => rfl) hlive ?_⟩
      intro j r hj hr
      obtain rfl : Continuation.schedulerYield m.sched.currentId = r := by simpa [Control.rest] using hr
      exact Or.inr ⟨hj, by simp [Continuation.caller, State.currentId, hj], by rintro _ _ _ ⟨⟩,
        by rintro _ _ _ ⟨⟩, by rintro _ ⟨⟩⟩
  | @exited c hu hcur hc =>
      refine Or.inl ⟨⟨rfl, rfl, Or.inl rfl⟩, kept_of_same rfl ?_ ?_ ?_ ?_⟩
      · intro j; exact setThread_id rfl
      · intro j; exact setThread_context rfl
      · intro j h; exact setThread_live (fun _ => Or.inr hcur) h
      · intro j r hj hr
        obtain rfl : c = j := Option.some.inj (hcur.symm.trans hj)
        obtain rfl : Continuation.exited (m.sched.threads c).id = r := by
          simpa [Control.rest] using hr
        refine Or.inr ⟨hj, rfl, by rintro _ _ _ ⟨⟩, by rintro _ _ _ ⟨⟩, ?_⟩
        intro _ _; simp
  | @yieldReturned rest c hy hcur hstay =>
      refine Or.inl ⟨⟨by simp, by simp, Or.inl rfl⟩,
        kept_of_same (by simp) (stayed_id hcur) (stayed_context hcur) ?_ ?_⟩
      · intro j h
        rw [stayed_state hcur, stayedState] at h
        by_cases hj : j = c
        · exact Or.inr (hj ▸ hcur)
        · refine Or.inl fun he => h ?_
          simp [he, hj]
      · intro j r _ hr
        refine Or.inl ?_
        rw [hy]; exact hr
  | @yieldSwitched rest c n hy hcur haway hne hrun =>
      obtain ⟨h1, -, -, -, h5, -, h7, -⟩ := yieldSwitch_others (yielded m.sched) c n rest
      refine Or.inl ⟨⟨by simpa using h5, by simpa using h7, Or.inl rfl⟩, fun j => ?_⟩
      have hn : (m.sched.threads n).state ≠ .empty := by
        rcases hrun with h | ⟨h, -⟩ <;> simp [h]
      refine ⟨switched_id hcur hne j, ?_, ?_⟩
      · rintro (h | h)
        · by_cases hj : j = c
          · exact Or.inr (hj ▸ hcur)
          · refine Or.inl fun he => h ?_
            have hjn : j ≠ n := by rintro rfl; exact hn he
            have hnr : ¬ Runnable m.sched j := by rintro (h | ⟨h, -⟩) <;> simp [he] at h
            simp [switched_state hcur hne, switchedState, hjn, hnr, hj, he]
        · obtain rfl : n = j := Option.some.inj (h1.symm.trans h)
          exact Or.inl hn
      · intro r hr
        left
        by_cases hjn : j = n
        · -- the thread that goes on: its saved context becomes the control
          subst hjn
          have hcj : m.sched.currentThread ≠ some j := by
            rw [hcur]; exact fun h => hne (Option.some.inj h).symm
          rw [frame_current h1] at hr
          rw [frame_other hcj]; exact hr
        · have hcj : (yieldSwitch (yielded m.sched) c n rest).currentThread ≠ some j := by
            rw [h1]; exact fun h => hjn (Option.some.inj h).symm
          rw [frame_other hcj, switched_context hcur hne] at hr
          by_cases hj : j = c
          · -- the thread that is left: the control becomes its saved context
            subst hj
            rw [frame_current hcur, hy]; simpa [Control.rest] using hr
          · rw [frame_other (by rw [hcur]; exact fun h => hj (Option.some.inj h).symm)]
            simpa [hj] using hr
  | @started c hr hcur =>
      refine Or.inl ⟨⟨rfl, rfl, Or.inl rfl⟩, kept_of_same rfl ?_ ?_ ?_ ?_⟩
      · intro j; exact setThread_id (deliver_id _)
      · intro j; exact setThread_context (deliver_context _)
      · intro j h; exact setThread_live (fun _ => Or.inr hcur) h
      · intro j r _ hr; simp [Control.rest] at hr
  | badStart hr =>
      exact Or.inl ⟨⟨rfl, rfl, Or.inl rfl⟩,
        kept_of_same rfl (fun _ => rfl) (fun _ => rfl) hlive fun j r _ hr => by simp [Control.rest] at hr⟩
  | resumed hr hplain =>
      exact Or.inl ⟨createsNone_returns m _ _ rfl rfl,
        kept_of_same rfl (fun _ => rfl) (fun _ => rfl) hlive fun j r _ hr => by simp [Control.rest] at hr⟩
  | lockReturned hr =>
      exact Or.inl ⟨createsNone_returns m _ _ rfl rfl,
        kept_of_same rfl (fun _ => rfl) (fun _ => rfl) hlive fun j r _ hr => by simp [Control.rest] at hr⟩
  | panicked hr =>
      exact Or.inl ⟨⟨rfl, rfl, Or.inr (Or.inr ⟨_, hr, rfl, rfl⟩)⟩,
        kept_of_same rfl (fun _ => rfl) (fun _ => rfl) hlive fun j r _ hr => by simp [Control.rest] at hr⟩

/-! ## What a step does to a thread -/

/-- **How state, wait mark and wake-up tick of one slot change.** -/
inductive ThreadStep (m m' : Machine) (i : Fin kMaxThreads) : Action → Prop where
  | same {a : Action} (hs : (m'.sched.threads i).state = (m.sched.threads i).state)
      (hw : (m'.sched.threads i).waitingMutexId = (m.sched.threads i).waitingMutexId)
      (hk : (m'.sched.threads i).wakeTick = (m.sched.threads i).wakeTick) : ThreadStep m m' i a
  | created {c : Call} (hempty : (m.sched.threads i).state = .empty)
      (hs : (m'.sched.threads i).state = .ready) (hw : (m'.sched.threads i).waitingMutexId = 0)
      (hk : (m'.sched.threads i).wakeTick = 0)
      (hid : (m'.sched.threads i).id = m.sched.nextThreadId) : ThreadStep m m' i (.call c)
  | terminated {pid : UInt64} {code : Int32} (hu : m.control = .user)
      (hterm : m.sched.terminates pid ≠ none) (hp : (m.sched.threads i).processId = pid)
      (hs : (m'.sched.threads i).state = .empty) (hu' : m'.control = .user) :
      ThreadStep m m' i (.call (.terminateProcess pid code))
  | joined {a : Action} (hfin : (m.sched.threads i).state = .finished)
      (hs : (m'.sched.threads i).state = .empty) (hu' : m'.control = .user) : ThreadStep m m' i a
  | woke {a : Action} (hbefore : (m.sched.threads i).state = .sleeping)
      (hs : (m'.sched.threads i).state = .ready)
      (hw : (m'.sched.threads i).waitingMutexId = (m.sched.threads i).waitingMutexId)
      (hk : (m'.sched.threads i).wakeTick = 0) : ThreadStep m m' i a
  | signalled {id : UInt64} {signal : UInt32} (hu : m.control = .user) (hsignal : signal < 32)
      (hfind : m.sched.findThread id = some i)
      (hbefore : (m.sched.threads i).state = .sleeping ∨ (m.sched.threads i).state = .blocked)
      (hs : (m'.sched.threads i).state = .ready) (hw : (m'.sched.threads i).waitingMutexId = 0)
      (hk : (m'.sched.threads i).wakeTick = 0) : ThreadStep m m' i (.call (.sendSignal id signal))
  | popped {address : UInt64} {count : UInt32} {k : Fin kMaxFutexes} {popped left : List UInt64}
      (hu : m.control = .user) (hfind : findFutex m.sched address = some k)
      (hsplit : (m.sched.futexes k).waitingThreads = popped ++ left)
      (hfut : m'.sched.futexes = Function.update m.sched.futexes k
        { m.sched.futexes k with waitingThreads := left, active := !left.isEmpty })
      (hmem : (m.sched.threads i).id ∈ popped) (hbefore : (m.sched.threads i).state = .blocked)
      (hs : (m'.sched.threads i).state = .ready)
      (hw : (m'.sched.threads i).waitingMutexId = (m.sched.threads i).waitingMutexId)
      (hk : (m'.sched.threads i).wakeTick = (m.sched.threads i).wakeTick) :
      ThreadStep m m' i (.call (.futexWake address count))
  | inherited {id : UInt64} {c : Fin kMaxThreads} {k : Fin kMaxMutexes} (hu : m.control = .user)
      (hcur : m.sched.currentThread = some c) (hfind : m.sched.findMutex id = some k)
      (howner : (m.sched.mutexes k).ownerThreadId = (m.sched.threads c).id)
      (hnext : nextOwner m.sched id = some i) (hbefore : (m.sched.threads i).state = .blocked)
      (hwait : (m.sched.threads i).waitingMutexId = id)
      (hs : (m'.sched.threads i).state = .ready) (hw : (m'.sched.threads i).waitingMutexId = 0)
      (hk : (m'.sched.threads i).wakeTick = (m.sched.threads i).wakeTick) :
      ThreadStep m m' i (.call (.mutexUnlock id))
  | slept {ticks : UInt64} (hu : m.control = .user) (hcur : m.sched.currentThread = some i)
      (hin : m'.control.rest ≠ none) (hs : (m'.sched.threads i).state = .sleeping)
      (hw : (m'.sched.threads i).waitingMutexId = (m.sched.threads i).waitingMutexId) :
      ThreadStep m m' i (.call (.threadSleep ticks))
  | futexBlocked {address : UInt64} {expected : UInt32} (hu : m.control = .user)
      (hcur : m.sched.currentThread = some i) (hin : m'.control.rest ≠ none)
      (hs : (m'.sched.threads i).state = .blocked)
      (hw : (m'.sched.threads i).waitingMutexId = (m.sched.threads i).waitingMutexId)
      (hk : (m'.sched.threads i).wakeTick = (m.sched.threads i).wakeTick)
      (hf : m'.frame i = some (.futexWait (m.sched.threads i).id address expected)) :
      ThreadStep m m' i (.call (.futexWait address expected expected))
  | lockBlocked {id : UInt64} {k : Fin kMaxMutexes} (hu : m.control = .user)
      (hcur : m.sched.currentThread = some i) (hfind : m.sched.findMutex id = some k)
      (hin : m'.control.rest ≠ none) (hs : (m'.sched.threads i).state = .blocked)
      (hk : (m'.sched.threads i).wakeTick = (m.sched.threads i).wakeTick)
      (hf : m'.frame i = some (.mutexLock (m.sched.threads i).id id k)) :
      ThreadStep m m' i (.call (.mutexLock id))
  | exited (hu : m.control = .user) (hcur : m.sched.currentThread = some i) (hi : i ≠ 0)
      (hin : m'.control.rest ≠ none) (hs : (m'.sched.threads i).state = .finished) : ThreadStep m m' i .exit
  /-- The `Yield` goes to this thread. -/
  | chosen (hcur' : m'.sched.currentThread = some i) (hrun : Runnable m.sched i)
      (hs : (m'.sched.threads i).state = .running)
      (hw : (m'.sched.threads i).waitingMutexId = (m.sched.threads i).waitingMutexId)
      (hk : (m'.sched.threads i).wakeTick =
        if (m.sched.threads i).state = .sleeping then 0 else (m.sched.threads i).wakeTick) :
      ThreadStep m m' i .run
  /-- The `Yield` leaves this thread. -/
  | left (hcur' : m'.sched.currentThread ≠ some i)
      (hbefore : (m.sched.threads i).state = .running) (hs : (m'.sched.threads i).state = .ready)
      (hw : (m'.sched.threads i).waitingMutexId = (m.sched.threads i).waitingMutexId)
      (hk : (m'.sched.threads i).wakeTick = (m.sched.threads i).wakeTick) : ThreadStep m m' i .run

section ThreadStep

variable {m m' : Machine} {a : Action} {i : Fin kMaxThreads}

/-- A step that updates one slot. -/
theorem threadStep_set {s : State} {j : Fin kMaxThreads} {t : Thread}
    (hthreads : m'.sched.threads = Function.update s.threads j t) (hs : s.threads = m.sched.threads)
    (hj : i = j → ThreadStep m m' i a) : ThreadStep m m' i a := by
  by_cases hij : i = j
  · exact hj hij
  · have hsame : m'.sched.threads i = m.sched.threads i := by
      rw [hthreads, Function.update_of_ne hij, hs]
    exact .same (by rw [hsame]) (by rw [hsame]) (by rw [hsame])

theorem threadStep_stayed {rest : Continuation} {c : Fin kMaxThreads}
    (hcur : m.sched.currentThread = some c) :
    ThreadStep m { m with sched := yieldReturn (yielded m.sched), control := .resuming rest } i a := by
  have hs := stayed_state hcur i
  have hw := stayed_waitingMutexId hcur i
  have hk := stayed_wakeTick hcur i
  by_cases hsleep : (m.sched.threads i).state = .sleeping
  · by_cases hready : ((yieldReturn (yielded m.sched)).threads i).state = .ready
    · rw [if_pos ⟨hsleep, hready⟩] at hk
      exact .woke hsleep hready hw hk
    · rw [if_neg (fun h => hready h.2)] at hk
      refine .same ?_ hw hk
      rw [hs, stayedState] at hready
      show ((yieldReturn (yielded m.sched)).threads i).state = _
      rw [hs, stayedState]
      split
      · rename_i h; rw [if_pos h] at hready; exact absurd rfl hready
      · split
        · rename_i h h'; rw [if_neg h, if_pos h'] at hready; exact absurd rfl hready
        · rfl
  · rw [if_neg (fun h => hsleep h.1)] at hk
    refine .same ?_ hw hk
    show ((yieldReturn (yielded m.sched)).threads i).state = _
    rw [hs, stayedState, if_neg (fun h => hsleep h.2), if_neg]
    rintro ⟨hic, hsc⟩; rw [← hic] at hsc; exact hsleep hsc

theorem threadStep_switched {rest : Continuation} {c n : Fin kMaxThreads}
    (hcur : m.sched.currentThread = some c) (hne : n ≠ c) (hrun : Runnable m.sched n) :
    ThreadStep m { m with
      sched := yieldSwitch (yielded m.sched) c n rest
      control := .resuming (m.sched.threads n).context } i .run := by
  have hs : ((yieldSwitch (yielded m.sched) c n rest).threads i).state = switchedState m.sched c n i :=
    switched_state hcur hne i
  have hw : ((yieldSwitch (yielded m.sched) c n rest).threads i).waitingMutexId =
      (m.sched.threads i).waitingMutexId := switched_waitingMutexId hcur hne i
  have hk : ((yieldSwitch (yielded m.sched) c n rest).threads i).wakeTick =
      if (m.sched.threads i).state = .sleeping ∧ Runnable m.sched i then 0
      else (m.sched.threads i).wakeTick := switched_wakeTick hcur hne i
  unfold switchedState at hs
  by_cases hin : i = n
  · subst hin
    rw [if_pos rfl] at hs
    refine .chosen (yieldSwitch_others _ _ _ _).1 hrun hs hw ?_
    rw [hk]
    by_cases hsl : (m.sched.threads i).state = .sleeping <;> simp [hsl, hrun]
  · rw [if_neg hin] at hs
    by_cases hri : Runnable m.sched i
    · rw [if_pos (Or.inl hri)] at hs
      by_cases hsl : (m.sched.threads i).state = .sleeping
      · exact .woke hsl hs hw (by rw [hk, if_pos ⟨hsl, hri⟩])
      · have hready : (m.sched.threads i).state = .ready := hri.resolve_right fun h => hsl h.1
        exact .same (hs.trans hready.symm) hw (by rw [hk, if_neg fun h => hsl h.1])
    · rw [if_neg fun h => hri h.2] at hk
      by_cases hleft : i = c ∧ (m.sched.threads c).state = .running
      · rw [if_pos (Or.inr hleft)] at hs
        obtain ⟨rfl, hr⟩ := hleft
        refine .left ?_ hr hs hw hk
        show (yieldSwitch _ _ _ _).currentThread ≠ _
        rw [(yieldSwitch_others _ _ _ _).1]; simpa using Ne.symm hin
      · rw [if_neg (by simp [hri, hleft])] at hs
        exact .same hs hw hk

theorem Effect.threadStep (he : Effect m a m') : ThreadStep m m' i a := by
  cases he with
  | tick =>
      by_cases hw : (m.sched.threads i).state = .sleeping ∧
          (m.sched.threads i).wakeTick ≤ m.sched.schedulerTick + 1
      · refine .woke hw.1 ?_ ?_ ?_ <;> simp [kernelSchedulerTimerTick, Thread.wake, hw]
      · refine .same ?_ ?_ ?_ <;> simp [kernelSchedulerTimerTick, Thread.wake, hw]
  | created hu hc hempty =>
      refine threadStep_set (s := m.sched) rfl rfl fun h => ?_
      subst h
      refine .created hempty ?_ ?_ ?_ ?_ <;> simp [freshThread]
  | @terminated pid code k p hu hterm =>
      by_cases hp : (m.sched.threads i).processId = pid
      · refine .terminated hu (by simp [hterm]) hp ?_ rfl
        show (m.sched.survivors pid i).state = _
        rw [survivors_state, if_pos hp]
      · have hsame : m.sched.survivors pid i = m.sched.threads i := if_neg fun h => hp h.2
        refine .same ?_ ?_ ?_
        · show (m.sched.survivors pid i).state = _; rw [hsame]
        · show (m.sched.survivors pid i).waitingMutexId = _; rw [hsame]
        · show (m.sched.survivors pid i).wakeTick = _; rw [hsame]
  | joined ht hj =>
      refine threadStep_set (s := m.sched) rfl rfl fun h => ?_
      subst h; exact .joined hj (by simp) rfl
  | prioritized hu hfind =>
      refine threadStep_set (s := m.sched) rfl rfl fun h => ?_
      subst h; exact .same (by simp) (by simp) (by simp)
  | signalled hu hsignal hfind =>
      refine threadStep_set (s := m.sched) rfl rfl fun h => ?_
      subst h
      by_cases hb : (m.sched.threads i).state = .sleeping ∨ (m.sched.threads i).state = .blocked
      · refine .signalled hu hsignal hfind hb ?_ ?_ ?_ <;>
          simp [signalled_state, signalled_waitingMutexId, signalled_wakeTick, hb]
      · refine .same ?_ ?_ ?_ <;>
          simp [signalled_state, signalled_waitingMutexId, signalled_wakeTick, hb]
  | slept hu hcur hticks =>
      refine threadStep_set (s := m.sched) rfl rfl fun h => ?_
      subst h; exact .slept hu hcur (by simp [Control.rest]) (by simp) (by simp)
  | futexBlocked hu hcur haddr hslot =>
      refine threadStep_set (s := m.sched) rfl rfl fun h => ?_
      subst h
      refine .futexBlocked hu hcur (by simp [Control.rest]) (by simp) (by simp) (by simp) ?_
      rw [frame_current (by exact hcur)]; rfl
  | @futexWoken address count k j popped left hu haddr hfind hsplit =>
      by_cases hp : (m.sched.threads i).state = .blocked ∧ (m.sched.threads i).id ∈ popped
      · refine .popped hu hfind hsplit rfl hp.2 hp.1 ?_ (wokenThreads_waitingMutexId _ _ _)
          (wokenThreads_wakeTick _ _ _)
        show (m.sched.wokenThreads popped i).state = _
        rw [wokenThreads_state, if_pos hp]
      · refine .same ?_ (wokenThreads_waitingMutexId _ _ _) (wokenThreads_wakeTick _ _ _)
        show (m.sched.wokenThreads popped i).state = _
        rw [wokenThreads_state, if_neg hp]
  | lockBlocked hu hcur hi hlocked hother =>
      refine threadStep_set (s := m.sched) rfl rfl fun h => ?_
      subst h
      refine .lockBlocked hu hcur hi (by simp [Control.rest]) (by simp) (by simp) ?_
      rw [frame_current (by exact hcur)]; rfl
  | unlockPassed hu hcur hi howner hnext =>
      refine threadStep_set (s := m.sched) rfl rfl fun h => ?_
      subst h
      have hok := Lib.pickBest_ok hnext
      simp only [Bool.and_eq_true, beq_iff_eq] at hok
      exact .inherited hu hcur hi howner hnext hok.1 hok.2 (by simp) (by simp) (by simp)
  | exited hu hcur hc =>
      refine threadStep_set (s := m.sched) rfl rfl fun h => ?_
      subst h; exact .exited hu hcur hc (by simp [Control.rest]) (by simp)
  | yieldReturned hy hcur hstay => exact threadStep_stayed hcur
  | yieldSwitched hy hcur haway hne hrun => exact threadStep_switched hcur hne hrun
  | started hr hcur =>
      refine threadStep_set (s := m.sched) rfl rfl fun h => ?_
      subst h; refine .same ?_ ?_ ?_ <;> simp
  | _ => exact .same rfl rfl rfl

end ThreadStep

/-! ## What stays -/

section Stays

variable {m m' : Machine} {a : Action} {i : Fin kMaxThreads}

/-- A thread keeps its id while its slot holds it. -/
theorem Effect.id_stays (he : Effect m a m') (hi : (m.sched.threads i).state ≠ .empty) :
    (m'.sched.threads i).id = (m.sched.threads i).id := by
  rcases he.slots with ⟨-, hkept⟩ | ⟨j, hj, hkept⟩
  · exact (hkept i).id
  · exact (hkept i fun h => hi (h ▸ hj.empty)).id

/-- A thread in a `Yield` stays in it, until the processor returns from it. -/
theorem Effect.frame_stays (he : Effect m a m') (hi : (m.sched.threads i).state ≠ .empty)
    {r : Continuation} (hr : m.frame i = some r) :
    m'.frame i = some r ∨ (m.sched.currentThread = some i ∧ m.control = .resuming r ∧ a = .run) := by
  have hrest : m.sched.currentThread = some i → m.control.rest = some r := fun h => by
    rwa [frame_current h] at hr
  -- a thread that is not running keeps its saved context
  have hsaved : m.sched.currentThread ≠ some i →
      m'.sched.currentThread = m.sched.currentThread →
      (m'.sched.threads i).context = (m.sched.threads i).context → m'.frame i = some r := by
    intro hcur hsame hctx
    rw [frame_other (by rwa [hsame]), hctx]
    rwa [frame_other hcur] at hr
  have huser : m.control = .user → m.sched.currentThread ≠ some i := by
    intro hu hcur
    have hbad := hrest hcur
    rw [hu] at hbad; exact absurd hbad (by simp [Control.rest])
  have hresume : ∀ {rest}, m.control = .resuming rest → m.sched.currentThread = some i →
      m.control = .resuming r := by
    intro rest hc hcur
    have hr' := hrest hcur
    rw [hc] at hr'
    obtain rfl : rest = r := by simpa [Control.rest] using hr'
    exact hc
  cases he with
  | stutter => exact Or.inl hr
  | tick =>
      left
      by_cases hcur : m.sched.currentThread = some i
      · rw [frame_current (by exact hcur)]; exact hrest hcur
      · exact hsaved hcur rfl (by simp [kernelSchedulerTimerTick])
  | created hu hc hempty =>
      refine Or.inl (hsaved (huser hu) rfl (?_ : ((State.setThread _ _ _).threads i).context = _))
      have hne : i ≠ _ := fun h => hi (h ▸ hempty)
      simp [hne]
  | terminated hu hterm => exact Or.inl (hsaved (huser hu) rfl (survivors_context _ _ _))
  | joined ht hj =>
      by_cases hcur : m.sched.currentThread = some i
      · rcases ht with ⟨-, hu, -⟩ | ⟨ha, hc⟩
        · exact absurd hcur (huser hu)
        · exact Or.inr ⟨hcur, hresume hc hcur, ha⟩
      · exact Or.inl (hsaved hcur rfl (setThread_context rfl))
  | joinWaits ht hnot =>
      by_cases hcur : m.sched.currentThread = some i
      · rcases ht with ⟨-, hu, -⟩ | ⟨ha, hc⟩
        · exact absurd hcur (huser hu)
        · exact Or.inr ⟨hcur, hresume hc hcur, ha⟩
      · exact Or.inl (hsaved hcur rfl rfl)
  | prioritized hu hfind => exact Or.inl (hsaved (huser hu) rfl (setThread_context rfl))
  | signalled hu hsignal hfind =>
      exact Or.inl (hsaved (huser hu) rfl (setThread_context (signalled_context _ _)))
  | slept hu hcur hticks => exact Or.inl (hsaved (huser hu) rfl (setThread_context rfl))
  | futexBlocked hu hcur haddr hslot =>
      exact Or.inl (hsaved (huser hu) rfl (setThread_context (s := m.sched) rfl))
  | futexWoken hu haddr hfind hsplit =>
      exact Or.inl (hsaved (huser hu) rfl (wokenThreads_context _ _ _))
  | lockBlocked hu hcur hi hlocked hother =>
      exact Or.inl (hsaved (huser hu) rfl (setThread_context rfl))
  | unlockPassed hu hcur hi howner hnext =>
      exact Or.inl (hsaved (huser hu) rfl (setThread_context rfl))
  | exited hu hcur hc => exact Or.inl (hsaved (huser hu) rfl (setThread_context rfl))
  | @yieldReturned rest c hy hcur hstay =>
      left
      by_cases hic : m.sched.currentThread = some i
      · rw [frame_current (by simpa using hic)]
        have hr' := hrest hic
        rw [hy] at hr'; exact hr'
      · exact hsaved hic (by simp) (stayed_context hcur i)
  | @yieldSwitched rest c n hy hcur haway hne hrun =>
      left
      have hcur' := (yieldSwitch_others (yielded m.sched) c n rest).1
      by_cases hin : i = n
      · subst hin
        rw [frame_current hcur']
        have hci : m.sched.currentThread ≠ some i := by
          rw [hcur]; exact fun h => hne (Option.some.inj h).symm
        rwa [frame_other hci] at hr
      · rw [frame_other (by rw [hcur']; exact fun h => hin (Option.some.inj h).symm),
          switched_context hcur hne]
        by_cases hic : i = c
        · subst hic
          have hr' := hrest hcur
          rw [hy] at hr'; simpa [Control.rest] using hr'
        · rw [if_neg hic]
          rwa [frame_other (by rw [hcur]; exact fun h => hic (Option.some.inj h).symm)] at hr
  | started hc hcur =>
      by_cases hic : m.sched.currentThread = some i
      · exact Or.inr ⟨hic, hresume hc hic, rfl⟩
      · exact Or.inl (hsaved hic rfl (setThread_context (deliver_context _)))
  | badStart hc =>
      by_cases hic : m.sched.currentThread = some i
      · exact Or.inr ⟨hic, hresume hc hic, rfl⟩
      · exact Or.inl (hsaved hic rfl rfl)
  | resumed hc hplain =>
      by_cases hic : m.sched.currentThread = some i
      · exact Or.inr ⟨hic, hresume hc hic, rfl⟩
      · exact Or.inl (hsaved hic rfl rfl)
  | lockReturned hc =>
      by_cases hic : m.sched.currentThread = some i
      · exact Or.inr ⟨hic, hresume hc hic, rfl⟩
      · exact Or.inl (hsaved hic rfl rfl)
  | panicked hc =>
      by_cases hic : m.sched.currentThread = some i
      · exact Or.inr ⟨hic, hresume hc hic, rfl⟩
      · exact Or.inl (hsaved hic rfl rfl)
  | quiet hu hc => exact Or.inl (hsaved (huser hu) rfl rfl)
  | mutexCreated hu hi => exact Or.inl (hsaved (huser hu) rfl rfl)
  | lockTaken hu hcur hi hfree => exact Or.inl (hsaved (huser hu) rfl rfl)
  | lockHeld hu hcur hi hlocked howner => exact Or.inl (hsaved (huser hu) rfl rfl)
  | unlockFreed hu hcur hi howner hnext => exact Or.inl (hsaved (huser hu) rfl rfl)
  | yieldCalled hu => exact Or.inl (hsaved (huser hu) rfl rfl)

/-- The processor goes on with the same thread, or with one that was runnable. -/
theorem Effect.current_cases (he : Effect m a m') :
    m'.sched.currentThread = m.sched.currentThread ∨
      ∃ n rest, a = .run ∧ m.control = .yielding rest ∧ m'.sched.currentThread = some n ∧
        Runnable m.sched n := by
  cases he with
  | yieldReturned hy hcur hstay => exact Or.inl (by simp)
  | @yieldSwitched rest c n hy hcur haway hne hrun =>
      exact Or.inr ⟨n, rest, rfl, hy, (yieldSwitch_others (yielded m.sched) c n rest).1, hrun⟩
  | _ => exact Or.inl rfl

end Stays

end Scheduler
end UefiBoot
