import UefiBoot.Scheduler.Sync

/-!
# `Scheduler.Yield` — what `Yield` and the small thread updates leave of a thread

Field by field lemmas for the thread updates of `Scheduler.Sync`, and `yield_cases`: from a state with a
current thread, `KernelSchedulerYield` either returns at once or switches, and it switches exactly when
`SwitchesAway` holds before the call.
-/

namespace UefiBoot
namespace Scheduler

/-! ## Live slots and thread ids -/

/-- The slot counts for identity: it holds a thread, or the running code. A thread that terminated its own
    process runs on in an empty slot. -/
def Live (s : State) (i : Fin kMaxThreads) : Prop :=
  (s.threads i).state ≠ .empty ∨ s.currentThread = some i

/-- No two live slots carry the same thread id. -/
def IdsDistinct (s : State) : Prop :=
  ∀ i j, Live s i → Live s j → (s.threads i).id = (s.threads j).id → i = j

theorem IdsDistinct.findThread {s : State} (h : IdsDistinct s) {j : Fin kMaxThreads}
    (hj : (s.threads j).state ≠ .empty) : s.findThread (s.threads j).id = some j := by
  refine Lib.firstSlot_unique (by simpa using hj) fun k hk => ?_
  have hk' : (s.threads k).state ≠ .empty ∧ (s.threads k).id = (s.threads j).id := by simpa using hk
  exact h k j (Or.inl hk'.1) (Or.inl hj) hk'.2

/-- The thread can run at the next `Yield` or tick: it is ready, or its wake-up time will have come. -/
def Runnable (s : State) (j : Fin kMaxThreads) : Prop :=
  (s.threads j).state = .ready ∨
    ((s.threads j).state = .sleeping ∧ (s.threads j).wakeTick ≤ s.schedulerTick + 1)

instance (s : State) (j : Fin kMaxThreads) : Decidable (Runnable s j) :=
  inferInstanceAs (Decidable (_ ∨ _))

/-- A `Yield` of the current thread hands the processor to another one: some other thread can run, and if
    the current one could go on, the other has at least its priority. -/
def SwitchesAway (s : State) : Prop :=
  ∃ c j, s.currentThread = some c ∧ j ≠ c ∧ Runnable s j ∧
    (Runnable s c → (s.threads c).priority ≤ (s.threads j).priority)

/-- The threads after `KernelFutexWake` popped the ids `popped`: the Blocked ones among them are Ready. -/
def State.wokenThreads (s : State) (popped : List UInt64) (j : Fin kMaxThreads) : Thread :=
  if (s.threads j).state = .blocked ∧ (s.threads j).id ∈ popped
  then { s.threads j with state := .ready } else s.threads j

/-- The threads after `KernelTerminateProcess`. -/
def State.survivors (s : State) (processId : UInt64) (j : Fin kMaxThreads) : Thread :=
  if (s.threads j).state ≠ .empty ∧ (s.threads j).processId = processId
  then (s.threads j).terminated else s.threads j

theorem wake_state_eq_ready {tick : UInt64} {t : Thread} :
    (t.wake tick).state = .ready ↔ t.state = .ready ∨ (t.state = .sleeping ∧ t.wakeTick ≤ tick) := by
  unfold Thread.wake
  by_cases h : t.state = .sleeping ∧ t.wakeTick ≤ tick
  · simp [h]
  · simp only [h, if_false, or_false]

@[simp] theorem wake_priority (tick : UInt64) (t : Thread) : (t.wake tick).priority = t.priority := by
  unfold Thread.wake; split <;> rfl
@[simp] theorem wake_id (tick : UInt64) (t : Thread) : (t.wake tick).id = t.id := by
  unfold Thread.wake; split <;> rfl
@[simp] theorem wake_context (tick : UInt64) (t : Thread) : (t.wake tick).context = t.context := by
  unfold Thread.wake; split <;> rfl
@[simp] theorem wake_waitingMutexId (tick : UInt64) (t : Thread) :
    (t.wake tick).waitingMutexId = t.waitingMutexId := by
  unfold Thread.wake; split <;> rfl
@[simp] theorem wake_processId (tick : UInt64) (t : Thread) :
    (t.wake tick).processId = t.processId := by
  unfold Thread.wake; split <;> rfl

@[simp] theorem deliver_state (t : Thread) : t.deliverSignals.state = t.state := by
  unfold Thread.deliverSignals; split <;> rfl
@[simp] theorem deliver_priority (t : Thread) : t.deliverSignals.priority = t.priority := by
  unfold Thread.deliverSignals; split <;> rfl
@[simp] theorem deliver_id (t : Thread) : t.deliverSignals.id = t.id := by
  unfold Thread.deliverSignals; split <;> rfl
@[simp] theorem deliver_context (t : Thread) : t.deliverSignals.context = t.context := by
  unfold Thread.deliverSignals; split <;> rfl
@[simp] theorem deliver_wakeTick (t : Thread) : t.deliverSignals.wakeTick = t.wakeTick := by
  unfold Thread.deliverSignals; split <;> rfl
@[simp] theorem deliver_waitingMutexId (t : Thread) :
    t.deliverSignals.waitingMutexId = t.waitingMutexId := by
  unfold Thread.deliverSignals; split <;> rfl
@[simp] theorem deliver_processId (t : Thread) : t.deliverSignals.processId = t.processId := by
  unfold Thread.deliverSignals; split <;> rfl

/-! ## `Yield` -/

/-- The state in which `KernelSchedulerYield` decides: tick counted, signals delivered, sleepers woken. -/
def yielded (s : State) : State := (yieldPrologue s).wakeSleepers

section Yielded

variable {s : State} {c : Fin kMaxThreads}

@[simp] theorem yieldPrologue_tick (s : State) :
    (yieldPrologue s).schedulerTick = s.schedulerTick + 1 := by
  unfold yieldPrologue; dsimp only; split <;> rfl

@[simp] theorem yielded_tick (s : State) : (yielded s).schedulerTick = s.schedulerTick + 1 := by
  simp [yielded]

@[simp] theorem yielded_currentThread (s : State) : (yielded s).currentThread = s.currentThread := by
  unfold yielded yieldPrologue; dsimp only; split <;> rfl

@[simp] theorem yielded_mutexes (s : State) : (yielded s).mutexes = s.mutexes := by
  unfold yielded yieldPrologue; dsimp only; split <;> rfl

@[simp] theorem yielded_futexes (s : State) : (yielded s).futexes = s.futexes := by
  unfold yielded yieldPrologue; dsimp only; split <;> rfl

@[simp] theorem yielded_processes (s : State) : (yielded s).processes = s.processes := by
  unfold yielded yieldPrologue; dsimp only; split <;> rfl

@[simp] theorem yielded_nextThreadId (s : State) : (yielded s).nextThreadId = s.nextThreadId := by
  unfold yielded yieldPrologue; dsimp only; split <;> rfl

@[simp] theorem yielded_nextMutexId (s : State) : (yielded s).nextMutexId = s.nextMutexId := by
  unfold yielded yieldPrologue; dsimp only; split <;> rfl

@[simp] theorem yielded_heap (s : State) : (yielded s).heap = s.heap := by
  unfold yielded yieldPrologue; dsimp only; split <;> rfl

/-- A thread after the first half of `Yield`. -/
theorem yielded_threads (hc : s.currentThread = some c) (j : Fin kMaxThreads) :
    (yielded s).threads j =
      (if j = c then (s.threads j).deliverSignals else s.threads j).wake (s.schedulerTick + 1) := by
  unfold yielded yieldPrologue
  simp only [hc, State.wakeSleepers_threads, deliverSignals_threads, State.setThread_threads,
    Function.update_apply, deliverSignals_schedulerTick, State.setThread_schedulerTick]
  by_cases h : j = c
  · subst h; simp
  · simp [h]

variable (hc : s.currentThread = some c) (j : Fin kMaxThreads)
include hc

theorem yielded_id : ((yielded s).threads j).id = (s.threads j).id := by
  rw [yielded_threads hc]; split <;> simp
theorem yielded_context : ((yielded s).threads j).context = (s.threads j).context := by
  rw [yielded_threads hc]; split <;> simp
theorem yielded_priority : ((yielded s).threads j).priority = (s.threads j).priority := by
  rw [yielded_threads hc]; split <;> simp
theorem yielded_processId : ((yielded s).threads j).processId = (s.threads j).processId := by
  rw [yielded_threads hc]; split <;> simp
theorem yielded_waitingMutexId :
    ((yielded s).threads j).waitingMutexId = (s.threads j).waitingMutexId := by
  rw [yielded_threads hc]; split <;> simp

/-- The first half of `Yield` changes the state of due sleepers only. -/
theorem yielded_state : ((yielded s).threads j).state =
    if (s.threads j).state = .sleeping ∧ (s.threads j).wakeTick ≤ s.schedulerTick + 1
    then .ready else (s.threads j).state := by
  rw [yielded_threads hc]
  unfold Thread.wake
  by_cases h : j = c <;> simp only [h, if_true, if_false, deliver_state, deliver_wakeTick] <;>
    split <;> simp_all

theorem yielded_wakeTick : ((yielded s).threads j).wakeTick =
    if (s.threads j).state = .sleeping ∧ (s.threads j).wakeTick ≤ s.schedulerTick + 1
    then 0 else (s.threads j).wakeTick := by
  rw [yielded_threads hc]
  unfold Thread.wake
  by_cases h : j = c <;> simp only [h, if_true, if_false, deliver_state, deliver_wakeTick] <;>
    split <;> simp_all

theorem yielded_state_eq_ready : ((yielded s).threads j).state = .ready ↔ Runnable s j := by
  rw [yielded_state hc, Runnable]
  split <;> rename_i h
  · simp [h]
  · simp [h]

end Yielded

/-- The scan of `FindNextRunnable` from slot `c`. -/
def nextReady (s : State) (c : Fin kMaxThreads) : Option (Fin kMaxThreads) :=
  Lib.pickBest (fun i => (s.threads i).state == .ready) (fun i => (s.threads i).priority.toNat) (Lib.cyclicAfter c)

theorem findNextRunnable_yieldPrologue {s : State} {c : Fin kMaxThreads} (hc : s.currentThread = some c) :
    findNextRunnable (yieldPrologue s) = (nextReady (yielded s) c, yielded s) := by
  have hcur : (yieldPrologue s).currentThread = some c := by
    have h := yielded_currentThread s
    rw [hc] at h; exact h
  have hfold : (yieldPrologue s).wakeSleepers = yielded s := rfl
  unfold findNextRunnable nextReady
  simp only [hcur, hfold]

/-- `Yield` switches to the thread that the scan finds, if it is another one. -/
theorem yield_switches {s : State} {c n : Fin kMaxThreads} (hc : s.currentThread = some c) (rest : Continuation)
    (hpick : nextReady (yielded s) c = some n) (hne : n ≠ c) :
    kernelSchedulerYield s rest = ((s.threads n).context, yieldSwitch (yielded s) c n rest) := by
  have hcur : (yielded s).currentThread = some c := (yielded_currentThread s).trans hc
  simp only [kernelSchedulerYield, findNextRunnable_yieldPrologue hc, hpick, hcur, hne, if_false, yielded_context hc]

/-- **The two ways through `Yield`.** -/
theorem yield_cases {s : State} {c : Fin kMaxThreads} (hc : s.currentThread = some c)
    (rest : Continuation) :
    (¬ SwitchesAway s ∧ kernelSchedulerYield s rest = (rest, yieldReturn (yielded s))) ∨
    (SwitchesAway s ∧ ∃ n, n ≠ c ∧ Runnable s n ∧
      kernelSchedulerYield s rest
        = ((s.threads n).context, yieldSwitch (yielded s) c n rest)) := by
  have hsel : SwitchesAway s ↔ ∃ n, nextReady (yielded s) c = some n ∧ n ≠ c := by
    unfold nextReady
    rw [Lib.pickBest_cyclicAfter_ne]
    simp only [beq_iff_eq, yielded_state_eq_ready hc, yielded_priority hc, SwitchesAway, hc,
      Option.some.injEq, UInt8.le_iff_toNat_le]
    constructor
    · rintro ⟨c', j, rfl, h⟩; exact ⟨j, h⟩
    · rintro ⟨j, h⟩; exact ⟨c, j, rfl, h⟩
  have hnext := findNextRunnable_yieldPrologue hc
  have hcur : (yielded s).currentThread = some c := (yielded_currentThread s).trans hc
  cases hpick : nextReady (yielded s) c with
  | none =>
      refine Or.inl ⟨fun h => ?_, by simp only [kernelSchedulerYield, hnext, hpick, hcur]⟩
      obtain ⟨n, hn, -⟩ := hsel.mp h
      rw [hpick] at hn; exact absurd hn (by simp)
  | some n =>
      by_cases hnc : n = c
      · refine Or.inl ⟨fun h => ?_, by simp only [kernelSchedulerYield, hnext, hpick, hcur, hnc, if_true]⟩
        obtain ⟨n', hn', hne⟩ := hsel.mp h
        rw [hpick] at hn'
        exact hne ((Option.some.inj hn').symm.trans hnc)
      · have hready : ((yielded s).threads n).state = .ready := by simpa using Lib.pickBest_ok hpick
        exact Or.inr ⟨hsel.mpr ⟨n, hpick, hnc⟩, n, hnc, (yielded_state_eq_ready hc n).mp hready,
          yield_switches hc rest hpick hnc⟩

/-! ### `Yield` that returns at once -/

section YieldReturn

variable {s : State} {c : Fin kMaxThreads}

@[simp] theorem yieldReturn_others (s : State) :
    (yieldReturn s).currentThread = s.currentThread ∧ (yieldReturn s).mutexes = s.mutexes ∧
    (yieldReturn s).futexes = s.futexes ∧ (yieldReturn s).processes = s.processes ∧
    (yieldReturn s).nextThreadId = s.nextThreadId ∧ (yieldReturn s).nextMutexId = s.nextMutexId ∧
    (yieldReturn s).heap = s.heap ∧ (yieldReturn s).schedulerTick = s.schedulerTick := by
  unfold yieldReturn
  split
  · simp
  · split <;> exact ⟨rfl, rfl, rfl, rfl, rfl, rfl, rfl, rfl⟩

theorem yieldReturn_threads (hc : s.currentThread = some c) (j : Fin kMaxThreads) :
    (yieldReturn s).threads j =
      if j = c ∧ (s.threads c).state = .sleeping
      then { s.threads c with state := .ready, wakeTick := 0 } else s.threads j := by
  unfold yieldReturn
  simp only [hc]
  by_cases hs : (s.threads c).state = .sleeping
  · by_cases hj : j = c <;> simp [hs, hj]
  · simp [hs]

end YieldReturn

/-! ### `Yield` that switches -/

section YieldSwitch

variable {s : State} {c n : Fin kMaxThreads} {rest : Continuation}

theorem yieldSwitch_others (s : State) (c n : Fin kMaxThreads) (rest : Continuation) :
    (yieldSwitch s c n rest).currentThread = some n ∧ (yieldSwitch s c n rest).mutexes = s.mutexes ∧
    (yieldSwitch s c n rest).futexes = s.futexes ∧ (yieldSwitch s c n rest).processes = s.processes ∧
    (yieldSwitch s c n rest).nextThreadId = s.nextThreadId ∧
    (yieldSwitch s c n rest).nextMutexId = s.nextMutexId ∧ (yieldSwitch s c n rest).heap = s.heap ∧
    (yieldSwitch s c n rest).schedulerTick = s.schedulerTick := by
  unfold yieldSwitch
  dsimp only
  split <;> exact ⟨rfl, rfl, rfl, rfl, rfl, rfl, rfl, rfl⟩

/-- What the switch leaves of each thread. -/
theorem yieldSwitch_threads (hne : n ≠ c) (j : Fin kMaxThreads) :
    (yieldSwitch s c n rest).threads j =
      if j = c then { s.threads c with
        state := if (s.threads c).state = .running then .ready else (s.threads c).state
        context := rest }
      else if j = n then Thread.deliverSignals { s.threads n with
        state := .running, runCount := (s.threads n).runCount + 1 }
      else s.threads j := by
  unfold yieldSwitch
  by_cases hr : (s.threads c).state = .running
  · by_cases hj : j = c
    · subst hj
      simp [hr, hne, Ne.symm hne]
    · by_cases hjn : j = n
      · subst hjn
        simp [hr, Function.update_apply, hne]
      · simp [hr, Function.update_apply, hj, hjn]
  · by_cases hj : j = c
    · subst hj
      simp [hr, Ne.symm hne]
    · by_cases hjn : j = n
      · subst hjn
        simp [hr, Function.update_apply, hne]
      · simp [hr, Function.update_apply, hj, hjn]

end YieldSwitch

/-! ## The threads after a `Yield`, field by field -/

/-- The state of a thread after a `Yield` that returned at once. -/
def stayedState (s : State) (c j : Fin kMaxThreads) : ThreadState :=
  if Runnable s j ∧ (s.threads j).state = .sleeping then .ready
  else if j = c ∧ (s.threads c).state = .sleeping then .ready
  else (s.threads j).state

/-- The state of a thread after a `Yield` from `c` to `n`. -/
def switchedState (s : State) (c n j : Fin kMaxThreads) : ThreadState :=
  if j = n then .running
  else if Runnable s j ∨ (j = c ∧ (s.threads c).state = .running) then .ready
  else (s.threads j).state

section Stayed

variable {s : State} {c : Fin kMaxThreads} (hc : s.currentThread = some c) (j : Fin kMaxThreads)
include hc

theorem stayed_threads : (yieldReturn (yielded s)).threads j =
    if j = c ∧ ((yielded s).threads c).state = .sleeping
    then { (yielded s).threads c with state := .ready, wakeTick := 0 } else (yielded s).threads j :=
  yieldReturn_threads (by rw [yielded_currentThread, hc]) j

theorem stayed_id : ((yieldReturn (yielded s)).threads j).id = (s.threads j).id := by
  rw [stayed_threads hc, ← yielded_id hc]; split
  · rename_i h; rw [h.1]
  · rfl
theorem stayed_context : ((yieldReturn (yielded s)).threads j).context = (s.threads j).context := by
  rw [stayed_threads hc, ← yielded_context hc]; split
  · rename_i h; rw [h.1]
  · rfl
theorem stayed_waitingMutexId :
    ((yieldReturn (yielded s)).threads j).waitingMutexId = (s.threads j).waitingMutexId := by
  rw [stayed_threads hc, ← yielded_waitingMutexId hc]; split
  · rename_i h; rw [h.1]
  · rfl
theorem stayed_processId :
    ((yieldReturn (yielded s)).threads j).processId = (s.threads j).processId := by
  rw [stayed_threads hc, ← yielded_processId hc]; split
  · rename_i h; rw [h.1]
  · rfl

theorem stayed_state : ((yieldReturn (yielded s)).threads j).state = stayedState s c j := by
  rw [stayed_threads hc, stayedState, yielded_state hc c]
  by_cases hj : j = c
  · subst hj
    by_cases hs : (s.threads j).state = .sleeping
    · by_cases hw : (s.threads j).wakeTick ≤ s.schedulerTick + 1 <;>
        simp [hs, hw, Runnable, yielded_state hc]
    · simp [hs, yielded_state hc]
  · by_cases hs : (s.threads j).state = .sleeping
    · by_cases hw : (s.threads j).wakeTick ≤ s.schedulerTick + 1 <;>
        simp [hj, hs, hw, Runnable, yielded_state hc]
    · simp [hj, hs, yielded_state hc]

theorem stayed_wakeTick : ((yieldReturn (yielded s)).threads j).wakeTick =
    if (s.threads j).state = .sleeping ∧ ((yieldReturn (yielded s)).threads j).state = .ready then 0
    else (s.threads j).wakeTick := by
  rw [stayed_state hc, stayedState, stayed_threads hc, yielded_state hc c]
  by_cases hs : (s.threads j).state = .sleeping
  · by_cases hw : (s.threads j).wakeTick ≤ s.schedulerTick + 1
    · by_cases hj : j = c
      · subst hj; simp [hs, hw, Runnable, yielded_wakeTick hc]
      · simp [hs, hw, hj, Runnable, yielded_wakeTick hc]
    · by_cases hj : j = c
      · subst hj; simp [hs, hw, Runnable]
      · simp [hs, hw, hj, Runnable, yielded_wakeTick hc]
  · by_cases hj : j = c
    · subst hj; simp [hs, yielded_wakeTick hc]
    · simp [hs, hj, yielded_wakeTick hc]

end Stayed

section Switched

variable {s : State} {c n : Fin kMaxThreads} {rest : Continuation} (hc : s.currentThread = some c)
  (hne : n ≠ c) (j : Fin kMaxThreads)
include hc hne

theorem switched_id :
    ((yieldSwitch (yielded s) c n rest).threads j).id = (s.threads j).id := by
  rw [yieldSwitch_threads hne, ← yielded_id hc]
  split
  · rename_i h; rw [h]
  · split
    · rename_i h; rw [h, deliver_id]
    · rfl
theorem switched_context : ((yieldSwitch (yielded s) c n rest).threads j).context =
    if j = c then rest else (s.threads j).context := by
  rw [yieldSwitch_threads hne, ← yielded_context hc]
  split
  · rfl
  · split
    · rename_i h; rw [h, deliver_context]
    · rfl
theorem switched_waitingMutexId : ((yieldSwitch (yielded s) c n rest).threads j).waitingMutexId =
    (s.threads j).waitingMutexId := by
  rw [yieldSwitch_threads hne, ← yielded_waitingMutexId hc]
  split
  · rename_i h; rw [h]
  · split
    · rename_i h; rw [h, deliver_waitingMutexId]
    · rfl
theorem switched_processId :
    ((yieldSwitch (yielded s) c n rest).threads j).processId = (s.threads j).processId := by
  rw [yieldSwitch_threads hne, ← yielded_processId hc]
  split
  · rename_i h; rw [h]
  · split
    · rename_i h; rw [h, deliver_processId]
    · rfl

theorem switched_priority :
    ((yieldSwitch (yielded s) c n rest).threads j).priority = (s.threads j).priority := by
  rw [yieldSwitch_threads hne, ← yielded_priority hc]
  split
  · rename_i h; rw [h]
  · split
    · rename_i h; rw [h, deliver_priority]
    · rfl

theorem switched_state :
    ((yieldSwitch (yielded s) c n rest).threads j).state = switchedState s c n j := by
  have hready : ∀ k, ((yielded s).threads k).state
      = if Runnable s k then .ready else (s.threads k).state := by
    intro k
    rw [yielded_state hc]
    by_cases hk : (s.threads k).state = .ready
    · simp [Runnable, hk]
    · simp [Runnable, hk]
  rw [yieldSwitch_threads hne, switchedState]
  by_cases hj : j = c
  · subst hj
    simp only [hready, if_true, true_and, Ne.symm hne, if_false]
    by_cases hr : Runnable s j
    · simp [hr]
    · by_cases hs : (s.threads j).state = .running <;> simp [hr, hs]
  · by_cases hjn : j = n
    · subst hjn; simp [hj]
    · simp [hj, hjn, hready]

theorem switched_wakeTick : ((yieldSwitch (yielded s) c n rest).threads j).wakeTick =
    if (s.threads j).state = .sleeping ∧ Runnable s j then 0 else (s.threads j).wakeTick := by
  have hwake : ((yielded s).threads j).wakeTick =
      if (s.threads j).state = .sleeping ∧ Runnable s j then 0 else (s.threads j).wakeTick := by
    rw [yielded_wakeTick hc]
    by_cases hs : (s.threads j).state = .sleeping
    · simp [hs, Runnable]
    · simp [hs]
  rw [← hwake, yieldSwitch_threads hne]
  split
  · rename_i h; rw [h]
  · split
    · rename_i h; rw [h, deliver_wakeTick]
    · rfl

end Switched

/-! ## The other threads of a call, field by field -/

section Survivors

variable (s : State) (pid : UInt64) (j : Fin kMaxThreads)

@[simp] theorem survivors_id : (s.survivors pid j).id = (s.threads j).id := by
  unfold State.survivors; split <;> rfl
@[simp] theorem survivors_context : (s.survivors pid j).context = (s.threads j).context := by
  unfold State.survivors; split <;> rfl
@[simp] theorem survivors_waitingMutexId :
    (s.survivors pid j).waitingMutexId = (s.threads j).waitingMutexId := by
  unfold State.survivors; split <;> rfl
theorem survivors_state : (s.survivors pid j).state =
    if (s.threads j).processId = pid then .empty else (s.threads j).state := by
  unfold State.survivors
  by_cases hp : (s.threads j).processId = pid
  · by_cases he : (s.threads j).state = .empty <;> simp [hp, he, Thread.terminated]
  · simp [hp]

end Survivors

section Woken

variable (s : State) (popped : List UInt64) (j : Fin kMaxThreads)

@[simp] theorem wokenThreads_id : (s.wokenThreads popped j).id = (s.threads j).id := by
  unfold State.wokenThreads; split <;> rfl
@[simp] theorem wokenThreads_context :
    (s.wokenThreads popped j).context = (s.threads j).context := by
  unfold State.wokenThreads; split <;> rfl
@[simp] theorem wokenThreads_waitingMutexId :
    (s.wokenThreads popped j).waitingMutexId = (s.threads j).waitingMutexId := by
  unfold State.wokenThreads; split <;> rfl
@[simp] theorem wokenThreads_wakeTick :
    (s.wokenThreads popped j).wakeTick = (s.threads j).wakeTick := by
  unfold State.wokenThreads; split <;> rfl
theorem wokenThreads_state : (s.wokenThreads popped j).state =
    if (s.threads j).state = .blocked ∧ (s.threads j).id ∈ popped then .ready
    else (s.threads j).state := by
  unfold State.wokenThreads; split <;> rfl

end Woken

section Signalled

variable (t : Thread) (signal : UInt32)

@[simp] theorem signalled_id : (t.signalled signal).id = t.id := by
  unfold Thread.signalled; dsimp only; split <;> rfl
@[simp] theorem signalled_context : (t.signalled signal).context = t.context := by
  unfold Thread.signalled; dsimp only; split <;> rfl
theorem signalled_state : (t.signalled signal).state =
    if t.state = .sleeping ∨ t.state = .blocked then .ready else t.state := by
  unfold Thread.signalled; dsimp only; split <;> rfl
theorem signalled_waitingMutexId : (t.signalled signal).waitingMutexId =
    if t.state = .sleeping ∨ t.state = .blocked then 0 else t.waitingMutexId := by
  unfold Thread.signalled; dsimp only; split <;> rfl
theorem signalled_wakeTick : (t.signalled signal).wakeTick =
    if t.state = .sleeping ∨ t.state = .blocked then 0 else t.wakeTick := by
  unfold Thread.signalled; dsimp only; split <;> rfl

end Signalled

end Scheduler
end UefiBoot
