import UefiBoot.Lib.Select
import UefiBoot.Scheduler.Process

/-!
# `Scheduler.Sync` — scheduling, sleeping, signals, futexes, mutexes and joins

A function that may block is cut at its call of `KernelSchedulerYield`. The part before the call returns a
`Reply`: either the function is `done`, or it `yields` with the continuation that holds its locals. The part
after the call is a function of its own (`kernelMutexLock` / `kernelMutexLockReturn`), run when the
continuation resumes; `Scheduler.Machine` puts the parts together.
-/

namespace UefiBoot
namespace Scheduler

/-- What a call of the scheduler does before it gives up the processor: return, or call `Yield`. -/
inductive Reply (ρ : Type) where
  | done (result : ρ)
  | yields (rest : Continuation)
  deriving DecidableEq

/-! ## Selection -/

/-- The sleeper loop of `FindNextRunnable` and `KernelSchedulerTimerTick`, on one thread. -/
def Thread.wake (tick : UInt64) (t : Thread) : Thread :=
  if t.state = .sleeping ∧ t.wakeTick ≤ tick then { t with state := .ready, wakeTick := 0 } else t

@[simps] def State.wakeSleepers (s : State) : State :=
  { s with threads := fun i => (s.threads i).wake s.schedulerTick }

/-- `FindNextRunnable`. -/
def findNextRunnable (s : State) : Option (Fin kMaxThreads) × State :=
  match s.currentThread with
  | none         => (none, s)
  | some current =>
    let s := s.wakeSleepers
    (Lib.pickBest (fun i => (s.threads i).state == .ready) (fun i => (s.threads i).priority.toNat)
      (Lib.cyclicAfter current), s)

/-- `DeliverSignals` on one thread. -/
def Thread.deliverSignals (t : Thread) : Thread :=
  if t.pendingSignals = 0 then t
  else { t with handledSignals := t.handledSignals ||| t.pendingSignals, pendingSignals := 0 }

/-- `DeliverSignals`. -/
@[simps] def deliverSignals (s : State) (i : Fin kMaxThreads) : State :=
  { s.setThread i (s.threads i).deliverSignals with
    signalsDelivered :=
      if (s.threads i).pendingSignals = 0 then s.signalsDelivered else s.signalsDelivered + 1 }

/-- `KernelSchedulerTimerTick`. -/
def kernelSchedulerTimerTick (s : State) : State :=
  { s with schedulerTick := s.schedulerTick + 1 }.wakeSleepers

/-- The first statements of `KernelSchedulerYield`: count the tick, deliver the caller's signals. -/
def yieldPrologue (s : State) : State :=
  let s := { s with schedulerTick := s.schedulerTick + 1 }
  match s.currentThread with
  | some c => deliverSignals s c
  | none   => s

/-- `KernelSchedulerYield` where it returns at once: a sleeping caller is made ready. -/
def yieldReturn (s : State) : State :=
  match s.currentThread with
  | none   => s
  | some c =>
    if (s.threads c).state = .sleeping
    then s.setThread c { s.threads c with state := .ready, wakeTick := 0 }
    else s

/-- `KernelSchedulerYield` where it switches from `previous` to `next`. `SchedulerContextSwitch` saves
    `rest` in the previous thread's context. -/
def yieldSwitch (s : State) (previous next : Fin kMaxThreads) (rest : Continuation) : State :=
  let s := if (s.threads previous).state = .running
    then s.setThread previous { s.threads previous with state := .ready } else s
  let s := s.setThread next { s.threads next with
    state := .running, runCount := (s.threads next).runCount + 1 }
  let s := deliverSignals { s with currentThread := some next } next
  s.setThread previous { s.threads previous with context := rest }

/-- `KernelSchedulerYield`, called by code that goes on as `rest`: the code that runs next and the state
    it runs in. -/
def kernelSchedulerYield (s : State) (rest : Continuation) : Continuation × State :=
  let (next, s) := findNextRunnable (yieldPrologue s)
  match s.currentThread, next with
  | some previous, some next =>
    if next = previous then (rest, yieldReturn s)
    else ((s.threads next).context, yieldSwitch s previous next rest)
  | _, _ => (rest, yieldReturn s)

/-! ## Priorities, sleeping, signals -/

/-- `KernelSetThreadPriority`. -/
def kernelSetThreadPriority (s : State) (threadId : UInt64) (priority : UInt8) : Bool × State :=
  match s.findThread threadId with
  | none   => (false, s)
  | some i =>
    if priority > kMaxThreadPriority then (false, s)
    else (true, s.setThread i { s.threads i with priority := priority })

/-- `KernelThreadSleep` up to its `Yield`. -/
def kernelThreadSleep (s : State) (ticks : UInt64) : Reply Unit × State :=
  match s.currentThread with
  | none   => (.done (), s)
  | some c =>
    if ticks = 0 then (.done (), s)
    else
      (.yields (.threadSleep (s.threads c).id ticks),
        s.setThread c { s.threads c with wakeTick := s.schedulerTick + ticks, state := .sleeping })

/-- What `KernelSendSignal` does to its target. -/
def Thread.signalled (t : Thread) (signal : UInt32) : Thread :=
  let t := { t with pendingSignals := t.pendingSignals ||| (1 <<< signal) }
  if t.state = .sleeping ∨ t.state = .blocked
  then { t with state := .ready, wakeTick := 0, waitingMutexId := 0 } else t

/-- `KernelSendSignal`. -/
def kernelSendSignal (s : State) (threadId : UInt64) (signal : UInt32) : Bool × State :=
  if signal ≥ 32 then (false, s)
  else
    match s.findThread threadId with
    | none   => (false, s)
    | some i => (true, s.setThread i ((s.threads i).signalled signal))

/-! ## Futexes -/

/-- The queue search of `KernelFutexWait`, one slot: a queue for the address wins over a free slot. -/
def futexCandidate (s : State) (address : UInt64) (queue : Option (Fin kMaxFutexes))
    (i : Fin kMaxFutexes) : Option (Fin kMaxFutexes) :=
  let queue := if (s.futexes i).active ∧ (s.futexes i).address = address then some i else queue
  if queue = none ∧ (s.futexes i).active = false then some i else queue

def findFutexSlot (s : State) (address : UInt64) : Option (Fin kMaxFutexes) :=
  (List.finRange kMaxFutexes).foldl (futexCandidate s address) none

/-- `KernelFutexWait` up to its `Yield`. `observed` is what the futex word holds at the call. -/
def kernelFutexWait (s : State) (address : UInt64) (expected observed : UInt32) : Reply Bool × State :=
  match s.currentThread with
  | none   => (.done false, s)
  | some c =>
    if address = 0 ∨ observed ≠ expected then (.done false, s)
    else
      match findFutexSlot s address with
      | none   => (.done false, s)
      | some i =>
        if kMaxThreads ≤ (s.futexes i).waitingThreads.length then (.done false, s)
        else
          let queue : FutexWaitQueue :=
            if (s.futexes i).active then s.futexes i
            else { address := address, waitingThreads := [], active := true }
          let s := s.setFutex i
            { queue with waitingThreads := queue.waitingThreads ++ [(s.threads c).id] }
          (.yields (.futexWait (s.threads c).id address expected),
            s.setThread c { s.threads c with state := .blocked })

/-- The `while` loop of `KernelFutexWake`: pop waiters from the front until `count` Blocked threads have
    been made Ready. Returns the number woken and the waiters that are left. -/
def futexWakeLoop (count : UInt32) : List UInt64 → UInt32 → State → (UInt32 × List UInt64) × State
  | [], woken, s => ((woken, []), s)
  | id :: rest, woken, s =>
    if woken < count then
      match s.findThread id with
      | some j =>
        if (s.threads j).state = .blocked
        then futexWakeLoop count rest (woken + 1) (s.setThread j { s.threads j with state := .ready })
        else futexWakeLoop count rest woken s
      | none => futexWakeLoop count rest woken s
    else ((woken, id :: rest), s)

/-- The queue `KernelFutexWake` works on. -/
def findFutex (s : State) (address : UInt64) : Option (Fin kMaxFutexes) :=
  Lib.firstSlot fun i => (s.futexes i).active && (s.futexes i).address == address

/-- `KernelFutexWake`. -/
def kernelFutexWake (s : State) (address : UInt64) (count : UInt32) : UInt32 × State :=
  if address = 0 ∨ count = 0 then (0, s)
  else
    match findFutex s address with
    | none   => (0, s)
    | some i =>
      let ((woken, left), s) := futexWakeLoop count (s.futexes i).waitingThreads 0 s
      (woken, s.setFutex i { s.futexes i with waitingThreads := left, active := !left.isEmpty })

/-! ## Mutexes -/

/-- `KernelMutexCreate`. -/
def kernelMutexCreate (s : State) : UInt64 × State :=
  match Lib.firstSlot (fun i => !(s.mutexes i).active) with
  | some i =>
    (s.nextMutexId,
      { s.setMutex i { id := s.nextMutexId, active := true, locked := false, ownerThreadId := 0 } with
        nextMutexId := s.nextMutexId + 1 })
  | none => (0, s)

/-- `KernelMutexLock` up to its `Yield`. -/
def kernelMutexLock (s : State) (mutexId : UInt64) : Reply Bool × State :=
  match s.findMutex mutexId, s.currentThread with
  | some i, some c =>
    if (s.mutexes i).locked = false then
      (.done true, s.setMutex i { s.mutexes i with locked := true, ownerThreadId := (s.threads c).id })
    else if (s.mutexes i).ownerThreadId = (s.threads c).id then (.done true, s)
    else
      (.yields (.mutexLock (s.threads c).id mutexId i),
        s.setThread c { s.threads c with state := .blocked, waitingMutexId := mutexId })
  | _, _ => (.done false, s)

/-- `KernelMutexLock` after its `Yield`. -/
def kernelMutexLockReturn (s : State) (mutex : Fin kMaxMutexes) : Bool :=
  (s.mutexes mutex).ownerThreadId == s.currentId

/-- The waiter scan of `KernelMutexUnlock`. -/
def nextOwner (s : State) (mutexId : UInt64) : Option (Fin kMaxThreads) :=
  Lib.pickBest (fun j => (s.threads j).state == .blocked && (s.threads j).waitingMutexId == mutexId)
    (fun j => (s.threads j).priority.toNat) (List.finRange kMaxThreads)

/-- `KernelMutexUnlock`. -/
def kernelMutexUnlock (s : State) (mutexId : UInt64) : Bool × State :=
  match s.findMutex mutexId, s.currentThread with
  | some i, some c =>
    if (s.mutexes i).ownerThreadId ≠ (s.threads c).id then (false, s)
    else
      match nextOwner s mutexId with
      | some j =>
        (true, (s.setThread j { s.threads j with state := .ready, waitingMutexId := 0 }).setMutex i
          { s.mutexes i with ownerThreadId := (s.threads j).id })
      | none =>
        (true, s.setMutex i { s.mutexes i with locked := false, ownerThreadId := 0 })
  | _, _ => (false, s)

/-! ## Joining and leaving -/

/-- The loop of `KernelPthreadJoin`: test the slot, then `Yield` or empty it. -/
def pthreadJoinLoop (s : State) (caller threadId : UInt64) (thread : Fin kMaxThreads) :
    Reply Bool × State :=
  if (s.threads thread).state ≠ .finished then (.yields (.pthreadJoin caller threadId thread), s)
  else (.done true, s.setThread thread { s.threads thread with state := .empty })

/-- `KernelPthreadJoin` up to its first `Yield`. -/
def kernelPthreadJoin (s : State) (threadId : UInt64) : Reply Bool × State :=
  match s.findThread threadId with
  | none   => (.done false, s)
  | some i =>
    if s.currentThread = some i then (.done false, s)
    else pthreadJoinLoop s s.currentId threadId i

end Scheduler
end UefiBoot
