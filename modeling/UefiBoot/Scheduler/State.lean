import Mathlib.Tactic
import UefiBoot.Lib.Select
import UefiBoot.Memory.Heap

/-!
# `Scheduler.State` — the tables of `scheduler.cpp`

One record per C struct and one field per global. Slots of a table are `Fin` indices, so a `Thread*` into
`g_Threads` is an index, and a table is a function from slots; a C array with a length field next to it
(futex waiters, epoll watches) is the list of its used part.

A suspended thread is its saved `ThreadContext`. What matters of it is the code it will run when
`SchedulerContextSwitch` resumes it, and that is a `Continuation`: the entry into `ThreadTrampoline` of a
fresh context, or the return from the `KernelSchedulerYield` call it was suspended in, with the locals that
the rest of that function reads. `caller` is the id the thread had when it made the call; the code does
not keep it, it is there so that a statement can speak of the caller.
-/

namespace UefiBoot
namespace Scheduler

abbrev kMaxProcesses : Nat := 64
abbrev kMaxThreads : Nat := 128
abbrev kIpcQueueSize : Nat := 8
abbrev kMaxMutexes : Nat := 8
abbrev kMaxFutexes : Nat := 8
abbrev kMaxEventObjects : Nat := 16
abbrev kMaxEpollWatches : Nat := 8
def kThreadStackSize : UInt64 := 8192
def kKernelProcessId : UInt64 := 1
def kDefaultThreadPriority : UInt8 := 8
def kMaxThreadPriority : UInt8 := 31

instance : NeZero kMaxThreads := ⟨by decide⟩
instance : NeZero kIpcQueueSize := ⟨by decide⟩

inductive ThreadState where
  | empty
  | ready
  | running
  | sleeping
  | blocked
  | finished
  deriving DecidableEq, Repr

/-- The code a suspended thread resumes: a fresh `ThreadTrampoline`, or the rest of the function that
    called `KernelSchedulerYield`. -/
inductive Continuation where
  | trampoline
  | schedulerYield (caller : UInt64)
  | threadSleep (caller ticks : UInt64)
  | futexWait (caller address : UInt64) (expected : UInt32)
  | mutexLock (caller mutexId : UInt64) (mutex : Fin kMaxMutexes)
  | pthreadJoin (caller threadId : UInt64) (thread : Fin kMaxThreads)
  /-- `ThreadTrampoline` after its entry function returned: the `Yield` that must not come back. -/
  | exited (caller : UInt64)
  deriving DecidableEq, Repr

structure Process where
  id       : UInt64 := 0
  name     : Option String := none
  active   : Bool := false
  ipcQueue : Fin kIpcQueueSize → UInt64 := fun _ => 0
  ipcHead  : UInt64 := 0
  ipcTail  : UInt64 := 0
  ipcCount : UInt64 := 0

structure Thread where
  id             : UInt64 := 0
  processId      : UInt64 := 0
  name           : Option String := none
  state          : ThreadState := .empty
  context        : Continuation := .trampoline
  stackBase      : UInt64 := 0
  stackSize      : UInt64 := 0
  entry          : UInt64 := 0
  argument       : UInt64 := 0
  runCount       : UInt64 := 0
  wakeTick       : UInt64 := 0
  pendingSignals : UInt32 := 0
  handledSignals : UInt32 := 0
  priority       : UInt8 := 0
  waitingMutexId : UInt64 := 0
  deriving DecidableEq, Repr

structure KernelMutex where
  id            : UInt64 := 0
  active        : Bool := false
  locked        : Bool := false
  ownerThreadId : UInt64 := 0
  deriving DecidableEq, Repr

/-- `waitingThreads` is `waiting_threads[0 .. waiter_count)`. -/
structure FutexWaitQueue where
  address        : UInt64 := 0
  waitingThreads : List UInt64 := []
  active         : Bool := false
  deriving DecidableEq, Repr

inductive EventObjectType where
  | empty
  | epoll
  | event
  | timer
  deriving DecidableEq, Repr

/-- `watches` is `watches[0 .. watch_count)`. -/
structure EventObject where
  fd       : Int32 := 0
  type     : EventObjectType := .empty
  value    : UInt64 := 0
  deadline : UInt64 := 0
  interval : UInt64 := 0
  watches  : List Int32 := []
  deriving DecidableEq

/-- The globals of `scheduler.cpp`, and the kernel heap its stacks come from. -/
structure State where
  processes        : Fin kMaxProcesses → Process := fun _ => {}
  threads          : Fin kMaxThreads → Thread := fun _ => {}
  mutexes          : Fin kMaxMutexes → KernelMutex := fun _ => {}
  futexes          : Fin kMaxFutexes → FutexWaitQueue := fun _ => {}
  eventObjects     : Fin kMaxEventObjects → EventObject := fun _ => {}
  currentThread    : Option (Fin kMaxThreads) := none
  nextProcessId    : UInt64 := kKernelProcessId
  nextThreadId     : UInt64 := 1
  nextMutexId      : UInt64 := 1
  schedulerTick    : UInt64 := 0
  signalsDelivered : UInt64 := 0
  nextEventFd      : Int32 := 32
  heap             : KernelHeap := {}

/-! ## Table updates -/

namespace State

@[simps] def setProcess (s : State) (i : Fin kMaxProcesses) (p : Process) : State :=
  { s with processes := Function.update s.processes i p }

@[simps] def setThread (s : State) (i : Fin kMaxThreads) (t : Thread) : State :=
  { s with threads := Function.update s.threads i t }

@[simps] def setMutex (s : State) (i : Fin kMaxMutexes) (m : KernelMutex) : State :=
  { s with mutexes := Function.update s.mutexes i m }

@[simps] def setFutex (s : State) (i : Fin kMaxFutexes) (q : FutexWaitQueue) : State :=
  { s with futexes := Function.update s.futexes i q }

@[simps] def setEventObject (s : State) (i : Fin kMaxEventObjects) (o : EventObject) : State :=
  { s with eventObjects := Function.update s.eventObjects i o }

/-- The id of `g_CurrentThread`; 0 when it is null. -/
def currentId (s : State) : UInt64 :=
  match s.currentThread with
  | some c => (s.threads c).id
  | none   => 0

/-! ## Lookups -/

/-- `FindProcess`. -/
def findProcess (s : State) (id : UInt64) : Option (Fin kMaxProcesses) :=
  Lib.firstSlot fun i => (s.processes i).active && (s.processes i).id == id

/-- `FindThreadSlot`. -/
def findThreadSlot (s : State) : Option (Fin kMaxThreads) :=
  Lib.firstSlot fun i => (s.threads i).state == .empty

/-- `FindThread`. -/
def findThread (s : State) (id : UInt64) : Option (Fin kMaxThreads) :=
  Lib.firstSlot fun i => (s.threads i).state != .empty && (s.threads i).id == id

/-- `FindMutex`. -/
def findMutex (s : State) (id : UInt64) : Option (Fin kMaxMutexes) :=
  Lib.firstSlot fun i => (s.mutexes i).active && (s.mutexes i).id == id

/-- `FindEventObject`. -/
def findEventObject (s : State) (fd : Int32) : Option (Fin kMaxEventObjects) :=
  Lib.firstSlot fun i => (s.eventObjects i).type != .empty && (s.eventObjects i).fd == fd

theorem findThread_some {s : State} {id : UInt64} {j : Fin kMaxThreads}
    (h : s.findThread id = some j) : (s.threads j).state ≠ .empty ∧ (s.threads j).id = id := by
  have hj := Lib.firstSlot_true h
  simpa using hj

theorem findThread_isSome {s : State} {j : Fin kMaxThreads} (h : (s.threads j).state ≠ .empty) :
    ∃ k, s.findThread (s.threads j).id = some k := by
  refine Lib.exists_firstSlot (i := j) ?_
  simpa using h

theorem findThreadSlot_some {s : State} {j : Fin kMaxThreads}
    (h : s.findThreadSlot = some j) : (s.threads j).state = .empty := by
  simpa using Lib.firstSlot_true h

theorem findMutex_some {s : State} {id : UInt64} {i : Fin kMaxMutexes}
    (h : s.findMutex id = some i) : (s.mutexes i).active = true ∧ (s.mutexes i).id = id := by
  have hi := Lib.firstSlot_true h
  simpa using hi

theorem findProcess_some {s : State} {id : UInt64} {i : Fin kMaxProcesses}
    (h : s.findProcess id = some i) : (s.processes i).active = true ∧ (s.processes i).id = id := by
  have hi := Lib.firstSlot_true h
  simpa using hi

end State
end Scheduler
end UefiBoot
