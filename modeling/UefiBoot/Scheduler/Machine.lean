import UefiBoot.Lib.Run
import UefiBoot.Scheduler.Sync
import UefiBoot.Scheduler.Events

/-!
# `Scheduler.Machine` — the scheduler as a step machine

One processor runs one thread. `Control` says where that thread is: in code outside the scheduler, about to
call `KernelSchedulerYield`, just returned from it, or halted by `KernelPanic`. The possible actions are a
timer interrupt at any of these points, a call the running thread makes, the return of its entry function,
and one step of the processor through a `Yield` or the code after it. A run of the system is a list of
actions; every interleaving of the threads is one.

The log is the history of the run, newest first: which calls have returned what to which thread. Statements
about "a call that returned true" read it; no step does.
-/

namespace UefiBoot
namespace Scheduler

/-- The scheduler's interface, as the running thread calls it. -/
inductive Call where
  | createProcess (name : Option String)
  | createThread (processId : UInt64) (name : Option String) (entry argument : UInt64)
  | terminateProcess (processId : UInt64) (exitCode : Int32)
  | forkProcess (parentProcessId : UInt64)
  | execProcess (processId : UInt64) (imageName : Option String) (entry argument : UInt64)
  | cloneThread (processId entry argument : UInt64)
  | pthreadCreate (processId entry argument : UInt64)
  | pthreadJoin (threadId : UInt64)
  /-- `observed` is the value of the futex word, which any code may have written. -/
  | futexWait (address : UInt64) (expected observed : UInt32)
  | futexWake (address : UInt64) (count : UInt32)
  | epollCreate
  | epollAdd (epollFd watchedFd : Int32)
  | epollWait (epollFd : Int32) (buffer : Bool) (capacity : UInt32)
  | eventFd (initialValue : UInt64)
  | eventFdWrite (fd : Int32) (value : UInt64)
  | eventFdRead (fd : Int32)
  | timerFd (initialTicks intervalTicks : UInt64)
  | timerFdRead (fd : Int32)
  | setThreadPriority (threadId : UInt64) (priority : UInt8)
  | threadSleep (ticks : UInt64)
  | sendSignal (threadId : UInt64) (signal : UInt32)
  | ipcSend (processId value : UInt64)
  | ipcReceive (processId : UInt64)
  | mutexCreate
  | mutexLock (mutexId : UInt64)
  | mutexUnlock (mutexId : UInt64)
  | schedulerYield
  deriving DecidableEq

/-- What a call returns. -/
inductive Result where
  | unit
  | bool (b : Bool)
  | id (n : UInt64)
  | fd (n : Int32)
  | count (n : UInt32)
  | fds (l : List Int32)
  | value (v : Option UInt64)
  deriving DecidableEq

inductive Event where
  | created (thread : UInt64)
  | returned (thread : UInt64) (call : Call) (result : Result)
  | panicked (thread : UInt64)
  deriving DecidableEq

/-- Where the running thread is. -/
inductive Control where
  | user
  | yielding (rest : Continuation)
  | resuming (rest : Continuation)
  | halted (reason : String)
  deriving DecidableEq

structure Machine where
  sched   : State
  control : Control
  log     : List Event := []

/-- What can happen next. -/
inductive Action where
  | tick
  | call (c : Call)
  /-- The entry function of the running thread returns to `ThreadTrampoline`. -/
  | exit
  /-- The processor goes on with the `Yield` it is in. -/
  | run
  deriving DecidableEq

namespace Machine

/-- The log entry of a thread creation between two states, if one took place. -/
def creation (s s' : State) : List Event :=
  if s'.nextThreadId = s.nextThreadId then [] else [.created s.nextThreadId]

/-- The running call returns `result`. -/
@[simps] def returns (m : Machine) (c : Call) (result : Result) (s : State) : Machine :=
  { sched := s, control := .user,
    log := .returned m.sched.currentId c result :: (creation m.sched s ++ m.log) }

/-- The running call returns or goes into `Yield`. -/
def reply {ρ : Type} (m : Machine) (c : Call) (result : ρ → Result) : Reply ρ × State → Machine
  | (.done r, s)      => m.returns c (result r) s
  | (.yields rest, s) => { m with sched := s, control := .yielding rest }

/-- The running thread calls the scheduler. -/
def call (m : Machine) (c : Call) : Machine :=
  let s := m.sched
  match c with
  | .createProcess name =>
    let (id, s) := kernelCreateProcess s name; m.returns c (.id id) s
  | .createThread pid name entry argument =>
    let (id, s) := kernelCreateThread s pid name entry argument; m.returns c (.id id) s
  | .terminateProcess pid _ =>
    let (b, s) := kernelTerminateProcess s pid; m.returns c (.bool b) s
  | .forkProcess pid =>
    let (id, s) := kernelForkProcess s pid; m.returns c (.id id) s
  | .execProcess pid name entry argument =>
    let (b, s) := kernelExecProcess s pid name entry argument; m.returns c (.bool b) s
  | .cloneThread pid entry argument =>
    let (id, s) := kernelCloneThread s pid entry argument; m.returns c (.id id) s
  | .pthreadCreate pid entry argument =>
    let (id, s) := kernelPthreadCreate s pid entry argument; m.returns c (.id id) s
  | .pthreadJoin id => m.reply c .bool (kernelPthreadJoin s id)
  | .futexWait address expected observed =>
    m.reply c .bool (kernelFutexWait s address expected observed)
  | .futexWake address count =>
    let (n, s) := kernelFutexWake s address count; m.returns c (.count n) s
  | .epollCreate => let (fd, s) := kernelEpollCreate s; m.returns c (.fd fd) s
  | .epollAdd fd watched => let (b, s) := kernelEpollAdd s fd watched; m.returns c (.bool b) s
  | .epollWait fd buffer capacity =>
    let (l, s) := kernelEpollWait s fd buffer capacity; m.returns c (.fds l) s
  | .eventFd v => let (fd, s) := kernelEventFd s v; m.returns c (.fd fd) s
  | .eventFdWrite fd v => let (b, s) := kernelEventFdWrite s fd v; m.returns c (.bool b) s
  | .eventFdRead fd => let (v, s) := kernelEventFdRead s fd; m.returns c (.value v) s
  | .timerFd initial interval =>
    let (fd, s) := kernelTimerFd s initial interval; m.returns c (.fd fd) s
  | .timerFdRead fd => let (v, s) := kernelTimerFdRead s fd; m.returns c (.value v) s
  | .setThreadPriority id priority =>
    let (b, s) := kernelSetThreadPriority s id priority; m.returns c (.bool b) s
  | .threadSleep ticks => m.reply c (fun _ => .unit) (kernelThreadSleep s ticks)
  | .sendSignal id signal =>
    let (b, s) := kernelSendSignal s id signal; m.returns c (.bool b) s
  | .ipcSend pid v => let (b, s) := kernelIpcSend s pid v; m.returns c (.bool b) s
  | .ipcReceive pid => let (v, s) := kernelIpcReceive s pid; m.returns c (.value v) s
  | .mutexCreate => let (id, s) := kernelMutexCreate s; m.returns c (.id id) s
  | .mutexLock id => m.reply c .bool (kernelMutexLock s id)
  | .mutexUnlock id => let (b, s) := kernelMutexUnlock s id; m.returns c (.bool b) s
  | .schedulerYield => { m with control := .yielding (.schedulerYield s.currentId) }

/-- `Yield` has returned to `rest`: the remaining code of the function that called it. -/
def resume (m : Machine) (rest : Continuation) : Machine :=
  match rest with
  | .trampoline =>
    match m.sched.currentThread with
    | none   => { m with control := .halted "Scheduler entered invalid thread" }
    | some c =>
      if (m.sched.threads c).entry = 0
      then { m with control := .halted "Scheduler entered invalid thread" }
      else { m with sched := deliverSignals m.sched c, control := .user }
  | .schedulerYield _ => m.returns .schedulerYield .unit m.sched
  | .threadSleep _ ticks => m.returns (.threadSleep ticks) .unit m.sched
  | .futexWait _ address expected =>
    m.returns (.futexWait address expected expected) (.bool true) m.sched
  | .mutexLock _ id i =>
    m.returns (.mutexLock id) (.bool (kernelMutexLockReturn m.sched i)) m.sched
  | .pthreadJoin caller id thread =>
    m.reply (.pthreadJoin id) .bool (pthreadJoinLoop m.sched caller id thread)
  | .exited caller =>
    { m with control := .halted "Finished thread resumed", log := .panicked caller :: m.log }

/-- The entry function of the running thread returns. The bootstrap thread in slot 0 is `kernel_main`,
    which ends in an endless loop and was not started by `ThreadTrampoline`. -/
def exit (m : Machine) : Machine :=
  match m.sched.currentThread with
  | none   => m
  | some c =>
    if c = 0 then m
    else
      { m with
        sched := m.sched.setThread c { m.sched.threads c with state := .finished }
        control := .yielding (.exited (m.sched.threads c).id) }

/-- One step of the system. An action that the running thread's position rules out does nothing. -/
def step (m : Machine) (a : Action) : Machine :=
  match m.control, a with
  | .halted _, _             => m
  | _, .tick                 => { m with sched := kernelSchedulerTimerTick m.sched }
  | .user, .call c           => m.call c
  | .user, .exit             => m.exit
  | .yielding rest, .run     =>
    let (next, s) := kernelSchedulerYield m.sched rest
    { m with sched := s, control := .resuming next }
  | .resuming rest, .run     => m.resume rest
  | _, _                     => m

/-- The system after boot: `KernelSchedulerInit` has run once, over the zeroed globals and the heap that
    `KernelMemoryInit` left. -/
def boot (heap : { h : KernelHeap // h.InBlock }) : Machine :=
  { sched := kernelSchedulerInit { heap := heap.val }, control := .user, log := [.created 1] }

end Machine

/-- The state after a run from boot. -/
abbrev reached (heap : { h : KernelHeap // h.InBlock }) (as : List Action) : Machine :=
  Lib.run Machine.step (Machine.boot heap) as

/-- A boot heap at 2 MiB, for runs on concrete inputs. -/
def heapAt2MiB : { h : KernelHeap // h.InBlock } := ⟨KernelHeap.atBase 0x200000, by decide⟩

end Scheduler
end UefiBoot
