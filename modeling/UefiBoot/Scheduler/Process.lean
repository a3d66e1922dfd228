import UefiBoot.Scheduler.State

/-!
# `Scheduler.Process` — processes, threads and their message queues

`KernelSchedulerInit`, creation, `fork`/`exec`/`clone`, `KernelTerminateProcess` and the IPC ring buffer.
A function of the source that returns an id or a flag returns it paired with the state afterwards.
-/

namespace UefiBoot
namespace Scheduler

/-- `KernelSchedulerInit`. `g_NextProcessId` and `g_NextThreadId` are not reset by the source. -/
def kernelSchedulerInit (s : State) : State :=
  { s with
    processes := Function.update (fun _ => {}) 0
      { id := s.nextProcessId, name := some "kernel", active := true }
    nextProcessId := s.nextProcessId + 1
    threads := Function.update (fun _ => {}) 0
      { id := s.nextThreadId, processId := kKernelProcessId, name := some "bootstrap",
        state := .running, priority := kDefaultThreadPriority }
    nextThreadId := s.nextThreadId + 1
    currentThread := some 0
    mutexes := fun _ => {}
    futexes := fun _ => {}
    eventObjects := fun _ => {}
    nextMutexId := 1
    nextEventFd := 32
    schedulerTick := 0
    signalsDelivered := 0 }

/-- `KernelCreateProcess`: the first inactive slot gets the next id and an empty message queue. -/
def kernelCreateProcess (s : State) (name : Option String) : UInt64 × State :=
  match Lib.firstSlot (fun i => !(s.processes i).active) with
  | some i =>
    (s.nextProcessId,
      { s.setProcess i { id := s.nextProcessId, name := name, active := true } with
        nextProcessId := s.nextProcessId + 1 })
  | none => (0, s)

/-- The thread record `KernelCreateThread` leaves in its slot, `PrepareInitialContext` included. -/
def freshThread (id processId : UInt64) (name : Option String) (entry argument stack : UInt64) : Thread :=
  { id := id, processId := processId, name := name, state := .ready, context := .trampoline,
    stackBase := stack, stackSize := kThreadStackSize, entry := entry, argument := argument,
    runCount := 0, wakeTick := 0, pendingSignals := 0, handledSignals := 0,
    priority := kDefaultThreadPriority, waitingMutexId := 0 }

/-- `KernelCreateThread`. -/
def kernelCreateThread (s : State) (processId : UInt64) (name : Option String)
    (entry argument : UInt64) : UInt64 × State :=
  if s.findProcess processId = none ∨ entry = 0 then (0, s)
  else
    match s.findThreadSlot with
    | none   => (0, s)
    | some i =>
      let (stack, heap) := s.heap.allocate kThreadStackSize 16
      if stack = 0 then (0, { s with heap := heap })
      else
        (s.nextThreadId,
          { s.setThread i (freshThread s.nextThreadId processId name entry argument stack) with
            heap := heap
            nextThreadId := s.nextThreadId + 1 })

/-- What `KernelTerminateProcess` leaves of a thread of the process. -/
def Thread.terminated (t : Thread) : Thread :=
  { t with state := .empty, processId := 0, entry := 0, argument := 0, stackBase := 0, stackSize := 0 }

/-- `KernelTerminateProcess` goes ahead: the process is active and not the kernel's. -/
def State.terminates (s : State) (processId : UInt64) : Option (Fin kMaxProcesses) :=
  if processId = kKernelProcessId then none else s.findProcess processId

/-- `KernelTerminateProcess`. The exit code is not used. -/
def kernelTerminateProcess (s : State) (processId : UInt64) : Bool × State :=
  match s.terminates processId with
  | none   => (false, s)
  | some i =>
    (true,
      { s.setProcess i { s.processes i with
          active := false, ipcHead := 0, ipcTail := 0, ipcCount := 0, ipcQueue := fun _ => 0 } with
        threads := fun j =>
          if (s.threads j).state ≠ .empty ∧ (s.threads j).processId = processId
          then (s.threads j).terminated else s.threads j })

/-- `KernelForkProcess`. -/
def kernelForkProcess (s : State) (parentProcessId : UInt64) : UInt64 × State :=
  match s.findProcess parentProcessId with
  | none        => (0, s)
  | some parent =>
    let (childId, s) := kernelCreateProcess s (s.processes parent).name
    match s.findProcess childId with
    | none       => (0, s)
    | some child =>
      (childId, s.setProcess child { s.processes child with
        ipcHead := (s.processes parent).ipcHead, ipcTail := (s.processes parent).ipcTail,
        ipcCount := (s.processes parent).ipcCount, ipcQueue := (s.processes parent).ipcQueue })

/-- `KernelExecProcess`. -/
def kernelExecProcess (s : State) (processId : UInt64) (imageName : Option String)
    (entry argument : UInt64) : Bool × State :=
  match s.findProcess processId with
  | none   => (false, s)
  | some i =>
    if imageName = none ∨ entry = 0 then (false, s)
    else
      let s := s.setProcess i { s.processes i with
        name := imageName, ipcHead := 0, ipcTail := 0, ipcCount := 0, ipcQueue := fun _ => 0 }
      let (id, s) := kernelCreateThread s processId imageName entry argument
      (decide (id ≠ 0), s)

/-- `KernelCloneThread`. -/
def kernelCloneThread (s : State) (processId entry argument : UInt64) : UInt64 × State :=
  kernelCreateThread s processId (some "clone") entry argument

/-- `KernelPthreadCreate`. -/
def kernelPthreadCreate (s : State) (processId entry argument : UInt64) : UInt64 × State :=
  kernelCreateThread s processId (some "pthread") entry argument

/-- `KernelIpcSend`. A tail outside the queue would write outside the array; nothing is stored then. -/
def kernelIpcSend (s : State) (processId value : UInt64) : Bool × State :=
  match s.findProcess processId with
  | none   => (false, s)
  | some i =>
    let p := s.processes i
    if p.ipcCount ≥ 8 then (false, s)
    else
      (true, s.setProcess i { p with
        ipcQueue := fun k => if k.val = p.ipcTail.toNat then value else p.ipcQueue k
        ipcTail := (p.ipcTail + 1) % 8
        ipcCount := p.ipcCount + 1 })

/-- `KernelIpcReceive`: the value, or none where the source returns false. -/
def kernelIpcReceive (s : State) (processId : UInt64) : Option UInt64 × State :=
  match s.findProcess processId with
  | none   => (none, s)
  | some i =>
    let p := s.processes i
    if p.ipcCount = 0 then (none, s)
    else
      (some (if h : p.ipcHead.toNat < kIpcQueueSize then p.ipcQueue ⟨p.ipcHead.toNat, h⟩ else 0),
        s.setProcess i { p with ipcHead := (p.ipcHead + 1) % 8, ipcCount := p.ipcCount - 1 })

end Scheduler
end UefiBoot
