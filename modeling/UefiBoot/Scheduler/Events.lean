import UefiBoot.Scheduler.State

/-!
# `Scheduler.Events` — epoll, eventfd and timerfd objects

Event objects share the scheduler's tick and nothing else with its threads: no function here reads or
writes the thread, mutex or futex tables.
-/

namespace UefiBoot
namespace Scheduler

/-- `AllocateEventObject`: the first empty slot, cleared, with the next descriptor. -/
def allocateEventObject (s : State) (type : EventObjectType) :
    Option (Fin kMaxEventObjects) × State :=
  match Lib.firstSlot (fun i => (s.eventObjects i).type == .empty) with
  | none   => (none, s)
  | some i =>
    (some i, { s.setEventObject i { fd := s.nextEventFd, type := type } with
      nextEventFd := s.nextEventFd + 1 })

/-- `EventReady` on one object: a due timer also recomputes its expiration count. -/
def EventObject.eventReady (o : EventObject) (tick : UInt64) : Bool × EventObject :=
  if o.type = .event then (o.value != 0, o)
  else if o.type = .timer ∧ o.deadline ≠ 0 ∧ tick ≥ o.deadline then
    let elapsed := tick - o.deadline
    (true, { o with value := 1 + (if o.interval ≠ 0 then elapsed / o.interval else 0) })
  else (false, o)

/-- `EventReady`. -/
def eventReady (s : State) (i : Fin kMaxEventObjects) : Bool × State :=
  let (ready, o) := (s.eventObjects i).eventReady s.schedulerTick
  (ready, s.setEventObject i o)

/-- The descriptor a create function returns: -1 when no object was free. -/
def fdOf (s : State) : Option (Fin kMaxEventObjects) → Int32
  | some i => (s.eventObjects i).fd
  | none   => -1

/-- `KernelEpollCreate`. -/
def kernelEpollCreate (s : State) : Int32 × State :=
  let (object, s) := allocateEventObject s .epoll
  (fdOf s object, s)

/-- `KernelEpollAdd`. -/
def kernelEpollAdd (s : State) (epollFd watchedFd : Int32) : Bool × State :=
  match s.findEventObject epollFd with
  | none   => (false, s)
  | some i =>
    if (s.eventObjects i).type ≠ .epoll ∨ s.findEventObject watchedFd = none ∨
        kMaxEpollWatches ≤ (s.eventObjects i).watches.length then (false, s)
    else
      (true, s.setEventObject i { s.eventObjects i with
        watches := (s.eventObjects i).watches ++ [watchedFd] })

/-- The loop body of `KernelEpollWait`: poll one watch while there is room for `capacity` descriptors. -/
def epollPoll (capacity : Nat) (acc : List Int32 × State) (fd : Int32) : List Int32 × State :=
  if capacity ≤ acc.1.length then acc
  else
    match acc.2.findEventObject fd with
    | none   => acc
    | some i =>
      let polled := eventReady acc.2 i
      (if polled.1 then acc.1 ++ [(acc.2.eventObjects i).fd] else acc.1, polled.2)

/-- `KernelEpollWait`: the descriptors it writes to `ready`, whose number it returns. `buffer` tells
    whether the `ready` pointer is non-null. -/
def kernelEpollWait (s : State) (epollFd : Int32) (buffer : Bool) (capacity : UInt32) :
    List Int32 × State :=
  match s.findEventObject epollFd with
  | none   => ([], s)
  | some i =>
    if (s.eventObjects i).type ≠ .epoll ∨ buffer = false then ([], s)
    else (s.eventObjects i).watches.foldl (epollPoll capacity.toNat) ([], s)

/-- `KernelEventFd`. -/
def kernelEventFd (s : State) (initialValue : UInt64) : Int32 × State :=
  match allocateEventObject s .event with
  | (some i, s) =>
    let s := s.setEventObject i { s.eventObjects i with value := initialValue }
    (fdOf s (some i), s)
  | (none, s) => (-1, s)

/-- `KernelEventFdWrite`. -/
def kernelEventFdWrite (s : State) (fd : Int32) (value : UInt64) : Bool × State :=
  match s.findEventObject fd with
  | none   => (false, s)
  | some i =>
    let o := s.eventObjects i
    if o.type ≠ .event ∨ value = 0xFFFFFFFFFFFFFFFF ∨ 0xFFFFFFFFFFFFFFFF - o.value < value
    then (false, s)
    else (true, s.setEventObject i { o with value := o.value + value })

/-- `KernelEventFdRead`: the value, or none where the source returns false. -/
def kernelEventFdRead (s : State) (fd : Int32) : Option UInt64 × State :=
  match s.findEventObject fd with
  | none   => (none, s)
  | some i =>
    let o := s.eventObjects i
    if o.type ≠ .event ∨ o.value = 0 then (none, s)
    else (some o.value, s.setEventObject i { o with value := 0 })

/-- `KernelTimerFd`. -/
def kernelTimerFd (s : State) (initialTicks intervalTicks : UInt64) : Int32 × State :=
  if initialTicks = 0 then (-1, s)
  else
    match allocateEventObject s .timer with
    | (some i, s) =>
      let s := s.setEventObject i { s.eventObjects i with
        deadline := s.schedulerTick + initialTicks, interval := intervalTicks }
      (fdOf s (some i), s)
    | (none, s) => (-1, s)

/-- `KernelTimerFdRead`: the expirations, or none where the source returns false. -/
def kernelTimerFdRead (s : State) (fd : Int32) : Option UInt64 × State :=
  match s.findEventObject fd with
  | none   => (none, s)
  | some i =>
    if (s.eventObjects i).type ≠ .timer then (none, s)
    else
      let (ready, s) := eventReady s i
      if ready = false then (none, s)
      else
        let o := s.eventObjects i
        let deadline := if o.interval ≠ 0 then o.deadline + o.value * o.interval else 0
        (some o.value, s.setEventObject i { o with value := 0, deadline := deadline })

end Scheduler
end UefiBoot
