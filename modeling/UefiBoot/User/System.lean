import UefiBoot.Scheduler.Machine
import UefiBoot.User.Files
import UefiBoot.User.Process

/-!
# `User.System` — the userspace layer on top of the scheduler

`userspace.cpp` runs on the thread that calls it: when it creates a process or a thread, terminates a process or
sends a signal, it makes a call of the scheduler, so the kernel half of a run of this system is a run of
`Scheduler.Machine`. The other way round, a thread that is scheduled for the first time runs its entry function,
and two of these, `AppProcessMain` and `ShellMain`, write the table of user processes. An entry function is an
address; those of `userspace.cpp` have internal linkage, so nothing else passes them to the scheduler.

The log keeps what was called and what it returned, newest first. No step reads it.
-/

namespace UefiBoot
namespace Userspace

open Scheduler (Machine)

/-- The addresses of the entry functions of `userspace.cpp`. -/
structure Entries where
  appProcessMain : UInt64
  shellMain      : UInt64
  initMain       : UInt64
  nonzero        : appProcessMain ≠ 0 ∧ shellMain ≠ 0 ∧ initMain ≠ 0
  distinct       : appProcessMain ≠ shellMain ∧ appProcessMain ≠ initMain ∧ shellMain ≠ initMain

/-- Calls about files, pipes and pseudo terminals. -/
inductive FileOp where
  | posixOpen (path : Option String)
  | posixClose (fd : Int32)
  | createPipe (outs : Bool)
  | pipeWrite (fd : Int32) (data : Option (Nat → UInt8)) (length : UInt32)
  | pipeRead (fd : Int32) (buffer : Bool) (length : UInt32)
  | openPseudoTerminal (name : Option String) (outs : Bool)

/-- Calls about user processes. -/
inductive ProcessOp where
  | registerLoaderCacheEntry (path : Option String) (baseAddress entryAddress imageSize : UInt64)
  | sysExit (processId code : UInt64)
  | startInitProcess
  | startShellProcess
  | launchUserApplication (appId executablePath : Option String)
  | startUserApplicationEventLoop (processId : UInt64) (appId : Option String)
  | exitUserApplication (processId : UInt64) (exitCode : Int32)

/-- Calls about signals. -/
inductive SignalOp where
  | registerSignalHandler (processId : UInt64) (signal : UInt32)
  | deliverUserSignal (processId threadId : UInt64) (signal : UInt32)

inductive Op where
  | file (op : FileOp)
  | process (op : ProcessOp)
  | signal (op : SignalOp)

inductive Result where
  | bool (b : Bool)
  | value (n : UInt64)
  | fd (n : Int32)
  | count (n : UInt32)
  | bytes (l : List UInt8)
  | ids (ok : Bool) (processId threadId : UInt64)

structure Event where
  op     : Op
  result : Result

structure System where
  user   : State
  kernel : Machine
  log    : List Event := []

/-! ## Files -/

/-- A call about files, on the tables of `userspace.cpp` alone. -/
def State.file (s : State) : FileOp → Result × State
  | .posixOpen path => let (fd, s) := s.posixOpen path; (.fd fd, s)
  | .posixClose fd => let (n, s) := s.posixClose fd; (.fd n, s)
  | .createPipe outs => let (pipe, s) := s.createPipe outs; (.bool pipe.isSome, s)
  | .pipeWrite fd data length => let (n, s) := s.pipeWrite fd data length; (.count n, s)
  | .pipeRead fd buffer length => let (bytes, s) := s.pipeRead fd buffer length; (.bytes bytes, s)
  | .openPseudoTerminal name outs => let (pty, s) := s.openPseudoTerminal name outs; (.bool pty.isSome, s)

namespace System

/-! ## Processes -/

/-- `KernelCreateProcess`. -/
def createProcess (s : System) (name : Option String) : UInt64 × System :=
  ((Scheduler.kernelCreateProcess s.kernel.sched name).1, { s with kernel := s.kernel.call (.createProcess name) })

/-- `KernelCreateThread`. -/
def createThread (s : System) (processId : UInt64) (name : Option String) (entry argument : UInt64) :
    UInt64 × System :=
  ((Scheduler.kernelCreateThread s.kernel.sched processId name entry argument).1,
    { s with kernel := s.kernel.call (.createThread processId name entry argument) })

/-- `KernelTerminateProcess`. -/
def terminateProcess (s : System) (processId : UInt64) (exitCode : Int32) : Bool × System :=
  ((Scheduler.kernelTerminateProcess s.kernel.sched processId).1,
    { s with kernel := s.kernel.call (.terminateProcess processId exitCode) })

/-- `KernelSendSignal`. -/
def sendSignal (s : System) (threadId : UInt64) (signal : UInt32) : Bool × System :=
  ((Scheduler.kernelSendSignal s.kernel.sched threadId signal).1,
    { s with kernel := s.kernel.call (.sendSignal threadId signal) })

/-- `RegisterUserProcess`. -/
def registerUserProcess (s : System) (processId : UInt64) (name : Option String) : Bool × System :=
  let (process, user) := s.user.registerUserProcess processId name
  (process.isSome, { s with user := user })

/-- What `StartInitProcess` and `StartShellProcess` do: they differ in names, entry function and the fields of
    the status that they set last. -/
def startProcess (s : System) (name threadName : String) (entry : UInt64)
    (started : UInt64 → UInt64 → UserspaceStatus → UserspaceStatus) : Bool × System :=
  let (processId, s) := s.createProcess (some name)
  if processId = 0 then (false, s)
  else
    let (registered, s) := s.registerUserProcess processId (some name)
    if !registered then (false, s)
    else
      let (threadId, s) := s.createThread processId (some threadName) entry 0
      if threadId = 0 then (false, s)
      else (true, { s with user := { s.user with status := started processId threadId s.user.status } })

def startInitProcess (e : Entries) (s : System) : Bool × System :=
  s.startProcess "init" "init-main" e.initMain fun processId threadId status =>
    { status with initProcessId := processId, initThreadId := threadId, initReady := true }

def startShellProcess (e : Entries) (s : System) : Bool × System :=
  s.startProcess "user-shell" "shell-main" e.shellMain fun processId threadId status =>
    { status with
      shellProcessId := processId, shellThreadId := threadId, shellReady := true, userProcessReady := true }

/-- The first part of `KernelLaunchUserApplication`: the image is loaded and entered in the loader cache. The
    buffer on the stack is overwritten as a whole, so what it held before does not matter. -/
def cacheApplication (s : System) (appId executablePath : Option String) : Bool × System :=
  if appId = none ∨ !appExecutablePathValid executablePath ∨ !s.user.status.elfLoaderReady then (false, s)
  else
    let image := UserElf.buildSyntheticAppElf (fun _ => 0) UserElf.kAppImageSize s.user.nextAppBase
    let (ok, loaded, user) := s.user.loadUserElfImage image
    if !ok then (false, { s with user := user })
    else
      let (cached, user) := user.registerLoaderCacheEntry executablePath loaded.lowestAddress loaded.entry
        (loaded.highestAddress - loaded.lowestAddress)
      (cached, { s with user := user })

/-- `KernelLaunchUserApplication`: its result and the two output ids. -/
def launchUserApplication (s : System) (appId executablePath : Option String) :
    (Bool × UInt64 × UInt64) × System :=
  let (cached, s) := s.cacheApplication appId executablePath
  if !cached then ((false, 0, 0), s)
  else
    let (processId, s) := s.createProcess executablePath
    if processId = 0 then ((false, 0, 0), s)
    else
      let (registered, s) := s.registerUserProcess processId appId
      if !registered then ((false, 0, 0), s)
      else
        ((true, processId, 0), { s with user := { s.user with nextAppBase := s.user.nextAppBase + 0x20000 } })

/-- `KernelStartUserApplicationEventLoop`: its result and the output id. -/
def startUserApplicationEventLoop (e : Entries) (s : System) (processId : UInt64) (appId : Option String) :
    (Bool × UInt64) × System :=
  if processId = 0 ∨ appId = none ∨ s.user.findUserProcess processId = none then ((false, 0), s)
  else
    let (threadId, s) := s.createThread processId appId e.appProcessMain processId
    ((threadId != 0, threadId), s)

/-- `KernelExitUserApplication`. -/
def exitUserApplication (s : System) (processId : UInt64) (exitCode : Int32) : Bool × System :=
  match s.user.findUserProcess processId with
  | none   => (false, s)
  | some i =>
    let (terminated, s) := s.terminateProcess processId exitCode
    if !terminated then (false, s)
    else
      (true, { s with user := s.user.setUserProcess i { s.user.userProcesses i with state := .exited } })

def process (e : Entries) (s : System) : ProcessOp → Result × System
  | .registerLoaderCacheEntry path base entry size =>
    let (b, user) := s.user.registerLoaderCacheEntry path base entry size; (.bool b, { s with user := user })
  | .sysExit pid code => let (n, user) := s.user.sysExit pid code; (.value n, { s with user := user })
  | .startInitProcess => let (b, s) := s.startInitProcess e; (.bool b, s)
  | .startShellProcess => let (b, s) := s.startShellProcess e; (.bool b, s)
  | .launchUserApplication appId path =>
    let ((ok, pid, tid), s) := s.launchUserApplication appId path; (.ids ok pid tid, s)
  | .startUserApplicationEventLoop pid appId =>
    let ((ok, tid), s) := s.startUserApplicationEventLoop e pid appId; (.ids ok pid tid, s)
  | .exitUserApplication pid code => let (b, s) := s.exitUserApplication pid code; (.bool b, s)

/-! ## Signals -/

/-- `DeliverUserSignal`. -/
def deliverUserSignal (s : System) (processId threadId : UInt64) (signal : UInt32) : Bool × System :=
  match s.user.findSignalHandler processId signal with
  | none   => (false, s)
  | some i =>
    let (sent, s) := s.sendSignal threadId signal
    if !sent then (false, s) else (true, { s with user := s.user.delivered i })

def signal (s : System) : SignalOp → Result × System
  | .registerSignalHandler pid sig =>
    let (b, user) := s.user.registerSignalHandler pid sig; (.bool b, { s with user := user })
  | .deliverUserSignal pid tid sig => let (b, s) := s.deliverUserSignal pid tid sig; (.bool b, s)

/-! ## Steps -/

def perform (e : Entries) (s : System) : Op → Result × System
  | .file op    => let (r, user) := s.user.file op; (r, { s with user := user })
  | .process op => s.process e op
  | .signal op  => s.signal op

/-- The running thread makes the call. -/
def call (e : Entries) (s : System) (op : Op) : System :=
  let (r, s') := s.perform e op
  { s' with log := ⟨op, r⟩ :: s.log }

/-- What the table of user processes becomes when the thread that the processor is about to start runs its entry
    function. `InitMain` and functions of other files do not touch it. -/
def entered (e : Entries) (s : System) : State :=
  match s.kernel.control, s.kernel.sched.currentThread with
  | .resuming .trampoline, some c =>
    let t := s.kernel.sched.threads c
    if t.entry = e.appProcessMain then s.user.appProcessMain t.argument
    else if t.entry = e.shellMain then s.user.shellMain
    else s.user
  | _, _ => s.user

/-- What can happen next. -/
inductive Action where
  /-- The running thread calls a function of `userspace.cpp`. -/
  | call (op : Op)
  /-- The scheduler, with its interrupts and with the calls that other code makes of it. -/
  | kernel (a : Scheduler.Action)

/-- The entry function that a call passes to the scheduler. -/
def entryOf : Scheduler.Call → Option UInt64
  | .createThread _ _ entry _ => some entry
  | .execProcess _ _ entry _  => some entry
  | .cloneThread _ entry _    => some entry
  | .pthreadCreate _ entry _  => some entry
  | _                         => none

/-- Other code does not know the entry functions of `userspace.cpp`. -/
def Foreign (e : Entries) : Scheduler.Action → Prop
  | .call c => entryOf c ≠ some e.appProcessMain ∧ entryOf c ≠ some e.shellMain ∧ entryOf c ≠ some e.initMain
  | _       => True

instance (e : Entries) (a : Scheduler.Action) : Decidable (Foreign e a) := by
  unfold Foreign
  split <;> infer_instance

/-- One step of the system. An action that the running thread's position rules out does nothing. -/
def step (e : Entries) (s : System) : Action → System
  | .call op =>
    match s.kernel.control with
    | .user => s.call e op
    | _     => s
  | .kernel a =>
    if Foreign e a then
      { s with
        user := if a = .run then s.entered e else s.user
        kernel := s.kernel.step a }
    else s

/-- The system when `KernelUserspaceInit` has tested the loader. -/
def boot (heap : { h : KernelHeap // h.InBlock }) : System :=
  { user := State.initialised, kernel := Machine.boot heap }

end System

/-- The state after a run. -/
abbrev reached (e : Entries) (heap : { h : KernelHeap // h.InBlock }) (as : List System.Action) : System :=
  Lib.run (System.step e) (System.boot heap) as

/-- Entry functions at fixed addresses, for runs on concrete inputs. -/
def entriesAt1MiB : Entries :=
  { appProcessMain := 0x100000, shellMain := 0x100100, initMain := 0x100200, nonzero := by decide, distinct := by decide }

end Userspace
end UefiBoot
