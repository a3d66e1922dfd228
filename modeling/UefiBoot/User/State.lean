import Mathlib.Tactic

/-!
# `User.State` — the tables of `userspace.cpp`

One record per C struct and one field per global, as `ResetUserspaceStatus` leaves them; of `g_Status` the
fields that the modelled functions read or write. A slot of a table is a `Fin` index, and a C string is an
`Option String`, with `none` for the null pointer.
-/

namespace UefiBoot
namespace Userspace

abbrev kMaxUserProcesses : Nat := 64
abbrev kMaxPosixFileDescriptors : Nat := 8
abbrev kMaxLoaderCacheEntries : Nat := 64
abbrev kMaxSignalHandlers : Nat := 8
abbrev kMaxPipes : Nat := 4
abbrev kMaxPtys : Nat := 4
abbrev kPipeBufferSize : Nat := 64
def kFirstSyntheticFd : Int32 := 64

inductive UserProcessState where
  | empty
  | ready
  | running
  | exited
  deriving DecidableEq

structure UserProcess where
  processId   : UInt64 := 0
  name        : Option String := none
  state       : UserProcessState := .empty
  ring3Intent : Bool := false
  deriving DecidableEq

structure PosixFileDescriptor where
  fd     : Int32 := -1
  path   : Option String := none
  isOpen : Bool := false
  deriving DecidableEq

structure LoaderCacheEntry where
  path         : Option String := none
  baseAddress  : UInt64 := 0
  entryAddress : UInt64 := 0
  imageSize    : UInt64 := 0
  valid        : Bool := false
  deriving DecidableEq

structure UserSignalHandler where
  processId : UInt64 := 0
  signal    : UInt32 := 0
  pending   : Bool := false
  delivered : Bool := false
  deriving DecidableEq

structure UserPipe where
  readFd      : Int32 := -1
  writeFd     : Int32 := -1
  buffer      : Fin kPipeBufferSize → UInt8 := fun _ => 0
  readOffset  : UInt32 := 0
  writeOffset : UInt32 := 0
  isOpen      : Bool := false

structure PseudoTerminal where
  masterFd : Int32 := -1
  slaveFd  : Int32 := -1
  name     : Option String := none
  isOpen   : Bool := false
  deriving DecidableEq

structure UserspaceStatus where
  shellReady             : Bool := false
  userProcessReady       : Bool := false
  elfLoaderReady         : Bool := false
  initReady              : Bool := false
  shellProcessId         : UInt64 := 0
  shellThreadId          : UInt64 := 0
  initProcessId          : UInt64 := 0
  initThreadId           : UInt64 := 0
  loadedElfCount         : UInt64 := 0
  cachedLoaderEntryCount : UInt32 := 0
  deliveredSignalCount   : UInt32 := 0
  pipeCount              : UInt32 := 0
  ptyCount               : UInt32 := 0

/-- The globals of `userspace.cpp`, and the static `next_app_base` of `KernelLaunchUserApplication`. -/
structure State where
  status               : UserspaceStatus := {}
  userProcesses        : Fin kMaxUserProcesses → UserProcess := fun _ => {}
  posixFileDescriptors : Fin kMaxPosixFileDescriptors → PosixFileDescriptor := fun _ => {}
  loaderCache          : Fin kMaxLoaderCacheEntries → LoaderCacheEntry := fun _ => {}
  signalHandlers       : Fin kMaxSignalHandlers → UserSignalHandler := fun _ => {}
  pipes                : Fin kMaxPipes → UserPipe := fun _ => {}
  ptys                 : Fin kMaxPtys → PseudoTerminal := fun _ => {}
  nextSyntheticFd      : Int32 := kFirstSyntheticFd
  nextAppBase          : UInt64 := 0x900000

/-- `StringEquals`. -/
def stringEquals (a b : Option String) : Bool :=
  match a, b with
  | some a, some b => a == b
  | _, _           => false

namespace State

def setUserProcess (s : State) (i : Fin kMaxUserProcesses) (p : UserProcess) : State :=
  { s with userProcesses := Function.update s.userProcesses i p }

def setPosixFileDescriptor (s : State) (i : Fin kMaxPosixFileDescriptors) (d : PosixFileDescriptor) : State :=
  { s with posixFileDescriptors := Function.update s.posixFileDescriptors i d }

def setLoaderCacheEntry (s : State) (i : Fin kMaxLoaderCacheEntries) (e : LoaderCacheEntry) : State :=
  { s with loaderCache := Function.update s.loaderCache i e }

def setSignalHandler (s : State) (i : Fin kMaxSignalHandlers) (h : UserSignalHandler) : State :=
  { s with signalHandlers := Function.update s.signalHandlers i h }

def setPipe (s : State) (i : Fin kMaxPipes) (p : UserPipe) : State :=
  { s with pipes := Function.update s.pipes i p }

def setPty (s : State) (i : Fin kMaxPtys) (p : PseudoTerminal) : State :=
  { s with ptys := Function.update s.ptys i p }

end State
end Userspace
end UefiBoot
