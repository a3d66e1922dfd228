import UefiBoot.Lib.Select
import UefiBoot.User.AppElf
import UefiBoot.User.State

/-!
# `User.Process` — user processes, the loader cache and signal handlers

What the userspace layer keeps about a process of the kernel: a record with the process id and a state, which
only ever goes from `Empty` to something else. A function that returns a pointer into a table returns the slot.
-/

namespace UefiBoot
namespace Userspace
namespace State

/-! ## User processes -/

/-- The record that `RegisterUserProcess` takes. -/
def freeUserProcess (s : State) : Option (Fin kMaxUserProcesses) :=
  Lib.firstSlot fun i => (s.userProcesses i).state == .empty

def registerUserProcess (s : State) (processId : UInt64) (name : Option String) :
    Option (Fin kMaxUserProcesses) × State :=
  if processId = 0 ∨ name = none then (none, s)
  else
    match s.freeUserProcess with
    | none   => (none, s)
    | some i =>
      (some i, s.setUserProcess i { processId := processId, name := name, state := .ready, ring3Intent := true })

def findUserProcess (s : State) (processId : UInt64) : Option (Fin kMaxUserProcesses) :=
  Lib.firstSlot fun i => (s.userProcesses i).processId == processId && (s.userProcesses i).state != .empty

/-- `process->state = state;` for the record that `FindUserProcess` returns, if there is one. -/
def mark (s : State) (processId : UInt64) (state : UserProcessState) : State :=
  match s.findUserProcess processId with
  | none   => s
  | some i => s.setUserProcess i { s.userProcesses i with state := state }

/-- `SysExit`; the exit code is not used. -/
def sysExit (s : State) (processId _code : UInt64) : UInt64 × State :=
  (if s.findUserProcess processId = none then 0 else 1, s.mark processId .exited)

/-- `AppProcessMain`. -/
def appProcessMain (s : State) (argument : UInt64) : State := s.mark argument .running

/-- `ShellMain` up to its `Exit` system call. -/
def shellMain (s : State) : State := s.mark s.status.shellProcessId .running

/-! ## The loader cache -/

def findLoaderCacheEntry (s : State) (path : Option String) : Option (Fin kMaxLoaderCacheEntries) :=
  Lib.firstSlot fun i => (s.loaderCache i).valid && stringEquals (s.loaderCache i).path path

/-- The entry that a path which is not cached takes. -/
def freeLoaderCacheEntry (s : State) : Option (Fin kMaxLoaderCacheEntries) :=
  Lib.firstSlot fun i => !(s.loaderCache i).valid

def registerLoaderCacheEntry (s : State) (path : Option String) (baseAddress entryAddress imageSize : UInt64) :
    Bool × State :=
  if path = none ∨ baseAddress = 0 ∨ entryAddress = 0 ∨ imageSize = 0 then (false, s)
  else
    match s.findLoaderCacheEntry path with
    | some i =>
      (true,
        s.setLoaderCacheEntry i { s.loaderCache i with
          baseAddress := baseAddress, entryAddress := entryAddress, imageSize := imageSize })
    | none =>
      match s.freeLoaderCacheEntry with
      | some i =>
        let entry : LoaderCacheEntry :=
          { path := path, baseAddress := baseAddress, entryAddress := entryAddress, imageSize := imageSize, valid := true }
        (true,
          { s.setLoaderCacheEntry i entry with
            status := { s.status with cachedLoaderEntryCount := s.status.cachedLoaderEntryCount + 1 } })
      | none => (false, s)

/-! ## Signal handlers -/

def registerSignalHandler (s : State) (processId : UInt64) (signal : UInt32) : Bool × State :=
  if processId = 0 ∨ signal ≥ 32 then (false, s)
  else
    match Lib.firstSlot fun i => !(s.signalHandlers i).pending && !(s.signalHandlers i).delivered with
    | none   => (false, s)
    | some i => (true, s.setSignalHandler i { s.signalHandlers i with processId := processId, signal := signal })

/-- The handler that `DeliverUserSignal` takes. -/
def findSignalHandler (s : State) (processId : UInt64) (signal : UInt32) : Option (Fin kMaxSignalHandlers) :=
  Lib.firstSlot fun i => (s.signalHandlers i).processId == processId && (s.signalHandlers i).signal == signal

/-- The end of `DeliverUserSignal`, for the handler in slot `i`. -/
def delivered (s : State) (i : Fin kMaxSignalHandlers) : State :=
  { s.setSignalHandler i { s.signalHandlers i with pending := false, delivered := true } with
    status := { s.status with deliveredSignalCount := s.status.deliveredSignalCount + 1 } }

end State

/-! ## Executables -/

/-- `AppExecutablePathValid`. -/
def appExecutablePathValid (path : Option String) : Bool :=
  match path with
  | none      => false
  | some path =>
    ("/system/apps/".toList.isPrefixOf path.toList || "/bin/".toList.isPrefixOf path.toList) &&
      (".app".toList.isSuffixOf path.toList || "/bin/".toList.isPrefixOf path.toList)

/-- `LoadUserElfImage` on an image of `kAppImageSize` bytes: whether it succeeds, what it loads, and the counter. -/
def State.loadUserElfImage (s : State) (image : Lib.Bytes) : Bool × UserElf.UserElfImage × State :=
  let r := (UserElf.loadUserElfImage (some image) UserElf.kAppImageSize { loadedElfCount := s.status.loadedElfCount }).value
  (r.1, r.2.1, { s with status := { s.status with loadedElfCount := r.2.2.loadedElfCount } })

/-- `RunElfLoaderSelfTest`; the image it builds is the one of an application at `0x400000`. -/
def State.runElfLoaderSelfTest (s : State) : Bool × State :=
  let image := UserElf.buildSyntheticAppElf (fun _ => 0) UserElf.kAppImageSize 0x400000
  let (ok, loaded, s) := s.loadUserElfImage image
  (ok && loaded.valid && loaded.entry == 0x400000 && loaded.segmentCount == 1, s)

/-- `KernelUserspaceInit` up to the self test of the loader. -/
def State.initialised : State :=
  let r := State.runElfLoaderSelfTest {}
  { r.2 with status := { r.2.status with elfLoaderReady := r.1 } }

end Userspace
end UefiBoot
