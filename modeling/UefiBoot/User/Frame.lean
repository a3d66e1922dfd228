import UefiBoot.User.System

/-!
# `User.Frame` — what each group of calls leaves alone

The calls of `User.System` fall into three groups, and each writes its own tables: files, pipes and pseudo
terminals (`Files`), user processes, and signal handlers. `files_invariant` is the run rule for a statement about
the first: it has to hold at reset and survive one call about files, over the log of these calls alone.

`kernel_reached` says that the kernel half of a run is a run of the scheduler, so whatever holds in every state the
scheduler reaches holds here.
-/

namespace UefiBoot
namespace Userspace

open Scheduler (Machine)

/-! ## The three groups -/

/-- The tables of files, pipes and pseudo terminals. -/
structure Files where
  posix : Fin kMaxPosixFileDescriptors → PosixFileDescriptor
  pipes : Fin kMaxPipes → UserPipe
  ptys  : Fin kMaxPtys → PseudoTerminal
  next  : Int32

def State.files (s : State) : Files :=
  { posix := s.posixFileDescriptors, pipes := s.pipes, ptys := s.ptys, next := s.nextSyntheticFd }

/-- The calls about files in a log, newest first. -/
def fileCalls (log : List Event) : List (FileOp × Result) :=
  log.filterMap fun ev =>
    match ev.op with
    | .file op => some (op, ev.result)
    | _        => none

/-- The calls about signals in a log, newest first. -/
def signalCalls (log : List Event) : List (SignalOp × Result) :=
  log.filterMap fun ev =>
    match ev.op with
    | .signal op => some (op, ev.result)
    | _          => none

@[simp] theorem fileCalls_file (op : FileOp) (r : Result) (log : List Event) :
    fileCalls (⟨.file op, r⟩ :: log) = (op, r) :: fileCalls log := rfl

@[simp] theorem fileCalls_process (op : ProcessOp) (r : Result) (log : List Event) :
    fileCalls (⟨.process op, r⟩ :: log) = fileCalls log := rfl

@[simp] theorem fileCalls_signal (op : SignalOp) (r : Result) (log : List Event) :
    fileCalls (⟨.signal op, r⟩ :: log) = fileCalls log := rfl

@[simp] theorem signalCalls_file (op : FileOp) (r : Result) (log : List Event) :
    signalCalls (⟨.file op, r⟩ :: log) = signalCalls log := rfl

@[simp] theorem signalCalls_process (op : ProcessOp) (r : Result) (log : List Event) :
    signalCalls (⟨.process op, r⟩ :: log) = signalCalls log := rfl

@[simp] theorem signalCalls_signal (op : SignalOp) (r : Result) (log : List Event) :
    signalCalls (⟨.signal op, r⟩ :: log) = (op, r) :: signalCalls log := rfl

/-- Two states that agree on files and signal handlers. -/
structure SameTables (s s' : State) : Prop where
  files   : s'.files = s.files
  signals : s'.signalHandlers = s.signalHandlers

theorem SameTables.refl (s : State) : SameTables s s := ⟨rfl, rfl⟩

theorem SameTables.trans {s s' t : State} (h : SameTables s s') (h' : SameTables s' t) : SameTables s t :=
  ⟨h'.files.trans h.files, h'.signals.trans h.signals⟩

section Frames

variable (s : State)

theorem sameTables_mark (processId : UInt64) (state : UserProcessState) : SameTables s (s.mark processId state) := by
  unfold State.mark
  split
  · exact .refl s
  · exact ⟨rfl, rfl⟩

theorem sameTables_registerLoaderCacheEntry (path : Option String) (base entry size : UInt64) :
    SameTables s (s.registerLoaderCacheEntry path base entry size).2 := by
  unfold State.registerLoaderCacheEntry
  split
  · exact .refl s
  · split
    · exact ⟨rfl, rfl⟩
    · split
      · exact ⟨rfl, rfl⟩
      · exact .refl s

end Frames

/-- Two states that agree on user processes, the loader cache and the shell. -/
structure SameProcesses (s s' : State) : Prop where
  userProcesses  : s'.userProcesses = s.userProcesses
  loaderCache    : s'.loaderCache = s.loaderCache
  nextAppBase    : s'.nextAppBase = s.nextAppBase
  shellProcessId : s'.status.shellProcessId = s.status.shellProcessId

theorem SameProcesses.refl (s : State) : SameProcesses s s := ⟨rfl, rfl, rfl, rfl⟩

/-- **The frame of a call about files**: the other two groups. -/
theorem frame_file (s : State) (op : FileOp) :
    SameProcesses s (s.file op).2 ∧ (s.file op).2.signalHandlers = s.signalHandlers := by
  have hsame : ∀ {t : State}, t = s → SameProcesses s t ∧ t.signalHandlers = s.signalHandlers := by
    rintro t rfl
    exact ⟨.refl t, rfl⟩
  cases op with
  | posixOpen path =>
    show SameProcesses s (s.posixOpen path).2 ∧ (s.posixOpen path).2.signalHandlers = _
    unfold State.posixOpen
    split
    · exact hsame rfl
    · split
      · exact hsame rfl
      · exact ⟨⟨rfl, rfl, rfl, rfl⟩, rfl⟩
  | posixClose fd =>
    show SameProcesses s (s.posixClose fd).2 ∧ (s.posixClose fd).2.signalHandlers = _
    unfold State.posixClose
    split
    · exact hsame rfl
    · exact ⟨⟨rfl, rfl, rfl, rfl⟩, rfl⟩
  | createPipe outs =>
    show SameProcesses s (s.createPipe outs).2 ∧ (s.createPipe outs).2.signalHandlers = _
    unfold State.createPipe
    split
    · exact hsame rfl
    · split
      · exact hsame rfl
      · exact ⟨⟨rfl, rfl, rfl, rfl⟩, rfl⟩
  | pipeWrite fd data length =>
    show SameProcesses s (s.pipeWrite fd data length).2 ∧ (s.pipeWrite fd data length).2.signalHandlers = _
    unfold State.pipeWrite
    split
    · exact hsame rfl
    · split
      · exact hsame rfl
      · split
        · exact hsame rfl
        · exact ⟨⟨rfl, rfl, rfl, rfl⟩, rfl⟩
  | pipeRead fd buffer length =>
    show SameProcesses s (s.pipeRead fd buffer length).2 ∧ (s.pipeRead fd buffer length).2.signalHandlers = _
    unfold State.pipeRead
    split
    · exact hsame rfl
    · split
      · exact hsame rfl
      · exact ⟨⟨rfl, rfl, rfl, rfl⟩, rfl⟩
  | openPseudoTerminal name outs =>
    show SameProcesses s (s.openPseudoTerminal name outs).2 ∧ (s.openPseudoTerminal name outs).2.signalHandlers = _
    unfold State.openPseudoTerminal
    split
    · exact hsame rfl
    · split
      · exact hsame rfl
      · exact ⟨⟨rfl, rfl, rfl, rfl⟩, rfl⟩

/-! ## How a call about user processes can end -/

section Register

variable (s : State) (processId : UInt64) (name : Option String)

theorem registerUserProcess_cases :
    (s.registerUserProcess processId name = (none, s) ∧ (processId = 0 ∨ name = none ∨ s.freeUserProcess = none)) ∨
    ∃ i, s.freeUserProcess = some i ∧ processId ≠ 0 ∧ name ≠ none ∧
      s.registerUserProcess processId name =
        (some i,
          s.setUserProcess i { processId := processId, name := name, state := .ready, ring3Intent := true }) := by
  unfold State.registerUserProcess
  by_cases harg : processId = 0 ∨ name = none
  · exact .inl ⟨if_pos harg, harg.imp_right .inl⟩
  · rw [if_neg harg]
    rw [not_or] at harg
    cases hfree : s.freeUserProcess with
    | none => exact .inl ⟨rfl, .inr (.inr rfl)⟩
    | some i => exact .inr ⟨i, rfl, harg.1, harg.2, rfl⟩

end Register

namespace System

/-- The system in which `f` has been done to the tables of `userspace.cpp`. -/
def withUser (s : System) (user : State) : System := { s with user := user }

/-- The system after a call of the scheduler. -/
def withCall (s : System) (c : Scheduler.Call) : System := { s with kernel := s.kernel.call c }

section Cases

variable {e : Entries} (s : System)

/-- The identifier that `KernelCreateProcess` returns. -/
def newProcess (s : System) (name : Option String) : UInt64 := (Scheduler.kernelCreateProcess s.kernel.sched name).1

theorem registerUserProcess_cases (processId : UInt64) (name : Option String) :
    (s.registerUserProcess processId name = (false, s) ∧
      (processId = 0 ∨ name = none ∨ s.user.freeUserProcess = none)) ∨
    ∃ i, s.user.freeUserProcess = some i ∧ processId ≠ 0 ∧ name ≠ none ∧
      s.registerUserProcess processId name =
        (true, s.withUser (s.user.setUserProcess i
          { processId := processId, name := name, state := .ready, ring3Intent := true })) := by
  unfold registerUserProcess
  rcases Userspace.registerUserProcess_cases s.user processId name with ⟨hreg, hwhy⟩ | ⟨i, hfree, hpid, hname, hreg⟩
  · left
    rw [hreg]
    exact ⟨rfl, hwhy⟩
  · right
    rw [hreg]
    exact ⟨i, hfree, hpid, hname, rfl⟩

/-- **Starting a process** creates it, then registers it, then creates its thread, then sets the status. -/
theorem startProcess_cases (name threadName : String) (entry : UInt64)
    (started : UInt64 → UInt64 → UserspaceStatus → UserspaceStatus) :
    let pid := s.newProcess (some name)
    let s₁ := s.withCall (.createProcess (some name))
    s.startProcess name threadName entry started = (false, s₁) ∨
    ∃ i, s.user.freeUserProcess = some i ∧ pid ≠ 0 ∧
      let s₂ := s₁.withUser (s.user.setUserProcess i
        { processId := pid, name := some name, state := .ready, ring3Intent := true })
      let r := s₂.createThread pid (some threadName) entry 0
      (r.1 = 0 ∧ s.startProcess name threadName entry started = (false, r.2)) ∨
      (r.1 ≠ 0 ∧ s.startProcess name threadName entry started =
        (true, r.2.withUser { s₂.user with status := started pid r.1 s.user.status })) := by
  intro pid s₁
  have hcreate : s.createProcess (some name) = (pid, s₁) := rfl
  unfold startProcess
  rw [hcreate]
  dsimp -zeta only
  by_cases hpid : pid = 0
  · exact .inl (if_pos hpid)
  · rw [if_neg hpid]
    rcases s₁.registerUserProcess_cases pid (some name) with ⟨hreg, -⟩ | ⟨i, hfree, -, -, hreg⟩
    · left
      rw [hreg]
      rfl
    · right
      refine ⟨i, hfree, hpid, ?_⟩
      intro s₂ r
      rw [hreg]
      by_cases htid : r.1 = 0
      · exact .inl ⟨htid, if_pos htid⟩
      · exact .inr ⟨htid, if_neg htid⟩

/-- **Caching an application** loads its image and enters it under its path. -/
theorem cache_cases (appId path : Option String) :
    let refused := appId = none ∨ !appExecutablePathValid path ∨ !s.user.status.elfLoaderReady
    let r := s.user.loadUserElfImage
      (UserElf.buildSyntheticAppElf (fun _ => 0) UserElf.kAppImageSize s.user.nextAppBase)
    let c := r.2.2.registerLoaderCacheEntry path r.2.1.lowestAddress r.2.1.entry
      (r.2.1.highestAddress - r.2.1.lowestAddress)
    (refused ∧ s.cacheApplication appId path = (false, s)) ∨
    (¬ refused ∧ r.1 = false ∧ s.cacheApplication appId path = (false, s.withUser r.2.2)) ∨
    (¬ refused ∧ r.1 = true ∧ s.cacheApplication appId path = (c.1, s.withUser c.2)) := by
  unfold cacheApplication
  dsimp only
  -- the loader itself does not matter here
  generalize s.user.loadUserElfImage
    (UserElf.buildSyntheticAppElf (fun _ => 0) UserElf.kAppImageSize s.user.nextAppBase) = r
  obtain ⟨ok, loaded, user⟩ := r
  by_cases hrefused : appId = none ∨ !appExecutablePathValid path ∨ !s.user.status.elfLoaderReady
  · exact .inl ⟨hrefused, if_pos hrefused⟩
  · right
    rw [if_neg hrefused]
    cases ok with
    | false => exact .inl ⟨hrefused, rfl, rfl⟩
    | true => exact .inr ⟨hrefused, rfl, rfl⟩

/-- **Launching an application** enters the image in the loader cache, then creates the process, then registers
    it, then moves the base on. -/
theorem launch_cases (appId path : Option String) :
    let s₁ := (s.cacheApplication appId path).2
    let pid := s₁.newProcess path
    let s₂ := s₁.withCall (.createProcess path)
    ((s.cacheApplication appId path).1 = false ∧ s.launchUserApplication appId path = ((false, 0, 0), s₁)) ∨
    ((s.cacheApplication appId path).1 = true ∧
      (pid = 0 ∨ appId = none ∨ s₁.user.freeUserProcess = none) ∧
      s.launchUserApplication appId path = ((false, 0, 0), s₂)) ∨
    ((s.cacheApplication appId path).1 = true ∧ pid ≠ 0 ∧ ∃ i, s₁.user.freeUserProcess = some i ∧
      let user := s₁.user.setUserProcess i { processId := pid, name := appId, state := .ready, ring3Intent := true }
      s.launchUserApplication appId path =
        ((true, pid, 0), s₂.withUser { user with nextAppBase := user.nextAppBase + 0x20000 })) := by
  intro s₁ pid s₂
  have hcreate : s₁.createProcess path = (pid, s₂) := rfl
  have hcache : s.cacheApplication appId path = ((s.cacheApplication appId path).1, s₁) := rfl
  unfold launchUserApplication
  rw [hcache]
  cases (s.cacheApplication appId path).1 with
  | false => exact .inl ⟨rfl, rfl⟩
  | true =>
    right
    dsimp only
    rw [hcreate]
    dsimp only
    by_cases hpid : pid = 0
    · exact .inl ⟨rfl, .inl hpid, if_pos hpid⟩
    · rw [if_neg hpid]
      rcases s₂.registerUserProcess_cases pid appId with ⟨hreg, hwhy⟩ | ⟨i, hfree, -, -, hreg⟩
      · left
        refine ⟨rfl, hwhy, ?_⟩
        rw [hreg]
        rfl
      · right
        refine ⟨rfl, hpid, i, hfree, ?_⟩
        rw [hreg]
        rfl

theorem startEventLoop_cases (processId : UInt64) (appId : Option String) :
    s.startUserApplicationEventLoop e processId appId = ((false, 0), s) ∨
    processId ≠ 0 ∧ s.user.findUserProcess processId ≠ none ∧
      (s.startUserApplicationEventLoop e processId appId).2 =
        s.withCall (.createThread processId appId e.appProcessMain processId) := by
  unfold startUserApplicationEventLoop
  by_cases harg : processId = 0 ∨ appId = none ∨ s.user.findUserProcess processId = none
  · exact .inl (if_pos harg)
  · rw [if_neg harg]
    rw [not_or, not_or] at harg
    exact .inr ⟨harg.1, harg.2.2, rfl⟩

theorem exit_cases (processId : UInt64) (code : Int32) :
    (s.user.findUserProcess processId = none ∧ s.exitUserApplication processId code = (false, s)) ∨
    ∃ i, s.user.findUserProcess processId = some i ∧
      let r := s.terminateProcess processId code
      (r.1 = false ∧ s.exitUserApplication processId code = (false, r.2)) ∨
      (r.1 = true ∧ s.exitUserApplication processId code =
        (true, r.2.withUser (s.user.setUserProcess i { s.user.userProcesses i with state := .exited }))) := by
  unfold exitUserApplication
  cases hfind : s.user.findUserProcess processId with
  | none => exact .inl ⟨rfl, rfl⟩
  | some i =>
    refine .inr ⟨i, rfl, ?_⟩
    intro r
    have hr : s.terminateProcess processId code = (r.1, r.2) := rfl
    dsimp only
    rw [hr]
    cases r.1 with
    | false => exact .inl ⟨rfl, rfl⟩
    | true => exact .inr ⟨rfl, rfl⟩

theorem deliver_cases (processId threadId : UInt64) (signal : UInt32) :
    (s.user.findSignalHandler processId signal = none ∧ s.deliverUserSignal processId threadId signal = (false, s)) ∨
    ∃ i, s.user.findSignalHandler processId signal = some i ∧
      let r := s.sendSignal threadId signal
      (r.1 = false ∧ s.deliverUserSignal processId threadId signal = (false, r.2)) ∨
      (r.1 = true ∧ s.deliverUserSignal processId threadId signal = (true, r.2.withUser (s.user.delivered i))) := by
  unfold deliverUserSignal
  cases hfind : s.user.findSignalHandler processId signal with
  | none => exact .inl ⟨rfl, rfl⟩
  | some i =>
    refine .inr ⟨i, rfl, ?_⟩
    intro r
    have hr : s.sendSignal threadId signal = (r.1, r.2) := rfl
    dsimp only
    rw [hr]
    cases r.1 with
    | false => exact .inl ⟨rfl, rfl⟩
    | true => exact .inr ⟨rfl, rfl⟩

end Cases

/-! ## The tables that a call leaves alone -/

section Tables

variable (e : Entries) (s : System)

theorem sameTables_startProcess (name threadName : String) (entry : UInt64)
    (started : UInt64 → UInt64 → UserspaceStatus → UserspaceStatus) :
    SameTables s.user (s.startProcess name threadName entry started).2.user := by
  rcases s.startProcess_cases name threadName entry started with h | ⟨i, -, -, ⟨-, h⟩ | ⟨-, h⟩⟩ <;> rw [h]
  · exact .refl s.user
  · exact ⟨rfl, rfl⟩
  · exact ⟨rfl, rfl⟩

theorem sameTables_cacheApplication (appId path : Option String) :
    SameTables s.user (s.cacheApplication appId path).2.user := by
  have hload : ∀ image, SameTables s.user (s.user.loadUserElfImage image).2.2 := fun image => ⟨rfl, rfl⟩
  rcases s.cache_cases appId path with ⟨-, h⟩ | ⟨-, -, h⟩ | ⟨-, -, h⟩ <;> rw [h]
  · exact .refl s.user
  · exact hload _
  · exact (hload _).trans (sameTables_registerLoaderCacheEntry _ _ _ _ _)

theorem sameTables_launch (appId path : Option String) :
    SameTables s.user (s.launchUserApplication appId path).2.user := by
  have hcache := s.sameTables_cacheApplication appId path
  rcases s.launch_cases appId path with ⟨-, h⟩ | ⟨-, -, h⟩ | ⟨-, -, i, -, h⟩ <;> rw [h]
  · exact hcache
  · exact hcache
  · exact hcache.trans ⟨rfl, rfl⟩

theorem sameTables_process (op : ProcessOp) : SameTables s.user (s.process e op).2.user := by
  cases op with
  | registerLoaderCacheEntry path base entry size => exact sameTables_registerLoaderCacheEntry s.user path base entry size
  | sysExit pid code => exact sameTables_mark s.user pid .exited
  | startInitProcess =>
    show SameTables s.user (s.startInitProcess e).2.user
    exact s.sameTables_startProcess _ _ _ _
  | startShellProcess =>
    show SameTables s.user (s.startShellProcess e).2.user
    exact s.sameTables_startProcess _ _ _ _
  | launchUserApplication appId path => exact s.sameTables_launch appId path
  | startUserApplicationEventLoop pid appId =>
    show SameTables s.user (s.startUserApplicationEventLoop e pid appId).2.user
    rcases s.startEventLoop_cases pid appId with h | ⟨-, -, h⟩ <;> rw [h] <;> exact .refl s.user
  | exitUserApplication pid code =>
    show SameTables s.user (s.exitUserApplication pid code).2.user
    rcases s.exit_cases pid code with ⟨-, h⟩ | ⟨i, -, ⟨-, h⟩ | ⟨-, h⟩⟩ <;> rw [h]
    · exact .refl s.user
    · exact .refl s.user
    · exact ⟨rfl, rfl⟩

theorem sameTables_entered : SameTables s.user (s.entered e) := by
  unfold entered
  split
  · dsimp only
    split
    · exact sameTables_mark s.user _ .running
    · split
      · exact sameTables_mark s.user _ .running
      · exact .refl s.user
  · exact .refl s.user

/-- A call about signals does not touch the files. -/
theorem files_signal (op : SignalOp) : (s.signal op).2.user.files = s.user.files := by
  cases op with
  | registerSignalHandler pid signal =>
    show (s.user.registerSignalHandler pid signal).2.files = _
    unfold State.registerSignalHandler
    split
    · rfl
    · split <;> rfl
  | deliverUserSignal pid tid signal =>
    show (s.deliverUserSignal pid tid signal).2.user.files = _
    rcases s.deliver_cases pid tid signal with ⟨-, h⟩ | ⟨i, -, ⟨-, h⟩ | ⟨-, h⟩⟩ <;> rw [h] <;> rfl

/-- A call about signals does not touch the user processes. -/
theorem sameProcesses_signal (op : SignalOp) : SameProcesses s.user (s.signal op).2.user := by
  cases op with
  | registerSignalHandler pid signal =>
    show SameProcesses s.user (s.user.registerSignalHandler pid signal).2
    unfold State.registerSignalHandler
    split
    · exact .refl s.user
    · split
      · exact .refl s.user
      · exact ⟨rfl, rfl, rfl, rfl⟩
  | deliverUserSignal pid tid signal =>
    show SameProcesses s.user (s.deliverUserSignal pid tid signal).2.user
    rcases s.deliver_cases pid tid signal with ⟨-, h⟩ | ⟨i, -, ⟨-, h⟩ | ⟨-, h⟩⟩ <;> rw [h]
    · exact .refl s.user
    · exact .refl s.user
    · exact ⟨rfl, rfl, rfl, rfl⟩

end Tables

/-! ## Runs -/

/-- What one step can be. -/
theorem step_cases (e : Entries) (s : System) (a : Action) :
    s.step e a = s ∨
    (∃ op, a = .call op ∧ s.kernel.control = .user ∧ s.step e a = s.call e op) ∨
    (∃ b, a = .kernel b ∧ Foreign e b ∧
      s.step e a = { s with user := if b = .run then s.entered e else s.user, kernel := s.kernel.step b }) := by
  cases a with
  | call op =>
    by_cases hcontrol : s.kernel.control = .user
    · refine .inr (.inl ⟨op, rfl, hcontrol, ?_⟩)
      unfold step
      rw [hcontrol]
    · left
      unfold step
      dsimp only
      split
      · contradiction
      · rfl
  | kernel b =>
    by_cases hforeign : Foreign e b
    · exact .inr (.inr ⟨b, rfl, hforeign, if_pos hforeign⟩)
    · exact .inl (if_neg hforeign)

end System

/-- **The run rule for files.** What holds at reset and survives every call about files holds in every state of
    every run. -/
theorem files_invariant {I : Files → List (FileOp × Result) → Prop} (hreset : I State.initialised.files [])
    (hfile : ∀ (s : State) log op, I s.files log → I (s.file op).2.files ((op, (s.file op).1) :: log))
    (e : Entries) (heap : { h : KernelHeap // h.InBlock }) (as : List System.Action) :
    I (reached e heap as).user.files (fileCalls (reached e heap as).log) := by
  have hstep : ∀ (s : System) a, I s.user.files (fileCalls s.log) →
      I (s.step e a).user.files (fileCalls (s.step e a).log) := by
    intro s a h
    rcases s.step_cases e a with hstep | ⟨op, -, -, hstep⟩ | ⟨b, -, -, hstep⟩ <;> rw [hstep]
    · exact h
    · cases op with
      | file op => exact hfile s.user (fileCalls s.log) op h
      | process op =>
        show I (s.process e op).2.user.files (fileCalls s.log)
        rw [(s.sameTables_process e op).files]
        exact h
      | signal op =>
        show I (s.signal op).2.user.files (fileCalls s.log)
        rw [s.files_signal op]
        exact h
    · dsimp only
      split
      · rw [(s.sameTables_entered e).files]
        exact h
      · exact h
  exact Lib.run_invariant hstep hreset as

/-! ## The kernel half -/

/-- `m'` is `m` after calls of the scheduler that return at once, as those of `userspace.cpp` do. -/
inductive Calls (m : Machine) : Machine → Prop
  | refl : Calls m m
  | call {m' : Machine} (h : Calls m m') (c : Scheduler.Call) (hc : (m'.call c).control = .user) :
      Calls m (m'.call c)

theorem Calls.run {m m' : Machine} (h : Calls m m') (hcontrol : m.control = .user) :
    m'.control = .user ∧ ∃ bs, m' = Lib.run Machine.step m bs := by
  induction h with
  | refl => exact ⟨hcontrol, [], rfl⟩
  | call h c hc ih =>
    obtain ⟨huser, bs, hbs⟩ := ih
    refine ⟨hc, bs ++ [.call c], ?_⟩
    rw [Lib.run_append, ← hbs]
    show _ = Machine.step _ _
    unfold Machine.step
    rw [huser]

namespace System

variable (e : Entries) (s : System)

theorem calls_startProcess (name threadName : String) (entry : UInt64)
    (started : UInt64 → UInt64 → UserspaceStatus → UserspaceStatus) :
    Calls s.kernel (s.startProcess name threadName entry started).2.kernel := by
  have hcreate := (Calls.refl (m := s.kernel)).call (.createProcess (some name)) rfl
  rcases s.startProcess_cases name threadName entry started with h | ⟨i, -, -, ⟨-, h⟩ | ⟨-, h⟩⟩ <;> rw [h]
  · exact hcreate
  · exact hcreate.call (.createThread _ _ _ _) rfl
  · exact hcreate.call (.createThread _ _ _ _) rfl

theorem kernel_cacheApplication (appId path : Option String) :
    (s.cacheApplication appId path).2.kernel = s.kernel := by
  have hcases := s.cache_cases appId path
  dsimp only at hcases
  generalize s.user.loadUserElfImage
    (UserElf.buildSyntheticAppElf (fun _ => 0) UserElf.kAppImageSize s.user.nextAppBase) = r at hcases
  rcases hcases with ⟨-, h⟩ | ⟨-, -, h⟩ | ⟨-, -, h⟩ <;> rw [h] <;> rfl

theorem calls_launch (appId path : Option String) :
    Calls s.kernel (s.launchUserApplication appId path).2.kernel := by
  have hcreate := (Calls.refl (m := s.kernel)).call (.createProcess path) rfl
  have hcache := s.kernel_cacheApplication appId path
  rcases s.launch_cases appId path with ⟨-, h⟩ | ⟨-, -, h⟩ | ⟨-, -, i, -, h⟩ <;> rw [h]
  · rw [hcache]
    exact .refl
  · unfold withCall
    rw [hcache]
    exact hcreate
  · unfold withUser withCall
    rw [hcache]
    exact hcreate

theorem calls_process (op : ProcessOp) : Calls s.kernel (s.process e op).2.kernel := by
  cases op with
  | registerLoaderCacheEntry path base entry size => exact .refl
  | sysExit pid code => exact .refl
  | startInitProcess =>
    show Calls s.kernel (s.startInitProcess e).2.kernel
    exact s.calls_startProcess _ _ _ _
  | startShellProcess =>
    show Calls s.kernel (s.startShellProcess e).2.kernel
    exact s.calls_startProcess _ _ _ _
  | launchUserApplication appId path => exact s.calls_launch appId path
  | startUserApplicationEventLoop pid appId =>
    show Calls s.kernel (s.startUserApplicationEventLoop e pid appId).2.kernel
    rcases s.startEventLoop_cases pid appId with h | ⟨-, -, h⟩ <;> rw [h]
    · exact .refl
    · exact Calls.refl.call (.createThread _ _ _ _) rfl
  | exitUserApplication pid code =>
    show Calls s.kernel (s.exitUserApplication pid code).2.kernel
    rcases s.exit_cases pid code with ⟨-, h⟩ | ⟨i, -, ⟨-, h⟩ | ⟨-, h⟩⟩ <;> rw [h]
    · exact .refl
    · exact Calls.refl.call (.terminateProcess _ _) rfl
    · exact Calls.refl.call (.terminateProcess _ _) rfl

theorem calls_perform (op : Op) : Calls s.kernel (s.perform e op).2.kernel := by
  cases op with
  | file op => exact .refl
  | process op => exact s.calls_process e op
  | signal op =>
    cases op with
    | registerSignalHandler pid signal => exact .refl
    | deliverUserSignal pid tid signal =>
      show Calls s.kernel (s.deliverUserSignal pid tid signal).2.kernel
      rcases s.deliver_cases pid tid signal with ⟨-, h⟩ | ⟨i, -, ⟨-, h⟩ | ⟨-, h⟩⟩ <;> rw [h]
      · exact .refl
      · exact Calls.refl.call (.sendSignal _ _) rfl
      · exact Calls.refl.call (.sendSignal _ _) rfl

end System

/-- **The kernel half of a run** is a run of the scheduler. -/
theorem kernel_reached (e : Entries) (heap : { h : KernelHeap // h.InBlock }) (as : List System.Action) :
    ∃ bs, (reached e heap as).kernel = Scheduler.reached heap bs := by
  have hstep : ∀ (s : System) a, (∃ bs, s.kernel = Scheduler.reached heap bs) →
      ∃ bs, (s.step e a).kernel = Scheduler.reached heap bs := by
    rintro s a ⟨bs, hbs⟩
    rcases s.step_cases e a with hstep | ⟨op, -, hcontrol, hstep⟩ | ⟨b, -, -, hstep⟩ <;> rw [hstep]
    · exact ⟨bs, hbs⟩
    · obtain ⟨-, cs, hcs⟩ := (s.calls_perform e op).run hcontrol
      refine ⟨bs ++ cs, ?_⟩
      show (s.perform e op).2.kernel = Lib.run Machine.step _ _
      rw [hcs, hbs, Lib.run_append]
    · refine ⟨bs ++ [b], ?_⟩
      show s.kernel.step b = Lib.run Machine.step _ _
      rw [Lib.run_append, hbs]
      rfl
  exact Lib.run_invariant hstep ⟨[], rfl⟩ as

end Userspace
end UefiBoot
