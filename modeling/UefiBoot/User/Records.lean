import UefiBoot.User.Frame

/-!
# `User.Records` — the table of user processes along a run

A record goes from `Empty` to `Ready` once and never back (`Written`): the only way to a free record is one that
has never been used. So the table fills up (`State.used`), and the base address of the next application, which
moves with every launch, is bounded by the number of records (`Based`).
-/

namespace UefiBoot
namespace Userspace

/-! ## What a step does to the table -/

/-- The table of user processes after one step: as it was, with one more record, or with one record marked as
    `state`. -/
inductive Written (state : UserProcessState) (u : State) : (Fin kMaxUserProcesses → UserProcess) → Prop
  | same : Written state u u.userProcesses
  | registered {i : Fin kMaxUserProcesses} (hfree : u.freeUserProcess = some i) {processId : UInt64}
      (hid : processId ≠ 0) (name : Option String) :
      Written state u (Function.update u.userProcesses i
        { processId := processId, name := name, state := .ready, ring3Intent := true })
  | marked {i : Fin kMaxUserProcesses} {processId : UInt64} (hfind : u.findUserProcess processId = some i) :
      Written state u (Function.update u.userProcesses i { u.userProcesses i with state := state })

section Table

variable {u u' : State} {i : Fin kMaxUserProcesses} {processId : UInt64}

theorem freeUserProcess_some (h : u.freeUserProcess = some i) : (u.userProcesses i).state = .empty := by
  simpa using Lib.firstSlot_true h

theorem freeUserProcess_none : u.freeUserProcess = none ↔ ∀ i, (u.userProcesses i).state ≠ .empty := by
  unfold State.freeUserProcess
  rw [Lib.firstSlot_eq_none_iff]
  simp

theorem findUserProcess_some (h : u.findUserProcess processId = some i) :
    (u.userProcesses i).processId = processId ∧ (u.userProcesses i).state ≠ .empty := by
  simpa using Lib.firstSlot_true h

theorem written_mark (state : UserProcessState) : Written state u (u.mark processId state).userProcesses := by
  unfold State.mark
  split
  · exact .same
  · next i hfind => exact .marked hfind

theorem written_entered (e : Entries) (s : System) : Written .running s.user (s.entered e).userProcesses := by
  unfold System.entered
  split
  · dsimp only
    split
    · exact written_mark .running
    · split
      · exact written_mark .running
      · exact .same
  · exact .same

end Table

section Steps

variable (e : Entries) (s : System)

theorem written_startProcess (name threadName : String) (entry : UInt64)
    (started : UInt64 → UInt64 → UserspaceStatus → UserspaceStatus) :
    Written .exited s.user (s.startProcess name threadName entry started).2.user.userProcesses := by
  rcases s.startProcess_cases name threadName entry started with h | ⟨i, hfree, hpid, ⟨-, h⟩ | ⟨-, h⟩⟩ <;> rw [h]
  · exact .same
  · exact .registered hfree hpid (some name)
  · exact .registered hfree hpid (some name)

/-- Loading and caching an application leaves the user processes and the base alone. -/
theorem cacheApplication_frame (appId path : Option String) :
    (s.cacheApplication appId path).2.user.userProcesses = s.user.userProcesses ∧
    (s.cacheApplication appId path).2.user.nextAppBase = s.user.nextAppBase := by
  have hregister : ∀ (u : State) (base entry size : UInt64),
      (u.registerLoaderCacheEntry path base entry size).2.userProcesses = u.userProcesses ∧
      (u.registerLoaderCacheEntry path base entry size).2.nextAppBase = u.nextAppBase := by
    intro u base entry size
    unfold State.registerLoaderCacheEntry
    split
    · exact ⟨rfl, rfl⟩
    · split
      · exact ⟨rfl, rfl⟩
      · split
        · exact ⟨rfl, rfl⟩
        · exact ⟨rfl, rfl⟩
  have hload : ∀ image, (s.user.loadUserElfImage image).2.2.userProcesses = s.user.userProcesses ∧
      (s.user.loadUserElfImage image).2.2.nextAppBase = s.user.nextAppBase := fun image => ⟨rfl, rfl⟩
  rcases s.cache_cases appId path with ⟨-, h⟩ | ⟨-, -, h⟩ | ⟨-, -, h⟩ <;> rw [h]
  · exact ⟨rfl, rfl⟩
  · exact hload _
  · exact ⟨(hregister _ _ _ _).1.trans (hload _).1, (hregister _ _ _ _).2.trans (hload _).2⟩

theorem written_launch (appId path : Option String) :
    Written .exited s.user (s.launchUserApplication appId path).2.user.userProcesses := by
  obtain ⟨hrecords, -⟩ := cacheApplication_frame s appId path
  have hfree : ∀ {i}, (s.cacheApplication appId path).2.user.freeUserProcess = some i →
      s.user.freeUserProcess = some i := by
    intro i hi
    unfold State.freeUserProcess at hi ⊢
    rw [hrecords] at hi
    exact hi
  rcases s.launch_cases appId path with ⟨-, h⟩ | ⟨-, -, h⟩ | ⟨-, hpid, i, hi, h⟩ <;> rw [h]
  · rw [hrecords]
    exact .same
  · show Written .exited s.user (s.cacheApplication appId path).2.user.userProcesses
    rw [hrecords]
    exact .same
  · show Written .exited s.user (Function.update (s.cacheApplication appId path).2.user.userProcesses i _)
    rw [hrecords]
    exact .registered (hfree hi) hpid appId

theorem written_process (op : ProcessOp) : Written .exited s.user (s.process e op).2.user.userProcesses := by
  cases op with
  | registerLoaderCacheEntry path base entry size =>
    show Written .exited s.user (s.user.registerLoaderCacheEntry path base entry size).2.userProcesses
    unfold State.registerLoaderCacheEntry
    split
    · exact .same
    · split
      · exact .same
      · split <;> exact .same
  | sysExit pid code => exact written_mark .exited
  | startInitProcess =>
    show Written .exited s.user (s.startInitProcess e).2.user.userProcesses
    exact written_startProcess s _ _ _ _
  | startShellProcess =>
    show Written .exited s.user (s.startShellProcess e).2.user.userProcesses
    exact written_startProcess s _ _ _ _
  | launchUserApplication appId path => exact written_launch s appId path
  | startUserApplicationEventLoop pid appId =>
    show Written .exited s.user (s.startUserApplicationEventLoop e pid appId).2.user.userProcesses
    rcases s.startEventLoop_cases pid appId with h | ⟨-, -, h⟩ <;> rw [h] <;> exact .same
  | exitUserApplication pid code =>
    show Written .exited s.user (s.exitUserApplication pid code).2.user.userProcesses
    rcases s.exit_cases pid code with ⟨-, h⟩ | ⟨i, hfind, ⟨-, h⟩ | ⟨-, h⟩⟩ <;> rw [h]
    · exact .same
    · exact .same
    · exact .marked hfind

/-- **What a step does to the table of user processes.** A call marks a record as exited; a thread that is started
    marks one as running. -/
theorem written_step (a : System.Action) :
    Written .exited s.user (s.step e a).user.userProcesses ∨
    a = .kernel .run ∧ (s.step e a).user = s.entered e := by
  rcases s.step_cases e a with hstep | ⟨op, -, -, hstep⟩ | ⟨b, rfl, -, hstep⟩ <;> rw [hstep]
  · exact .inl .same
  · left
    cases op with
    | file op =>
      show Written .exited s.user (s.user.file op).2.userProcesses
      rw [(frame_file s.user op).1.userProcesses]
      exact .same
    | process op => exact written_process e s op
    | signal op =>
      show Written .exited s.user (s.signal op).2.user.userProcesses
      rw [(s.sameProcesses_signal op).userProcesses]
      exact .same
  · dsimp only
    split
    · next hrun => exact .inr ⟨congrArg System.Action.kernel hrun, rfl⟩
    · exact .inl .same

end Steps

/-! ## Records in use -/

/-- Whether a record is in use, as a number. -/
def UserProcess.taken (p : UserProcess) : Nat := if p.state = .empty then 0 else 1

theorem UserProcess.taken_empty {p : UserProcess} (h : p.state = .empty) : p.taken = 0 := if_pos h

theorem UserProcess.taken_used {p : UserProcess} (h : p.state ≠ .empty) : p.taken = 1 := if_neg h

/-- The records in use. -/
def State.used (u : State) : Nat := ∑ i, (u.userProcesses i).taken

section Used

variable {u u' : State}

theorem used_congr (h : u'.userProcesses = u.userProcesses) : u'.used = u.used := by
  unfold State.used
  rw [h]

theorem used_le (u : State) : u.used ≤ kMaxUserProcesses := by
  have hone : ∀ i ∈ Finset.univ, (u.userProcesses i).taken ≤ 1 := by
    intro i _
    unfold UserProcess.taken
    split <;> decide
  have hsum := Finset.sum_le_card_nsmul Finset.univ (fun i => (u.userProcesses i).taken) 1 hone
  rw [Finset.card_univ, Fintype.card_fin] at hsum
  exact hsum

/-- No record is free exactly when all are in use. -/
theorem freeUserProcess_none_iff : u.freeUserProcess = none ↔ u.used = kMaxUserProcesses := by
  rw [freeUserProcess_none]
  constructor
  · intro hall
    have hone : ∀ i ∈ Finset.univ, (u.userProcesses i).taken = 1 := fun i _ => UserProcess.taken_used (hall i)
    unfold State.used
    rw [Finset.sum_congr rfl hone, Finset.sum_const, Finset.card_univ, Fintype.card_fin]
    rfl
  · intro hused i hempty
    -- otherwise one more record could be in use
    have hready : UserProcess.taken { state := .ready } = 1 := UserProcess.taken_used (by simp)
    have hself := Lib.sum_update UserProcess.taken u.userProcesses i { state := .ready }
    rw [UserProcess.taken_empty hempty, hready] at hself
    have hle := used_le (u.setUserProcess i { state := .ready })
    unfold State.used at hused hle
    unfold State.setUserProcess at hle
    dsimp only at hle
    omega

/-- A new record is one more. -/
theorem used_registered {i : Fin kMaxUserProcesses} (hfree : u.freeUserProcess = some i) {p : UserProcess}
    (hp : p.state ≠ .empty) (h : u'.userProcesses = Function.update u.userProcesses i p) : u'.used = u.used + 1 := by
  have hself := Lib.sum_update UserProcess.taken u.userProcesses i p
  rw [UserProcess.taken_empty (freeUserProcess_some hfree), UserProcess.taken_used hp] at hself
  unfold State.used
  rw [h]
  omega

/-- A marked record was in use already. -/
theorem used_marked {i : Fin kMaxUserProcesses} {processId : UInt64} (hfind : u.findUserProcess processId = some i)
    {p : UserProcess} (hp : p.state ≠ .empty) (h : u'.userProcesses = Function.update u.userProcesses i p) :
    u'.used = u.used := by
  have hself := Lib.sum_update UserProcess.taken u.userProcesses i p
  rw [UserProcess.taken_used (findUserProcess_some hfind).2, UserProcess.taken_used hp] at hself
  unfold State.used
  rw [h]
  omega

theorem Written.used {state : UserProcessState} {records : Fin kMaxUserProcesses → UserProcess}
    (h : Written state u records) (hstate : state ≠ .empty) (hu : u'.userProcesses = records) : u.used ≤ u'.used := by
  cases h with
  | same => exact le_of_eq (used_congr hu).symm
  | registered hfree hid name =>
    rw [used_registered hfree (by simp) hu]
    exact Nat.le_succ _
  | marked hfind => exact le_of_eq (used_marked hfind hstate hu).symm

end Used

/-! ## The base of the next application -/

/-- The base has moved once for every record in use, at most. -/
structure Based (u : State) : Prop where
  low  : 0x900000 ≤ u.nextAppBase.toNat
  high : u.nextAppBase.toNat ≤ 0x900000 + 0x20000 * u.used

/-- The bound in numbers. -/
theorem Based.lt {u : State} (h : Based u) : u.nextAppBase.toNat < 0x1200000 := by
  have hused : u.used ≤ 64 := used_le u
  have hhigh := h.high
  omega

theorem Based.ne_zero {u : State} (h : Based u) : u.nextAppBase ≠ 0 := by
  intro hzero
  have hlow := h.low
  rw [hzero] at hlow
  exact absurd hlow (by decide)

/-- What a step does to the base: it moves only together with a new record. -/
theorem base_process (e : Entries) (s : System) (op : ProcessOp) :
    (s.process e op).2.user.nextAppBase = s.user.nextAppBase ∨
    ((s.process e op).2.user.nextAppBase = s.user.nextAppBase + 0x20000 ∧
      (s.process e op).2.user.used = s.user.used + 1) := by
  have hstart : ∀ name threadName entry started,
      (s.startProcess name threadName entry started).2.user.nextAppBase = s.user.nextAppBase := by
    intro name threadName entry started
    rcases s.startProcess_cases name threadName entry started with h | ⟨i, -, -, ⟨-, h⟩ | ⟨-, h⟩⟩
    · rw [h]
      rfl
    · rw [h]
      rfl
    · rw [h]
      rfl
  cases op with
  | registerLoaderCacheEntry path base entry size =>
    left
    show (s.user.registerLoaderCacheEntry path base entry size).2.nextAppBase = _
    unfold State.registerLoaderCacheEntry
    split
    · rfl
    · split
      · rfl
      · split <;> rfl
  | sysExit pid code =>
    left
    show (s.user.mark pid .exited).nextAppBase = _
    unfold State.mark
    split <;> rfl
  | startInitProcess =>
    left
    show (s.startInitProcess e).2.user.nextAppBase = _
    exact hstart _ _ _ _
  | startShellProcess =>
    left
    show (s.startShellProcess e).2.user.nextAppBase = _
    exact hstart _ _ _ _
  | launchUserApplication appId path =>
    show (s.launchUserApplication appId path).2.user.nextAppBase = _ ∨
      (s.launchUserApplication appId path).2.user.nextAppBase = _ ∧
      (s.launchUserApplication appId path).2.user.used = _
    obtain ⟨hrecords, hbase⟩ := cacheApplication_frame s appId path
    rcases s.launch_cases appId path with ⟨-, h⟩ | ⟨-, -, h⟩ | ⟨-, -, i, hi, h⟩ <;> rw [h]
    · exact .inl hbase
    · exact .inl hbase
    · right
      refine ⟨congrArg (· + 0x20000) hbase, ?_⟩
      rw [← used_congr hrecords]
      exact used_registered hi (by simp) rfl
  | startUserApplicationEventLoop pid appId =>
    left
    show (s.startUserApplicationEventLoop e pid appId).2.user.nextAppBase = _
    rcases s.startEventLoop_cases pid appId with h | ⟨-, -, h⟩
    · rw [h]
    · rw [h]
      rfl
  | exitUserApplication pid code =>
    left
    show (s.exitUserApplication pid code).2.user.nextAppBase = _
    rcases s.exit_cases pid code with ⟨-, h⟩ | ⟨i, -, ⟨-, h⟩ | ⟨-, h⟩⟩
    · rw [h]
    · rw [h]
      rfl
    · rw [h]
      rfl

theorem Based.keep {u u' : State} (h : Based u) (hbase : u'.nextAppBase = u.nextAppBase) (hused : u.used ≤ u'.used) :
    Based u' := by
  have hhigh := h.high
  constructor
  · rw [hbase]
    exact h.low
  · rw [hbase]
    omega

theorem Based.process {s : System} (h : Based s.user) (e : Entries) (op : ProcessOp) :
    Based (s.process e op).2.user := by
  rcases base_process e s op with hbase | ⟨hbase, hmore⟩
  · exact h.keep hbase ((written_process e s op).used (by simp) rfl)
  · have hlow := h.low
    have hhigh := h.high
    have hlt := h.lt
    have hlit : (0x20000 : UInt64).toNat = 0x20000 := rfl
    have hadd : (s.user.nextAppBase + 0x20000).toNat = s.user.nextAppBase.toNat + 0x20000 := by
      rw [UInt64.toNat_add]
      omega
    constructor
    · rw [hbase, hadd]
      omega
    · rw [hbase, hadd, hmore]
      omega

theorem base_entered (e : Entries) (s : System) : (s.entered e).nextAppBase = s.user.nextAppBase := by
  have hmark : ∀ pid state, (s.user.mark pid state).nextAppBase = s.user.nextAppBase := by
    intro pid state
    unfold State.mark
    split <;> rfl
  unfold System.entered
  split
  · dsimp only
    split
    · exact hmark _ _
    · split
      · exact hmark _ _
      · rfl
  · rfl

theorem Based.step {e : Entries} {s : System} (h : Based s.user) (a : System.Action) : Based (s.step e a).user := by
  have hused : s.user.used ≤ (s.step e a).user.used := by
    rcases written_step e s a with hwritten | ⟨-, hentered⟩
    · exact hwritten.used (by simp) rfl
    · exact (written_entered e s).used (by simp) (congrArg State.userProcesses hentered)
  rcases s.step_cases e a with hstep | ⟨op, -, -, hstep⟩ | ⟨b, -, -, hstep⟩
  · rw [hstep]
    exact h
  · rw [hstep] at hused ⊢
    cases op with
    | file op => exact h.keep (frame_file s.user op).1.nextAppBase hused
    | process op => exact h.process e op
    | signal op => exact h.keep (s.sameProcesses_signal op).nextAppBase hused
  · rw [hstep] at hused ⊢
    refine h.keep ?_ hused
    dsimp only
    split
    · exact base_entered e s
    · rfl

theorem based (e : Entries) (heap : { h : KernelHeap // h.InBlock }) (as : List System.Action) :
    Based (reached e heap as).user := by
  have hstep : ∀ (s : System) a, Based s.user → Based (s.step e a).user := fun s a h => h.step a
  have hbase : State.initialised.nextAppBase = 0x900000 := rfl
  refine Lib.run_invariant hstep ⟨?_, ?_⟩ as
  · show 0x900000 ≤ State.initialised.nextAppBase.toNat
    rw [hbase]
    decide
  · show State.initialised.nextAppBase.toNat ≤ _
    rw [hbase]
    exact Nat.le_add_right _ _

end Userspace
end UefiBoot
