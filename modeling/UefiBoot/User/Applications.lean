import UefiBoot.Scheduler.Tables
import UefiBoot.User.Recycle

/-!
# `User.Applications` — the processes of applications

`KernelLaunchUserApplication` creates a process, and `KernelExitUserApplication` ends it; in between anything may
happen to the tables of the kernel. `issued` are the ids that the launches have taken so far, and `live` those of
them whose process is still there. There is one lemma for each way in which this set can change or stay: a launch,
the start of the event loop, an exit, and a step of other code that leaves the processes of applications alone.
-/

namespace UefiBoot
namespace Userspace

open Scheduler (HasProcess ProcessStep)

/-- The ids among `issued` whose process is active. -/
def System.live (s : System) (issued : List UInt64) : Set UInt64 :=
  { pid | pid ∈ issued ∧ HasProcess s.kernel.sched pid }

/-- The process id that has been taken from one state to the other, if one has. -/
def System.taken (s s' : System) : List UInt64 :=
  if s'.kernel.sched.nextProcessId = s.kernel.sched.nextProcessId then [] else [s.kernel.sched.nextProcessId]

/-- The tables are in order, and `issued` have been taken from the counter of process ids. -/
structure Served (s : System) (issued : List UInt64) : Prop where
  ids   : Lib.Issued (fun k => (s.kernel.sched.processes k).active = true)
    (fun k => (s.kernel.sched.processes k).id) s.kernel.sched.nextProcessId
  based : Based s.user
  user  : ∀ pid ∈ issued, pid ≠ 0 ∧ pid ≠ Scheduler.kKernelProcessId
  below : s.kernel.sched.nextProcessId ≠ 0 → Scheduler.kKernelProcessId < s.kernel.sched.nextProcessId ∧
    ∀ pid ∈ issued, pid < s.kernel.sched.nextProcessId

/-- There is a record for the process. -/
def System.Recorded (s : System) (pid : UInt64) : Prop := s.user.findUserProcess pid ≠ none

theorem findUserProcess_iff {u : State} {pid : UInt64} :
    u.findUserProcess pid ≠ none ↔ ∃ i, (u.userProcesses i).processId = pid ∧ (u.userProcesses i).state ≠ .empty := by
  constructor
  · intro h
    obtain ⟨i, hi⟩ := Option.ne_none_iff_exists'.mp h
    exact ⟨i, findUserProcess_some hi⟩
  · rintro ⟨i, hpid, hstate⟩ hnone
    have hmiss := Lib.firstSlot_eq_none_iff.mp hnone i
    rw [hpid] at hmiss
    simp [hstate] at hmiss

/-- A record is never given up. -/
theorem Written.recorded {state : UserProcessState} {u u' : State} (h : Written state u u'.userProcesses)
    (hstate : state ≠ .empty) {pid : UInt64} (hpid : u.findUserProcess pid ≠ none) : u'.findUserProcess pid ≠ none := by
  rw [findUserProcess_iff] at hpid ⊢
  obtain ⟨i, hid, hused⟩ := hpid
  refine ⟨i, ?_⟩
  generalize u'.userProcesses = records at h
  cases h with
  | same => exact ⟨hid, hused⟩
  | @registered j hfree _ _ name =>
      have hij : i ≠ j := by
        rintro rfl
        exact hused (freeUserProcess_some hfree)
      rw [Function.update_of_ne hij]
      exact ⟨hid, hused⟩
  | @marked j _ hfind =>
      by_cases hij : i = j
      · rw [hij, Function.update_self]
        exact ⟨hij ▸ hid, hstate⟩
      · rw [Function.update_of_ne hij]
        exact ⟨hid, hused⟩

/-! ## Other code -/

/-- What a step does to the processes of the kernel, as an action of the scheduler. -/
def System.Action.scheduled : System.Action → Scheduler.Action
  | .kernel a                                           => a
  | .call (.process .startInitProcess)                  => .call (.createProcess (some "init"))
  | .call (.process .startShellProcess)                 => .call (.createProcess (some "user-shell"))
  | .call (.process (.launchUserApplication _ path))    => .call (.createProcess path)
  | .call (.process (.exitUserApplication pid code))    => .call (.terminateProcess pid code)
  | .call _                                             => .tick

section Other

variable {e : Entries} {s : System} {issued : List UInt64}

theorem processStep_startProcess (hu : s.kernel.control = .user) (name threadName : String) (entry : UInt64)
    (started : UInt64 → UInt64 → UserspaceStatus → UserspaceStatus) :
    ProcessStep s.kernel (s.startProcess name threadName entry started).2.kernel.sched
      (.call (.createProcess (some name))) := by
  have hcreate := Scheduler.processStep_createProcess hu (some name)
  have hthread : ∀ pid, ProcessStep s.kernel
      (Scheduler.kernelCreateThread (Scheduler.kernelCreateProcess s.kernel.sched (some name)).2 pid
        (some threadName) entry 0).2 (.call (.createProcess (some name))) := by
    intro pid
    have hsame := Scheduler.sameProcesses_createThread (Scheduler.kernelCreateProcess s.kernel.sched (some name)).2
      pid (some threadName) entry 0
    refine hcreate.trans hsame.nextProcessId fun k => ?_
    unfold Scheduler.SameProcess
    rw [hsame.processes]
    exact ⟨rfl, rfl⟩
  rcases s.startProcess_cases name threadName entry started with h | ⟨i, -, -, ⟨-, h⟩ | ⟨-, h⟩⟩ <;> rw [h]
  · exact hcreate
  · exact hthread _
  · exact hthread _

theorem processStep_process (hu : s.kernel.control = .user) (op : ProcessOp) :
    ProcessStep s.kernel (s.process e op).2.kernel.sched (System.Action.call (.process op)).scheduled := by
  have hkept : ∀ {a}, ProcessStep s.kernel s.kernel.sched a := .kept rfl (Scheduler.SameProcess.refl _)
  cases op with
  | registerLoaderCacheEntry path base entry size => exact hkept
  | sysExit pid code => exact hkept
  | startInitProcess =>
      show ProcessStep s.kernel (s.startInitProcess e).2.kernel.sched _
      exact processStep_startProcess hu _ _ _ _
  | startShellProcess =>
      show ProcessStep s.kernel (s.startShellProcess e).2.kernel.sched _
      exact processStep_startProcess hu _ _ _ _
  | launchUserApplication appId path =>
      show ProcessStep s.kernel (s.launchUserApplication appId path).2.kernel.sched _
      have hcreate := Scheduler.processStep_createProcess hu path
      have hcache := s.kernel_cacheApplication appId path
      rcases s.launch_cases appId path with ⟨-, h⟩ | ⟨-, -, h⟩ | ⟨-, -, i, -, h⟩ <;> rw [h]
      · rw [hcache]
        exact hkept
      · unfold System.withCall
        rw [hcache]
        exact hcreate
      · unfold System.withUser System.withCall
        rw [hcache]
        exact hcreate
  | startUserApplicationEventLoop pid appId =>
      show ProcessStep s.kernel (s.startUserApplicationEventLoop e pid appId).2.kernel.sched _
      rcases s.startEventLoop_cases pid appId with h | ⟨-, -, h⟩ <;> rw [h]
      · exact hkept
      · exact (Scheduler.sameProcesses_createThread s.kernel.sched pid appId e.appProcessMain pid).processStep
  | exitUserApplication pid code =>
      show ProcessStep s.kernel (s.exitUserApplication pid code).2.kernel.sched _
      rcases s.exit_cases pid code with ⟨-, h⟩ | ⟨i, -, ⟨-, h⟩ | ⟨-, h⟩⟩ <;> rw [h]
      · exact hkept
      · exact Scheduler.processStep_terminateProcess hu pid code
      · exact Scheduler.processStep_terminateProcess hu pid code

theorem processStep_perform (hu : s.kernel.control = .user) (op : Op) :
    ProcessStep s.kernel (s.perform e op).2.kernel.sched (System.Action.call op).scheduled := by
  have hkept : ∀ {a}, ProcessStep s.kernel s.kernel.sched a := .kept rfl (Scheduler.SameProcess.refl _)
  cases op with
  | file op => exact hkept
  | process op => exact processStep_process hu op
  | signal op =>
      cases op with
      | registerSignalHandler pid signal => exact hkept
      | deliverUserSignal pid tid signal =>
          show ProcessStep s.kernel (s.deliverUserSignal pid tid signal).2.kernel.sched _
          have hsend := Scheduler.call_processes (m := s.kernel) (.sendSignal tid signal) rfl
          rcases s.deliver_cases pid tid signal with ⟨-, h⟩ | ⟨i, -, ⟨-, h⟩ | ⟨-, h⟩⟩ <;> rw [h]
          · exact hkept
          · exact hsend.processStep
          · exact hsend.processStep

/-- **A step of the system** does one thing to the processes at most. -/
theorem processStep_step (e : Entries) (s : System) (a : System.Action) :
    ProcessStep s.kernel (s.step e a).kernel.sched a.scheduled := by
  rcases s.step_cases e a with hstep | ⟨op, rfl, hu, hstep⟩ | ⟨b, rfl, -, hstep⟩ <;> rw [hstep]
  · exact .kept rfl (Scheduler.SameProcess.refl _)
  · exact processStep_perform hu op
  · exact Scheduler.step_processes s.kernel b

/-- Other code launches no applications and ends none, and it takes no process id once the counter has come round. -/
def System.Spares (s : System) (issued : List UInt64) (a : System.Action) : Prop :=
  Scheduler.NotWrapped s.kernel a.scheduled ∧
  match a with
  | .call (.process (.launchUserApplication _ _)) => False
  | .call (.process (.exitUserApplication pid _)) => pid ∉ issued
  | .kernel (.call (.terminateProcess pid _))     => pid ∉ issued
  | _                                             => True

instance (s : System) (issued : List UInt64) (a : System.Action) : Decidable (s.Spares issued a) := by
  unfold System.Spares Scheduler.NotWrapped
  refine @instDecidableAnd _ _ ?_ ?_
  · split <;> infer_instance
  · split <;> infer_instance

theorem System.Spares.spared {a : System.Action} (h : s.Spares issued a) {pid : UInt64} (hpid : pid ∈ issued)
    (code : Int32) : a.scheduled ≠ .call (.terminateProcess pid code) := by
  intro heq
  obtain ⟨-, h⟩ := h
  cases a with
  | kernel b =>
      replace heq : b = .call (.terminateProcess pid code) := heq
      subst heq
      exact h hpid
  | call op =>
      cases op with
      | file op => exact nomatch heq
      | signal op => exact nomatch heq
      | process op =>
          cases op with
          | exitUserApplication ended code' =>
              unfold System.Action.scheduled at heq
              injection heq with heq
              injection heq with hid
              subst hid
              exact h hpid
          | _ => exact nomatch heq

/-- **Other code** leaves the processes of applications, and their records. -/
theorem Served.other (h : Served s issued) {a : System.Action} (hspares : s.Spares issued a) :
    Served (s.step e a) issued ∧ (s.step e a).live issued = s.live issued := by
  have hstep := processStep_step e s a
  refine ⟨⟨hstep.ids h.ids hspares.1, h.based.step a, h.user, fun hnz => ?_⟩, ?_⟩
  · obtain ⟨hbefore, hle⟩ := hstep.next_le hspares.1 hnz
    obtain ⟨hkernel, hbelow⟩ := h.below hbefore
    exact ⟨UInt64.lt_of_lt_of_le hkernel hle, fun pid hpid => UInt64.lt_of_lt_of_le (hbelow pid hpid) hle⟩
  · ext pid
    refine and_congr_right fun hpid => ?_
    by_cases hnext : pid = s.kernel.sched.nextProcessId
    · -- only if the counter stands at 0, and then no process is created
      have hzero : s.kernel.sched.nextProcessId = 0 := by
        by_contra hnz
        exact UInt64.ne_of_lt ((h.below hnz).2 pid hpid) hnext
      exact absurd (hnext.trans hzero) (h.user pid hpid).1
    · exact hstep.hasProcess_iff hnext (hspares.spared hpid)

theorem recorded_step {a : System.Action} {pid : UInt64} (h : s.Recorded pid) : (s.step e a).Recorded pid := by
  rcases written_step e s a with hwritten | ⟨-, hentered⟩
  · exact hwritten.recorded (by simp) h
  · have hwritten := written_entered e s
    rw [← hentered] at hwritten
    exact hwritten.recorded (by simp) h

end Other

/-! ## A launch -/

section Launch

variable {s : System} {issued : List UInt64} {appId path : Option String}

/-- The launch gets as far as creating a process. -/
def System.Starts (s : System) (appId path : Option String) : Prop :=
  ¬ s.Refused appId path ∧ (s.user.findLoaderCacheEntry path ≠ none ∨ s.user.freeLoaderCacheEntry ≠ none) ∧
    ∃ k, (s.kernel.sched.processes k).active = false

theorem cached_iff (appId path : Option String) (h : Based s.user) : (s.cacheApplication appId path).1 = true ↔
    ¬ s.Refused appId path ∧ (s.user.findLoaderCacheEntry path ≠ none ∨ s.user.freeLoaderCacheEntry ≠ none) := by
  by_cases hrefused : s.Refused appId path
  · have hcache : s.cacheApplication appId path = (false, s) := if_pos hrefused
    rw [hcache]
    exact iff_of_false Bool.false_ne_true fun hno => hno.1 hrefused
  · obtain ⟨-, hpath⟩ := not_refused hrefused
    have hcache : s.cacheApplication appId path = _ := cache_eq h hrefused
    have hbase := h.ne_zero
    rw [hcache]
    rcases registerLoaderCacheEntry_cases (u := loaded s) hpath hbase hbase (show (16 : UInt64) ≠ 0 by decide) with
      ⟨i, hfind, hreg⟩ | ⟨-, i, hfree, hok, -⟩ | ⟨hnone, hfull, hreg⟩
    · rw [hreg]
      refine iff_of_true rfl ⟨hrefused, .inl ?_⟩
      show (loaded s).findLoaderCacheEntry path ≠ none
      rw [hfind]
      exact Option.some_ne_none i
    · refine iff_of_true hok ⟨hrefused, .inr ?_⟩
      show (loaded s).freeLoaderCacheEntry ≠ none
      rw [hfree]
      exact Option.some_ne_none i
    · rw [hreg]
      refine iff_of_false Bool.false_ne_true ?_
      rintro ⟨-, hfind | hfree⟩
      · exact hfind hnone
      · exact hfree hfull

/-- **`KernelCreateProcess`**, with all that it leaves alone. -/
theorem createProcess_spec (s : Scheduler.State) (name : Option String) :
    ((∀ k, (s.processes k).active = true) ∧ Scheduler.kernelCreateProcess s name = (0, s)) ∨
    ∃ k, (s.processes k).active = false ∧ Scheduler.kernelCreateProcess s name = (s.nextProcessId,
      { s.setProcess k { id := s.nextProcessId, name := name, active := true } with
        nextProcessId := s.nextProcessId + 1 }) := by
  unfold Scheduler.kernelCreateProcess
  cases hfree : Lib.firstSlot fun k => !(s.processes k).active with
  | none => exact .inl ⟨fun k => by simpa using Lib.firstSlot_eq_none_iff.mp hfree k, rfl⟩
  | some k => exact .inr ⟨k, by simpa using Lib.firstSlot_true hfree, rfl⟩

/-- The scheduler once slot `k` has a new process. -/
def newProcessIn (s : Scheduler.State) (k : Fin Scheduler.kMaxProcesses) (name : Option String) : Scheduler.State :=
  { s.setProcess k { id := s.nextProcessId, name := name, active := true } with nextProcessId := s.nextProcessId + 1 }

/-- **What a launch does**: nothing to the processes and their records, or it creates a process and then may find no
    record for it. -/
theorem launch_spec (h : Based s.user) (appId path : Option String) :
    let r := s.launchUserApplication appId path
    let next := s.kernel.sched.nextProcessId
    (¬ s.Starts appId path ∧ r.1.1 = false ∧ r.2.kernel.sched = s.kernel.sched ∧
      r.2.user.userProcesses = s.user.userProcesses) ∨
    (s.Starts appId path ∧ (∃ k, (s.kernel.sched.processes k).active = false ∧
        r.2.kernel.sched = newProcessIn s.kernel.sched k path) ∧
      (r.1.1 = true ↔ next ≠ 0 ∧ s.user.freeUserProcess ≠ none) ∧
      (r.1.1 = true → r.1.2.1 = next ∧ r.2.Recorded next)) := by
  intro r next
  have hkernel := s.kernel_cacheApplication appId path
  obtain ⟨hrecords, -⟩ := cacheApplication_frame s appId path
  have hfree : (s.cacheApplication appId path).2.user.freeUserProcess = s.user.freeUserProcess := by
    unfold State.freeUserProcess
    rw [hrecords]
  have hcached := cached_iff appId path h
  have hlaunch := s.launch_cases appId path
  have hr : s.launchUserApplication appId path = r := rfl
  rw [hr] at hlaunch
  dsimp only [System.newProcess, System.withCall] at hlaunch
  rw [hkernel, hfree] at hlaunch
  have hcall : (s.kernel.call (.createProcess path)).sched = (Scheduler.kernelCreateProcess s.kernel.sched path).2 := rfl
  rcases hlaunch with ⟨hno, heq⟩ | ⟨hyes, hwhy, heq⟩ | ⟨hyes, hpid, i, hi, heq⟩
  · -- the image does not get into the cache
    left
    rw [heq]
    refine ⟨fun hstarts => ?_, rfl, ?_, hrecords⟩
    · rw [hcached.mpr ⟨hstarts.1, hstarts.2.1⟩] at hno
      exact absurd hno (by simp)
    · show (s.cacheApplication appId path).2.kernel.sched = _
      rw [hkernel]
  · obtain ⟨hok, hentered⟩ := hcached.mp hyes
    rcases createProcess_spec s.kernel.sched path with ⟨hall, hcreate⟩ | ⟨k, hk, hcreate⟩
    · left
      rw [heq]
      refine ⟨?_, rfl, ?_, hrecords⟩
      · rintro ⟨-, -, k, hk⟩
        exact absurd (hk.symm.trans (hall k)) (by simp)
      · show (s.kernel.call (.createProcess path)).sched = _
        rw [hcall, hcreate]
    · right
      rw [hcreate] at hwhy
      rw [heq]
      refine ⟨⟨hok, hentered, k, hk⟩, ⟨k, hk, ?_⟩, iff_of_false Bool.false_ne_true ?_,
        fun hf => absurd hf Bool.false_ne_true⟩
      · show (s.kernel.call (.createProcess path)).sched = _
        rw [hcall, hcreate]
        rfl
      · rintro ⟨hnext, hroom⟩
        rcases hwhy with h0 | happ | hnone
        · exact hnext h0
        · exact (not_refused hok).1 happ
        · exact hroom hnone
  · right
    obtain ⟨hok, hentered⟩ := hcached.mp hyes
    rcases createProcess_spec s.kernel.sched path with ⟨-, hcreate⟩ | ⟨k, hk, hcreate⟩
    · rw [hcreate] at hpid
      exact absurd rfl hpid
    · rw [hcreate] at hpid heq
      rw [heq]
      refine ⟨⟨hok, hentered, k, hk⟩, ⟨k, hk, ?_⟩, iff_of_true rfl ⟨hpid, ?_⟩, fun _ => ⟨rfl, ?_⟩⟩
      · show (s.kernel.call (.createProcess path)).sched = _
        rw [hcall, hcreate]
        rfl
      · rw [hi]
        exact Option.some_ne_none i
      · unfold System.Recorded
        rw [findUserProcess_iff]
        refine ⟨i, ?_⟩
        show (Function.update (s.cacheApplication appId path).2.user.userProcesses i _ i).processId = next ∧
          (Function.update (s.cacheApplication appId path).2.user.userProcesses i _ i).state ≠ .empty
        rw [Function.update_self]
        exact ⟨rfl, by simp⟩

theorem hasProcess_new {sched : Scheduler.State} {k : Fin Scheduler.kMaxProcesses}
    (hk : (sched.processes k).active = false) (name : Option String) {pid : UInt64} :
    HasProcess (newProcessIn sched k name) pid ↔ pid = sched.nextProcessId ∨ HasProcess sched pid := by
  have hprocesses : (newProcessIn sched k name).processes = Function.update sched.processes k
      { id := sched.nextProcessId, name := name, active := true } := rfl
  unfold HasProcess
  rw [hprocesses]
  constructor
  · rintro ⟨n, hactive, hid⟩
    by_cases hn : n = k
    · rw [hn, Function.update_self] at hid
      exact .inl hid.symm
    · rw [Function.update_of_ne hn] at hactive hid
      exact .inr ⟨n, hactive, hid⟩
  · rintro (rfl | ⟨n, hactive, hid⟩)
    · refine ⟨k, ?_⟩
      rw [Function.update_self]
      exact ⟨rfl, rfl⟩
    · have hn : n ≠ k := by
        rintro rfl
        exact absurd (hk.symm.trans hactive) (by simp)
      refine ⟨n, ?_⟩
      rw [Function.update_of_ne hn]
      exact ⟨hactive, hid⟩

/-- The counter names no process. -/
theorem Served.fresh (h : Served s issued) : s.kernel.sched.nextProcessId ∉ s.live issued := by
  rintro ⟨hissued, k, hactive, hid⟩
  by_cases hnz : s.kernel.sched.nextProcessId = 0
  · exact (h.user _ hissued).1 hnz
  · exact h.ids.fresh hnz hactive hid

theorem live_congr {s' : System} (hsched : s'.kernel.sched = s.kernel.sched) : s'.live issued = s.live issued := by
  unfold System.live
  rw [hsched]

theorem Served.congr {s' : System} (h : Served s issued) (hsched : s'.kernel.sched = s.kernel.sched)
    (hbased : Based s'.user) : Served s' issued := by
  obtain ⟨hids, -, huser, hbelow⟩ := h
  rw [← hsched] at hids hbelow
  exact ⟨hids, hbased, huser, hbelow⟩

/-- **A launch** that creates no process changes nothing here. -/
theorem Served.launch_refused (h : Served s issued) (hno : ¬ s.Starts appId path) :
    let r := s.launchUserApplication appId path
    r.1.1 = false ∧ s.taken r.2 = [] ∧ Served r.2 issued ∧ r.2.live issued = s.live issued := by
  intro r
  have hbased := h.based.process entriesAt1MiB (.launchUserApplication appId path)
  rcases launch_spec h.based appId path with ⟨-, hfail, hsched, -⟩ | ⟨hstarts, -⟩
  · refine ⟨hfail, ?_, h.congr hsched hbased, live_congr hsched⟩
    unfold System.taken
    rw [if_pos (congrArg Scheduler.State.nextProcessId hsched)]
  · exact absurd hstarts hno

/-- **A launch** that creates a process. If it succeeds, the tables stay in order. -/
theorem Served.launch_starts (h : Served s issued) (hstarts : s.Starts appId path) :
    let r := s.launchUserApplication appId path
    let next := s.kernel.sched.nextProcessId
    s.taken r.2 = [next] ∧ r.2.live (next :: issued) = insert next (s.live issued) ∧
      (r.1.1 = true ↔ next ≠ 0 ∧ s.user.freeUserProcess ≠ none) ∧
      (r.1.1 = true → r.1.2.1 = next ∧ r.2.Recorded next ∧ Served r.2 (next :: issued)) := by
  intro r next
  have hbased := h.based.process entriesAt1MiB (.launchUserApplication appId path)
  rcases launch_spec h.based appId path with ⟨hno, -⟩ | ⟨-, ⟨k, hk, hsched⟩, hiff, hok⟩
  · exact absurd hstarts hno
  replace hsched : r.2.kernel.sched = newProcessIn s.kernel.sched k path := hsched
  have hnext : r.2.kernel.sched.nextProcessId = next + 1 := by
    rw [hsched]
    rfl
  refine ⟨?_, ?_, hiff, fun htrue => ?_⟩
  · unfold System.taken
    rw [hnext, if_neg]
    intro heq
    exact absurd (show s.kernel.sched.nextProcessId + 1 = s.kernel.sched.nextProcessId from heq) (by simp)
  · ext pid
    show pid ∈ next :: issued ∧ HasProcess r.2.kernel.sched pid ↔ pid = next ∨ pid ∈ issued ∧ HasProcess s.kernel.sched pid
    rw [hsched, hasProcess_new hk, List.mem_cons]
    by_cases hpid : pid = next
    · exact iff_of_true ⟨.inl hpid, .inl hpid⟩ (.inl hpid)
    · constructor
      · rintro ⟨hissued, hprocess⟩
        exact .inr ⟨hissued.resolve_left hpid, hprocess.resolve_left hpid⟩
      · rintro (heq | ⟨hissued, hprocess⟩)
        · exact absurd heq hpid
        · exact ⟨.inr hissued, .inr hprocess⟩
  · obtain ⟨hpid, hrecorded⟩ := hok htrue
    obtain ⟨hnz, -⟩ := hiff.mp htrue
    obtain ⟨hkernel, hbelow⟩ := h.below hnz
    refine ⟨hpid, hrecorded, ?_, hbased, fun pid hmem => ?_, fun hnz' => ?_⟩
    · rw [hnext, hsched]
      refine h.ids.issue hnz k fun n hn => ?_
      by_cases hnk : n = k
      · refine .inl ⟨hnk, ?_⟩
        show (Function.update s.kernel.sched.processes k _ n).id = _
        rw [hnk, Function.update_self]
      · right
        replace hn : (Function.update s.kernel.sched.processes k _ n).active = true := hn
        rw [Function.update_of_ne hnk] at hn
        refine ⟨hn, ?_⟩
        show (Function.update s.kernel.sched.processes k _ n).id = _
        rw [Function.update_of_ne hnk]
    · rcases List.mem_cons.mp hmem with rfl | hmem
      · exact ⟨hnz, (UInt64.ne_of_lt hkernel).symm⟩
      · exact h.user pid hmem
    · rw [hnext] at hnz' ⊢
      have hup := Lib.lt_add_one hnz'
      refine ⟨UInt64.lt_trans hkernel hup, fun pid hmem => ?_⟩
      rcases List.mem_cons.mp hmem with rfl | hmem
      · exact hup
      · exact UInt64.lt_trans (hbelow pid hmem) hup

/-! ## The event loop -/

/-- A thread can be created: there is a slot for it, a stack on the heap, and an id. -/
def ThreadRoom (s : Scheduler.State) : Prop :=
  s.findThreadSlot ≠ none ∧ (s.heap.allocate Scheduler.kThreadStackSize 16).1 ≠ 0 ∧ s.nextThreadId ≠ 0

theorem createThread_ne_zero_iff {sched : Scheduler.State} {pid entry : UInt64} (hpid : HasProcess sched pid)
    (hentry : entry ≠ 0) (name : Option String) (argument : UInt64) :
    (Scheduler.kernelCreateThread sched pid name entry argument).1 ≠ 0 ↔ ThreadRoom sched := by
  have hfind : sched.findProcess pid ≠ none := by
    obtain ⟨k, hactive, hid⟩ := hpid
    intro hnone
    have hmiss := Lib.firstSlot_eq_none_iff.mp hnone k
    rw [hactive, hid] at hmiss
    simp at hmiss
  unfold Scheduler.kernelCreateThread ThreadRoom
  rw [if_neg (fun hno => hno.elim hfind hentry)]
  cases sched.findThreadSlot with
  | none => exact iff_of_false (fun hno => hno rfl) fun hno => hno.1 rfl
  | some i =>
      dsimp only
      by_cases hstack : (sched.heap.allocate Scheduler.kThreadStackSize 16).1 = 0
      · rw [if_pos hstack]
        exact iff_of_false (fun hno => hno rfl) fun hno => hno.2.1 hstack
      · rw [if_neg hstack]
        exact ⟨fun hnz => ⟨Option.some_ne_none i, hstack, hnz⟩, fun hroom => hroom.2.2⟩

/-- **Starting the event loop** of a process creates a thread, if there is room for one. -/
theorem start_spec (e : Entries) (appId : Option String) {pid : UInt64} (hpid : pid ≠ 0) (happ : appId ≠ none) (hrecorded : s.Recorded pid)
    (hprocess : HasProcess s.kernel.sched pid) :
    let r := s.startUserApplicationEventLoop e pid appId
    (r.1.1 = true ↔ ThreadRoom s.kernel.sched) ∧ r.2.user = s.user ∧
      Scheduler.SameProcesses s.kernel.sched r.2.kernel.sched := by
  intro r
  have hr : r = _ := if_neg (fun hno => hno.elim hpid fun hno => hno.elim happ hrecorded)
  rw [hr]
  refine ⟨?_, rfl, Scheduler.sameProcesses_createThread s.kernel.sched pid appId e.appProcessMain pid⟩
  rw [← createThread_ne_zero_iff hprocess e.nonzero.1 appId pid]
  exact bne_iff_ne

theorem Served.sameProcesses {s' : System} (h : Served s issued) (huser : s'.user = s.user)
    (hsame : Scheduler.SameProcesses s.kernel.sched s'.kernel.sched) :
    Served s' issued ∧ s'.live issued = s.live issued := by
  obtain ⟨hids, hbased, hissued, hbelow⟩ := h
  rw [← hsame.nextProcessId] at hids hbelow
  refine ⟨⟨?_, ?_, hissued, hbelow⟩, ?_⟩
  · rw [hsame.processes]
    exact hids
  · rw [huser]
    exact hbased
  · unfold System.live HasProcess
    rw [hsame.processes]

/-! ## An exit -/

theorem recorded_launch {pid : UInt64} (h : s.Recorded pid) : (s.launchUserApplication appId path).2.Recorded pid :=
  (written_process entriesAt1MiB s (.launchUserApplication appId path)).recorded (by simp) h

theorem recorded_exit {pid other : UInt64} (code : Int32) (h : s.Recorded other) :
    (s.exitUserApplication pid code).2.Recorded other :=
  (written_process entriesAt1MiB s (.exitUserApplication pid code)).recorded (by simp) h

/-- **The exit** of an application with a record ends its process and no other. -/
theorem Served.exit (h : Served s issued) {pid : UInt64} (hlive : pid ∈ s.live issued) (hrecorded : s.Recorded pid)
    (code : Int32) :
    let s' := (s.exitUserApplication pid code).2
    Served s' issued ∧ s'.live issued = s.live issued \ {pid} := by
  intro s'
  have hbased := h.based.process entriesAt1MiB (.exitUserApplication pid code)
  obtain ⟨hissued, k, hk, hid⟩ := hlive
  obtain ⟨hok, ⟨p, hp, hprocesses⟩, hnext⟩ := terminateProcess_spec s code (h.user pid hissued).2 hk hid
    fun l hl hlid => h.ids.distinct l k hl hk (hlid.trans hid.symm)
  -- the record is there, and the process is not the kernel's, so the exit goes through
  have hsched : s'.kernel = (s.terminateProcess pid code).2.kernel := by
    rcases s.exit_cases pid code with ⟨hnone, -⟩ | ⟨i, -, ⟨hfail, -⟩ | ⟨-, heq⟩⟩
    · exact absurd hnone hrecorded
    · exact absurd (hok.symm.trans hfail) (by simp)
    · exact congrArg (fun r => r.2.kernel) heq
  rw [← hsched] at hprocesses hnext
  have hold : ∀ n, (s'.kernel.sched.processes n).active = true →
      (s.kernel.sched.processes n).active = true ∧ s'.kernel.sched.processes n = s.kernel.sched.processes n ∧ n ≠ k := by
    intro n hn
    rw [hprocesses] at hn ⊢
    have hnk : n ≠ k := by
      rintro rfl
      rw [Function.update_self, hp] at hn
      exact absurd hn (by simp)
    rw [Function.update_of_ne hnk] at hn ⊢
    exact ⟨hn, rfl, hnk⟩
  refine ⟨⟨?_, hbased, h.user, ?_⟩, ?_⟩
  · rw [hnext]
    refine h.ids.keeps (fun hnz => ⟨hnz, UInt64.le_refl _⟩) fun n hn => ?_
    obtain ⟨hactive, hsame, -⟩ := hold n hn
    exact ⟨hactive, by rw [hsame]⟩
  · rw [hnext]
    exact h.below
  · ext u
    show u ∈ issued ∧ HasProcess s'.kernel.sched u ↔ (u ∈ issued ∧ HasProcess s.kernel.sched u) ∧ u ≠ pid
    constructor
    · rintro ⟨hu, n, hn, hnid⟩
      obtain ⟨hactive, hsame, hnk⟩ := hold n hn
      rw [hsame] at hnid
      refine ⟨⟨hu, n, hactive, hnid⟩, fun heq => hnk ?_⟩
      exact h.ids.distinct n k hactive hk (hnid.trans (heq.trans hid.symm))
    · rintro ⟨⟨hu, n, hn, hnid⟩, hne⟩
      have hnk : n ≠ k := by
        rintro rfl
        exact hne (hnid.symm.trans hid)
      refine ⟨hu, n, ?_⟩
      rw [hprocesses, Function.update_of_ne hnk]
      exact ⟨hn, hnid⟩

/-- The exit of a process that is not there. -/
theorem Served.exit_absent (h : Served s issued) {pid : UInt64} (hno : ¬ HasProcess s.kernel.sched pid) (code : Int32) :
    let s' := (s.exitUserApplication pid code).2
    Served s' issued ∧ s'.live issued = s.live issued := by
  intro s'
  have hbased := h.based.process entriesAt1MiB (.exitUserApplication pid code)
  have hterminates : s.kernel.sched.terminates pid = none := by
    unfold Scheduler.State.terminates
    split_ifs
    · rfl
    · cases hfind : s.kernel.sched.findProcess pid with
      | none => rfl
      | some k => exact absurd ⟨k, Scheduler.State.findProcess_some hfind⟩ hno
  have hterminate : Scheduler.kernelTerminateProcess s.kernel.sched pid = (false, s.kernel.sched) := by
    unfold Scheduler.kernelTerminateProcess
    rw [hterminates]
  have hsched : s'.kernel.sched = s.kernel.sched := by
    rcases s.exit_cases pid code with ⟨-, heq⟩ | ⟨i, -, ⟨-, heq⟩ | ⟨hok, -⟩⟩
    · exact congrArg (fun r => r.2.kernel.sched) heq
    · refine (congrArg (fun r => r.2.kernel.sched) heq).trans ?_
      exact congrArg Prod.snd hterminate
    · exact absurd ((congrArg Prod.fst hterminate).symm.trans hok) Bool.false_ne_true
  exact ⟨h.congr hsched hbased, live_congr hsched⟩

end Launch

end Userspace
end UefiBoot
