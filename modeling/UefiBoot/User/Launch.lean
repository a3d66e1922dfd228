import UefiBoot.User.Records

/-!
# `User.Launch` — what a failed launch leaves behind

A launch writes to three tables one after the other: the loader cache, the kernel's process table, and the table of
user processes. Each can be full, and the exits after a failure undo nothing. `launch_atomic_iff` lists the states
before the call in which a failure changes none of them, or in which the launch succeeds.

The images that a launch builds always load, since the base never leaves the low addresses (`Based`), so the only
result of the loader that matters is the span of the image, sixteen bytes from the base.
-/

namespace UefiBoot
namespace Userspace

/-! ## Creating a process -/

/-- **`KernelCreateProcess`** takes the first inactive slot, if there is one, and returns the next id. -/
theorem createProcess_cases (s : System) (name : Option String) :
    ((∀ k, (s.kernel.sched.processes k).active = true) ∧ s.newProcess name = 0 ∧
      (s.withCall (.createProcess name)).kernel.sched.processes = s.kernel.sched.processes) ∨
    ∃ k, (s.kernel.sched.processes k).active = false ∧ s.newProcess name = s.kernel.sched.nextProcessId ∧
      (s.withCall (.createProcess name)).kernel.sched.processes = Function.update s.kernel.sched.processes k
        { id := s.kernel.sched.nextProcessId, name := name, active := true } ∧
      (s.withCall (.createProcess name)).kernel.sched.nextProcessId = s.kernel.sched.nextProcessId + 1 := by
  unfold System.newProcess
  show (_ ∧ _ ∧ (Scheduler.kernelCreateProcess s.kernel.sched name).2.processes = _) ∨
    ∃ k, _ ∧ _ ∧ (Scheduler.kernelCreateProcess s.kernel.sched name).2.processes = _ ∧
      (Scheduler.kernelCreateProcess s.kernel.sched name).2.nextProcessId = _
  unfold Scheduler.kernelCreateProcess
  cases hfree : Lib.firstSlot fun k => !(s.kernel.sched.processes k).active with
  | none =>
    refine .inl ⟨fun k => ?_, rfl, rfl⟩
    simpa using Lib.firstSlot_eq_none_iff.mp hfree k
  | some k =>
    refine .inr ⟨k, ?_, rfl, rfl, rfl⟩
    simpa using Lib.firstSlot_true hfree

/-! ## Entering the cache -/

section Cache

variable {u : State} {path : Option String} {base entry size : UInt64}

/-- The ways to enter an image in the loader cache. -/
theorem registerLoaderCacheEntry_cases (hpath : path ≠ none) (hbase : base ≠ 0) (hentry : entry ≠ 0) (hsize : size ≠ 0) :
    (∃ i, u.findLoaderCacheEntry path = some i ∧
      u.registerLoaderCacheEntry path base entry size =
        (true, u.setLoaderCacheEntry i { u.loaderCache i with
          baseAddress := base, entryAddress := entry, imageSize := size })) ∨
    (u.findLoaderCacheEntry path = none ∧ ∃ i, u.freeLoaderCacheEntry = some i ∧
      (u.registerLoaderCacheEntry path base entry size).1 = true ∧
      (u.registerLoaderCacheEntry path base entry size).2.loaderCache = Function.update u.loaderCache i
        { path := path, baseAddress := base, entryAddress := entry, imageSize := size, valid := true }) ∨
    (u.findLoaderCacheEntry path = none ∧ u.freeLoaderCacheEntry = none ∧
      u.registerLoaderCacheEntry path base entry size = (false, u)) := by
  have hargs : ¬ (path = none ∨ base = 0 ∨ entry = 0 ∨ size = 0) := by
    rintro (h | h | h | h)
    · exact hpath h
    · exact hbase h
    · exact hentry h
    · exact hsize h
  unfold State.registerLoaderCacheEntry
  rw [if_neg hargs]
  cases hfind : u.findLoaderCacheEntry path with
  | some i => exact .inl ⟨i, rfl, rfl⟩
  | none =>
    right
    cases hfree : u.freeLoaderCacheEntry with
    | some i => exact .inl ⟨rfl, i, rfl, rfl, rfl⟩
    | none => exact .inr ⟨rfl, rfl, rfl⟩

theorem State.elfLoaderReady_register (u : State) (path : Option String) (base entry size : UInt64) :
    (u.registerLoaderCacheEntry path base entry size).2.status.elfLoaderReady = u.status.elfLoaderReady := by
  unfold State.registerLoaderCacheEntry
  split
  · rfl
  · split
    · rfl
    · split <;> rfl

/-- Entering an image once more under the same path. -/
theorem LoaderCacheEntry.with_self {c : LoaderCacheEntry} (hbase : c.baseAddress = base)
    (hentry : c.entryAddress = entry) (hsize : c.imageSize = size) :
    { c with baseAddress := base, entryAddress := entry, imageSize := size } = c := by
  subst hbase hentry hsize
  rfl

theorem freeLoaderCacheEntry_some {i : Fin kMaxLoaderCacheEntries} (h : u.freeLoaderCacheEntry = some i) :
    (u.loaderCache i).valid = false := by
  simpa using Lib.firstSlot_true h

end Cache

/-- The arguments and the status that `KernelLaunchUserApplication` checks first. -/
def System.Refused (s : System) (appId path : Option String) : Prop :=
  appId = none ∨ !appExecutablePathValid path ∨ !s.user.status.elfLoaderReady

/-- The tables that a launch can change. -/
structure SameLaunchTables (s s' : System) : Prop where
  processes     : s'.kernel.sched.processes = s.kernel.sched.processes
  userProcesses : s'.user.userProcesses = s.user.userProcesses
  loaderCache   : s'.user.loaderCache = s.user.loaderCache
  count         : s'.user.status.cachedLoaderEntryCount = s.user.status.cachedLoaderEntryCount

section Load

variable {s : System} {appId path : Option String}

/-- **The image of an application loads**, at the base and with sixteen bytes. -/
theorem load_application (h : Based s.user) :
    s.user.loadUserElfImage (UserElf.buildSyntheticAppElf (fun _ => 0) UserElf.kAppImageSize s.user.nextAppBase) =
      (true,
        { entry := s.user.nextAppBase, lowestAddress := s.user.nextAppBase,
          highestAddress := s.user.nextAppBase + 16, segmentCount := 1, valid := true },
        { s.user with status := { s.user.status with loadedElfCount := s.user.status.loadedElfCount + 1 } }) := by
  have hlt := h.lt
  have hload := @UserElf.load_syntheticAppElf (fun _ => 0) UserElf.kAppImageSize s.user.nextAppBase
    (UInt64.le_refl UserElf.kAppImageSize) (by omega) { loadedElfCount := s.user.status.loadedElfCount }
  unfold State.loadUserElfImage
  dsimp only
  rw [hload]

/-- The tables when the image has been loaded. -/
def loaded (s : System) : State :=
  { s.user with status := { s.user.status with loadedElfCount := s.user.status.loadedElfCount + 1 } }

/-- **The first part of a launch** is an entry in the loader cache. -/
theorem cache_eq (h : Based s.user) (hok : ¬ s.Refused appId path) :
    let r := (loaded s).registerLoaderCacheEntry path s.user.nextAppBase s.user.nextAppBase 16
    s.cacheApplication appId path = (r.1, s.withUser r.2) := by
  have hsize : s.user.nextAppBase + 16 - s.user.nextAppBase = 16 := by
    rw [UInt64.add_comm, UInt64.add_sub_cancel]
  have hcases := s.cache_cases appId path
  dsimp only at hcases
  rw [load_application h] at hcases
  dsimp only at hcases
  rw [hsize] at hcases
  rcases hcases with ⟨hrefused, -⟩ | ⟨-, hfalse, -⟩ | ⟨-, -, heq⟩
  · exact absurd hrefused hok
  · exact absurd hfalse (by simp)
  · exact heq

/-- What the rest of a launch needs. -/
def System.RoomForProcess (s : System) : Prop :=
  (∃ k, (s.kernel.sched.processes k).active = false) ∧ s.kernel.sched.nextProcessId ≠ 0 ∧
    s.user.freeUserProcess ≠ none

/-- **The rest of a launch.** It succeeds, or it fails and has created a process, or no process could be created. -/
theorem launch_cached (happ : appId ≠ none) (hcached : (s.cacheApplication appId path).1 = true) :
    let r := s.launchUserApplication appId path
    (s.RoomForProcess ∧ r.1.1 = true) ∨
    (¬ s.RoomForProcess ∧ (∃ k, (s.kernel.sched.processes k).active = false) ∧ r.1.1 = false ∧
      r.2.kernel.sched.processes ≠ s.kernel.sched.processes) ∨
    ((∀ k, (s.kernel.sched.processes k).active = true) ∧ r.1 = (false, 0, 0) ∧
      r.2.kernel.sched.processes = s.kernel.sched.processes ∧ r.2.user = (s.cacheApplication appId path).2.user) := by
  intro r
  have hkernel := s.kernel_cacheApplication appId path
  have hfree : (s.cacheApplication appId path).2.user.freeUserProcess = s.user.freeUserProcess := by
    unfold State.freeUserProcess
    rw [(cacheApplication_frame s appId path).1]
  have hlaunch := s.launch_cases appId path
  rw [hcached] at hlaunch
  have hcreate := createProcess_cases (s.cacheApplication appId path).2 path
  rw [hkernel] at hcreate
  dsimp only at hlaunch
  rcases hcreate with ⟨hall, hpid, hprocesses⟩ | ⟨k, hk, hpid, hprocesses, -⟩
  · -- no process: the launch ends with the cache entered
    right; right
    rcases hlaunch with ⟨hfalse, -⟩ | ⟨-, -, heq⟩ | ⟨-, hne, -⟩
    · exact absurd hfalse (by simp)
    · refine ⟨hall, ?_, ?_, ?_⟩
      · exact congrArg Prod.fst heq
      · rw [show r.2 = _ from congrArg Prod.snd heq]
        exact hprocesses
      · rw [show r.2 = _ from congrArg Prod.snd heq]
        rfl
    · exact absurd hpid hne
  · rcases hlaunch with ⟨hfalse, -⟩ | ⟨-, hwhy, heq⟩ | ⟨-, hne, i, hi, heq⟩
    · exact absurd hfalse (by simp)
    · right; left
      rw [hpid, hfree] at hwhy
      refine ⟨?_, ⟨k, hk⟩, congrArg (fun q => q.1.1) heq, ?_⟩
      · rintro ⟨-, hnext, hroom⟩
        rcases hwhy with h | h | h
        · exact hnext h
        · exact happ h
        · exact hroom h
      · -- the slot of the new process was inactive before
        rw [show r.2 = _ from congrArg Prod.snd heq, hprocesses]
        intro hsame
        have hactive := congrArg Scheduler.Process.active (congrFun hsame k)
        rw [Function.update_self, hk] at hactive
        exact absurd hactive (by simp)
    · left
      rw [hpid] at hne
      rw [hfree] at hi
      refine ⟨⟨⟨k, hk⟩, hne, ?_⟩, congrArg (fun q => q.1.1) heq⟩
      rw [hi]
      exact Option.some_ne_none i

/-- A launch whose image does not get into the cache ends there. -/
theorem launch_uncached (hcached : (s.cacheApplication appId path).1 = false) :
    s.launchUserApplication appId path = ((false, 0, 0), (s.cacheApplication appId path).2) := by
  have hlaunch := s.launch_cases appId path
  rw [hcached] at hlaunch
  rcases hlaunch with ⟨-, heq⟩ | ⟨htrue, -⟩ | ⟨htrue, -⟩
  · exact heq
  · exact absurd htrue (by simp)
  · exact absurd htrue (by simp)

theorem not_refused (h : ¬ s.Refused appId path) : appId ≠ none ∧ path ≠ none := by
  refine ⟨fun happ => h (.inl happ), fun hpath => h (.inr (.inl ?_))⟩
  rw [hpath]
  rfl

end Load

/-- **The states in which a launch is atomic**: it is refused at once; or the path is new and the loader cache is
    full; or there is room for the process and its record, and the launch succeeds; or there is no room for a
    process, and the image is in the cache already, just as the launch would enter it. -/
def System.LaunchesCleanly (s : System) (appId path : Option String) : Prop :=
  s.Refused appId path ∨
  (s.user.findLoaderCacheEntry path = none ∧ s.user.freeLoaderCacheEntry = none) ∨
  s.RoomForProcess ∨
  (∀ k, (s.kernel.sched.processes k).active = true) ∧
    ∃ i, s.user.findLoaderCacheEntry path = some i ∧
      (s.user.loaderCache i).baseAddress = s.user.nextAppBase ∧
      (s.user.loaderCache i).entryAddress = s.user.nextAppBase ∧ (s.user.loaderCache i).imageSize = 16

/-- **When a failed launch changes nothing.** In every state of every run, a launch that returns false leaves the
    three tables and the count as they were and both ids zero exactly in the states listed. -/
theorem launch_atomic_iff (e : Entries) (heap : { h : KernelHeap // h.InBlock }) (as : List System.Action)
    (appId path : Option String) :
    let s := reached e heap as
    let r := s.launchUserApplication appId path
    (r.1.1 = false → SameLaunchTables s r.2 ∧ r.1.2 = (0, 0)) ↔ s.LaunchesCleanly appId path := by
  intro s r
  have hbased : Based s.user := based e heap as
  have hbase := hbased.ne_zero
  by_cases hrefused : s.Refused appId path
  · have hcache : s.cacheApplication appId path = (false, s) := if_pos hrefused
    have hr : r = ((false, 0, 0), s) := by
      have hlaunch := launch_uncached (congrArg Prod.fst hcache)
      rw [hcache] at hlaunch
      exact hlaunch
    rw [hr]
    exact iff_of_true (fun _ => ⟨⟨rfl, rfl, rfl, rfl⟩, rfl⟩) (.inl hrefused)
  · obtain ⟨happ, hpath⟩ := not_refused hrefused
    have hcache : s.cacheApplication appId path = _ := cache_eq hbased hrefused
    rcases registerLoaderCacheEntry_cases (u := loaded s) hpath hbase hbase (show (16 : UInt64) ≠ 0 by decide) with
      ⟨i, hfind, hreg⟩ | ⟨hnone, j, hfree, hok, htable⟩ | ⟨hnone, hfull, hreg⟩
    · -- the path is cached already
      rw [hreg] at hcache
      rcases launch_cached happ (congrArg Prod.fst hcache) with
        ⟨hroom, htrue⟩ | ⟨hroom, ⟨k, hk⟩, hfalse, hne⟩ | ⟨hall, hfalse, hprocesses, huser⟩
      · exact iff_of_true (fun hf => absurd (htrue.symm.trans hf) (by simp)) (.inr (.inr (.inl hroom)))
      · refine iff_of_false (fun h => hne (h hfalse).1.processes) ?_
        rintro (h | ⟨h, -⟩ | h | ⟨hall, -⟩)
        · exact hrefused h
        · exact absurd (hfind.symm.trans h) (by simp)
        · exact hroom h
        · exact absurd (hk.symm.trans (hall k)) (by simp)
      · rw [hcache] at huser
        have htable : r.2.user.loaderCache = Function.update s.user.loaderCache i { s.user.loaderCache i with
            baseAddress := s.user.nextAppBase, entryAddress := s.user.nextAppBase, imageSize := 16 } :=
          congrArg State.loaderCache huser
        constructor
        · intro h
          have hsame := (h (congrArg Prod.fst hfalse)).1.loaderCache
          rw [htable] at hsame
          have hentry := congrFun hsame i
          rw [Function.update_self] at hentry
          refine .inr (.inr (.inr ⟨hall, i, hfind, ?_, ?_, ?_⟩)) <;> rw [← hentry]
        · rintro (h | ⟨h, -⟩ | ⟨⟨k, hk⟩, -⟩ | ⟨-, j, hj, hbaseAddress, hentry, hsize⟩) _
          · exact absurd h hrefused
          · exact absurd (hfind.symm.trans h) (by simp)
          · exact absurd (hk.symm.trans (hall k)) (by simp)
          · have hij : i = j := Option.some.inj (hfind.symm.trans hj)
            refine ⟨⟨hprocesses, ?_, ?_, ?_⟩, congrArg Prod.snd hfalse⟩
            · rw [huser]
              rfl
            · rw [htable, hij, LoaderCacheEntry.with_self hbaseAddress hentry hsize]
              exact Function.update_eq_self _ _
            · rw [huser]
              rfl
    · -- the path takes a free entry, which stays taken
      have hcached : (s.cacheApplication appId path).1 = true := (congrArg Prod.fst hcache).trans hok
      rcases launch_cached happ hcached with
        ⟨hroom, htrue⟩ | ⟨hroom, ⟨k, hk⟩, hfalse, hne⟩ | ⟨hall, hfalse, hprocesses, huser⟩
      · exact iff_of_true (fun hf => absurd (htrue.symm.trans hf) (by simp)) (.inr (.inr (.inl hroom)))
      · refine iff_of_false (fun h => hne (h hfalse).1.processes) ?_
        rintro (h | ⟨-, h⟩ | h | ⟨hall, -⟩)
        · exact hrefused h
        · exact absurd (hfree.symm.trans h) (by simp)
        · exact hroom h
        · exact absurd (hk.symm.trans (hall k)) (by simp)
      · refine iff_of_false (fun h => ?_) ?_
        · have hsame := (h (congrArg Prod.fst hfalse)).1.loaderCache
          rw [huser, show (s.cacheApplication appId path).2.user.loaderCache = _ from
            (congrArg (fun q => q.2.user.loaderCache) hcache).trans htable] at hsame
          have hvalid := congrArg LoaderCacheEntry.valid (congrFun hsame j)
          rw [Function.update_self] at hvalid
          exact absurd ((freeLoaderCacheEntry_some hfree).symm.trans hvalid.symm) (by simp)
        · rintro (h | ⟨-, h⟩ | ⟨⟨k, hk⟩, -⟩ | ⟨-, i, hi, -⟩)
          · exact hrefused h
          · exact absurd (hfree.symm.trans h) (by simp)
          · exact absurd (hk.symm.trans (hall k)) (by simp)
          · exact absurd (hi.symm.trans hnone) (by simp)
    · -- the cache is full
      rw [hreg] at hcache
      have hr : r = ((false, 0, 0), s.withUser (loaded s)) := by
        have hlaunch := launch_uncached (congrArg Prod.fst hcache)
        rw [hcache] at hlaunch
        exact hlaunch
      rw [hr]
      exact iff_of_true (fun _ => ⟨⟨rfl, rfl, rfl, rfl⟩, rfl⟩) (.inr (.inl ⟨hnone, hfull⟩))

/-- Other code creates processes until the kernel's table is full. -/
def fullProcessTable : List System.Action :=
  List.replicate 63 (.kernel (.call (.createProcess (some "worker"))))

/-- With no slot for a process the launch fails, and the loader cache has one entry more. -/
theorem failed_launch_caches :
    let s := reached entriesAt1MiB Scheduler.heapAt2MiB fullProcessTable
    let r := s.launchUserApplication (some "app") (some "/bin/app")
    r.1.1 = false ∧ r.2.user.status.cachedLoaderEntryCount ≠ s.user.status.cachedLoaderEntryCount := by
  decide +kernel

end Userspace
end UefiBoot
