import UefiBoot.User.Launch

/-!
# `User.Recycle` — launching one application after another

`KernelExitUserApplication` gives the kernel's process slot back but only marks the user record as exited, and
`RegisterUserProcess` takes `Empty` records alone. So of a sequence of applications, each ended before the next is
launched, only as many find a record as were `Empty` at the beginning (`cycles_suffice`); where nothing else stops
the launches, the next one fails for lack of a record (`Fit`).
-/

namespace UefiBoot
namespace Userspace

/-- An application is launched and, if that succeeds, ended. -/
def System.cycle (path : String) (s : System) (app : String × Int32) : System :=
  let r := s.launchUserApplication (some app.1) (some path)
  if r.1.1 then (r.2.exitUserApplication r.1.2.1 app.2).2 else r.2

/-- The launch gets as far as `RegisterUserProcess`, with valid arguments, and no record is free. -/
def System.LacksRecord (s : System) (appId path : Option String) : Prop :=
  (s.cacheApplication appId path).1 = true ∧ (s.cacheApplication appId path).2.newProcess path ≠ 0 ∧
    s.user.freeUserProcess = none

/-! ## Enough records -/

section Enough

variable {s : System} {path : String}

theorem used_exit (s : System) (processId : UInt64) (code : Int32) :
    (s.exitUserApplication processId code).2.user.used = s.user.used := by
  rcases s.exit_cases processId code with ⟨-, h⟩ | ⟨i, hfind, ⟨-, h⟩ | ⟨-, h⟩⟩ <;> rw [h]
  · rfl
  · exact used_marked hfind (by simp) rfl

/-- One application takes one record at most. -/
theorem used_cycle (s : System) (path : String) (app : String × Int32) :
    (s.cycle path app).user.used ≤ s.user.used + 1 := by
  have hlaunch : (s.launchUserApplication (some app.1) (some path)).2.user.used ≤ s.user.used + 1 := by
    have hcache := used_congr (cacheApplication_frame s (some app.1) (some path)).1
    rcases s.launch_cases (some app.1) (some path) with ⟨-, h⟩ | ⟨-, -, h⟩ | ⟨-, -, i, hi, h⟩ <;> rw [h]
    · exact Nat.le_succ_of_le (le_of_eq hcache)
    · exact Nat.le_succ_of_le (le_of_eq hcache)
    · rw [← hcache]
      exact le_of_eq (used_registered hi (by simp) rfl)
  unfold System.cycle
  dsimp only
  split
  · rw [used_exit]
    exact hlaunch
  · exact hlaunch

/-- **As many records as launches** are enough. -/
theorem cycles_suffice (s : System) (path : String) {apps : List (String × Int32)}
    (h : apps.length ≤ kMaxUserProcesses - s.user.used) :
    Lib.Along (System.cycle path) (fun s app => ¬ s.LacksRecord (some app.1) (some path)) s apps := by
  induction apps generalizing s with
  | nil => trivial
  | cons app apps ih =>
    rw [List.length_cons] at h
    have hcycle := used_cycle s path app
    refine ⟨?_, ih _ (by omega)⟩
    rintro ⟨-, -, hnone⟩
    have hfull := freeUserProcess_none_iff.mp hnone
    omega

end Enough

/-! ## Where nothing else is in the way -/

/-- Nothing but the table of user processes can stop `n` launches of the path: the path is valid and has a place in
    the cache, a process slot is inactive, and the ids do not come round. -/
structure System.Fit (path : String) (n : Nat) (s : System) : Prop where
  valid     : appExecutablePathValid (some path) = true
  ready     : s.user.status.elfLoaderReady = true
  based     : Based s.user
  cached    : s.user.findLoaderCacheEntry (some path) ≠ none ∨ s.user.freeLoaderCacheEntry ≠ none
  slot      : ∃ k, (s.kernel.sched.processes k).active = false
  ids       : 2 ≤ s.kernel.sched.nextProcessId.toNat ∧ s.kernel.sched.nextProcessId.toNat + n < 2 ^ 64
  processes : ∀ k, (s.kernel.sched.processes k).active = true →
    (s.kernel.sched.processes k).id.toNat < s.kernel.sched.nextProcessId.toNat
  records   : ∀ i, (s.user.userProcesses i).state ≠ .empty →
    (s.user.userProcesses i).processId.toNat < s.kernel.sched.nextProcessId.toNat

section Fit

variable {s : System} {path : String} {n : Nat}

theorem System.Fit.not_refused (h : s.Fit path n) (appId : String) : ¬ s.Refused (some appId) (some path) := by
  rintro (happ | hpath | hready)
  · exact absurd happ (by simp)
  · rw [h.valid] at hpath
    exact absurd hpath (by simp)
  · rw [h.ready] at hready
    exact absurd hready (by simp)

theorem find_cached {u : State} {i : Fin kMaxLoaderCacheEntries} (hvalid : (u.loaderCache i).valid = true)
    (hpath : (u.loaderCache i).path = some path) : u.findLoaderCacheEntry (some path) ≠ none := by
  intro hnone
  have hmiss := Lib.firstSlot_eq_none_iff.mp hnone i
  rw [hvalid, hpath] at hmiss
  simp [stringEquals] at hmiss

theorem found_cached {u : State} {i : Fin kMaxLoaderCacheEntries}
    (h : u.findLoaderCacheEntry (some path) = some i) :
    (u.loaderCache i).valid = true ∧ (u.loaderCache i).path = some path := by
  have hfound := Lib.firstSlot_true h
  rw [Bool.and_eq_true] at hfound
  refine ⟨hfound.1, ?_⟩
  have heq := hfound.2
  cases hentry : (u.loaderCache i).path with
  | none =>
    rw [hentry] at heq
    exact absurd heq (by simp [stringEquals])
  | some p =>
    rw [hentry] at heq
    have hp : p = path := by simpa [stringEquals] using heq
    rw [hp]

/-- The launch gets past the cache, and the path stays in it. -/
theorem System.Fit.cache (h : s.Fit path n) (appId : String) :
    let r := s.cacheApplication (some appId) (some path)
    r.1 = true ∧ r.2.user.findLoaderCacheEntry (some path) ≠ none ∧ r.2.user.status.elfLoaderReady = true := by
  intro r
  have hcache : r = _ := cache_eq h.based (h.not_refused appId)
  have hbase := h.based.ne_zero
  have hpath : some path ≠ none := by simp
  rcases registerLoaderCacheEntry_cases (u := loaded s) hpath hbase hbase
      (show (16 : UInt64) ≠ 0 by decide) with ⟨i, hfind, hreg⟩ | ⟨-, i, -, hok, htable⟩ | ⟨hnone, hfull, -⟩
  · rw [hreg] at hcache
    obtain ⟨hvalid, hpath⟩ := found_cached hfind
    rw [hcache]
    refine ⟨rfl, ?_, h.ready⟩
    refine find_cached (i := i) ?_ ?_
    · show (Function.update (loaded s).loaderCache i _ i).valid = true
      rw [Function.update_self]
      exact hvalid
    · show (Function.update (loaded s).loaderCache i _ i).path = some path
      rw [Function.update_self]
      exact hpath
  · have hstatus := (loaded s).elfLoaderReady_register (some path) s.user.nextAppBase s.user.nextAppBase 16
    rw [hcache]
    refine ⟨hok, ?_, hstatus.trans h.ready⟩
    refine find_cached (i := i) ?_ ?_
    · show (((loaded s).registerLoaderCacheEntry _ _ _ _).2.loaderCache i).valid = true
      rw [htable, Function.update_self]
    · show (((loaded s).registerLoaderCacheEntry _ _ _ _).2.loaderCache i).path = some path
      rw [htable, Function.update_self]
  · rcases h.cached with hfind | hfree
    · exact absurd hnone hfind
    · exact absurd hfull hfree

/-- **`KernelTerminateProcess`** of a process whose id no other has. -/
theorem terminateProcess_spec (s : System) {pid : UInt64} {k : Fin Scheduler.kMaxProcesses} (code : Int32)
    (hpid : pid ≠ Scheduler.kKernelProcessId) (hk : (s.kernel.sched.processes k).active = true)
    (hid : (s.kernel.sched.processes k).id = pid)
    (huniq : ∀ l, (s.kernel.sched.processes l).active = true → (s.kernel.sched.processes l).id = pid → l = k) :
    (s.terminateProcess pid code).1 = true ∧
    (∃ p : Scheduler.Process, p.active = false ∧
      (s.terminateProcess pid code).2.kernel.sched.processes = Function.update s.kernel.sched.processes k p) ∧
    (s.terminateProcess pid code).2.kernel.sched.nextProcessId = s.kernel.sched.nextProcessId := by
  have hfind : s.kernel.sched.findProcess pid = some k := by
    apply Lib.firstSlot_unique
    · rw [hk, hid]
      simp
    · intro l hl
      rw [Bool.and_eq_true, beq_iff_eq] at hl
      exact huniq l hl.1 hl.2
  have hterminates : s.kernel.sched.terminates pid = some k := by
    unfold Scheduler.State.terminates
    rw [if_neg hpid, hfind]
  show (Scheduler.kernelTerminateProcess s.kernel.sched pid).1 = true ∧
    (∃ p : Scheduler.Process, _ ∧ (Scheduler.kernelTerminateProcess s.kernel.sched pid).2.processes = _) ∧
    (Scheduler.kernelTerminateProcess s.kernel.sched pid).2.nextProcessId = _
  unfold Scheduler.kernelTerminateProcess
  rw [hterminates]
  exact ⟨rfl, ⟨_, rfl, rfl⟩, rfl⟩

/-- **A launch of a fit system** takes a record and a process slot. -/
theorem System.Fit.launch (h : s.Fit path (n + 1)) {i : Fin kMaxUserProcesses}
    (hfree : s.user.freeUserProcess = some i) (appId : String) :
    let r := s.launchUserApplication (some appId) (some path)
    let pid := s.kernel.sched.nextProcessId
    r.1.1 = true ∧ r.1.2.1 = pid ∧
    r.2.user.userProcesses = Function.update s.user.userProcesses i
      { processId := pid, name := some appId, state := .ready, ring3Intent := true } ∧
    (r.2.user.findLoaderCacheEntry (some path) ≠ none ∧ r.2.user.status.elfLoaderReady = true) ∧
    (∃ k, (s.kernel.sched.processes k).active = false ∧
      r.2.kernel.sched.processes =
        Function.update s.kernel.sched.processes k { id := pid, name := some path, active := true }) ∧
    r.2.kernel.sched.nextProcessId = pid + 1 := by
  intro r pid
  obtain ⟨hcached, hfind, hready⟩ := h.cache appId
  have hkernel := s.kernel_cacheApplication (some appId) (some path)
  obtain ⟨hrecords, -⟩ := cacheApplication_frame s (some appId) (some path)
  have hfree' : (s.cacheApplication (some appId) (some path)).2.user.freeUserProcess = some i := by
    unfold State.freeUserProcess at hfree ⊢
    rw [hrecords]
    exact hfree
  have hnz : pid ≠ 0 := by
    intro hzero
    have htwo := h.ids.1
    rw [show s.kernel.sched.nextProcessId = 0 from hzero] at htwo
    exact absurd htwo (by decide)
  have hcreate := createProcess_cases (s.cacheApplication (some appId) (some path)).2 (some path)
  rw [hkernel] at hcreate
  rcases hcreate with ⟨hall, -⟩ | ⟨k, hk, hpid, hprocesses, hnext⟩
  · obtain ⟨k, hk⟩ := h.slot
    exact absurd (hk.symm.trans (hall k)) (by simp)
  · rcases s.launch_cases (some appId) (some path) with ⟨hfalse, -⟩ | ⟨-, hwhy, -⟩ | ⟨-, -, j, hj, heq⟩
    · exact absurd (hcached.symm.trans hfalse) (by simp)
    · rw [hpid, hfree'] at hwhy
      rcases hwhy with hzero | happ | hnone
      · exact absurd hzero hnz
      · exact absurd happ (by simp)
      · exact absurd hnone (by simp)
    · have hij : i = j := Option.some.inj (hfree'.symm.trans hj)
      have hr : r = _ := heq
      rw [hpid] at hr
      rw [hr, ← hij]
      refine ⟨rfl, rfl, ?_, ⟨hfind, hready⟩, ⟨k, hk, hprocesses⟩, hnext⟩
      show Function.update (s.cacheApplication (some appId) (some path)).2.user.userProcesses i _ = _
      rw [hrecords]

/-- **One application of a fit system**: the process slot comes back, the record does not. -/
theorem System.Fit.cycle (h : s.Fit path (n + 1)) {i : Fin kMaxUserProcesses}
    (hfree : s.user.freeUserProcess = some i) (app : String × Int32) :
    (s.cycle path app).Fit path n ∧ (s.cycle path app).user.used = s.user.used + 1 := by
  obtain ⟨hok, hpid, hrecords, hcached, ⟨k, hk, hprocesses⟩, hnext⟩ := h.launch hfree app.1
  have hbased₁ : Based (s.launchUserApplication (some app.1) (some path)).2.user :=
    h.based.process entriesAt1MiB (.launchUserApplication (some app.1) (some path))
  have hbased₂ := hbased₁.process entriesAt1MiB (.exitUserApplication s.kernel.sched.nextProcessId app.2)
  have hcycle : s.cycle path app = ((s.launchUserApplication (some app.1) (some path)).2.exitUserApplication
      s.kernel.sched.nextProcessId app.2).2 := by
    unfold System.cycle
    rw [if_pos hok, hpid]
  have hids := h.ids
  set pid := s.kernel.sched.nextProcessId with hpiddef
  generalize (s.launchUserApplication (some app.1) (some path)).2 = r at hrecords hcached hprocesses hnext hbased₂ hcycle
  have hone : (1 : UInt64).toNat = 1 := rfl
  have hup : (pid + 1).toNat = pid.toNat + 1 := by
    rw [UInt64.toNat_add]
    omega
  -- the record and the process are the only ones with this id
  have hfind : r.user.findUserProcess pid = some i := by
    apply Lib.firstSlot_unique
    · rw [hrecords, Function.update_self]
      simp
    · intro j hj
      by_contra hji
      rw [hrecords, Function.update_of_ne hji, Bool.and_eq_true, beq_iff_eq, bne_iff_ne] at hj
      have hlt : (s.user.userProcesses j).processId.toNat < pid.toNat := h.records j hj.2
      rw [hj.1] at hlt
      omega
  have hkernel : pid ≠ Scheduler.kKernelProcessId := by
    intro heq
    rw [heq] at hids
    exact absurd hids.1 (by decide)
  have hold : ∀ l, (r.kernel.sched.processes l).active = true → l ≠ k →
      (r.kernel.sched.processes l).id.toNat < pid.toNat := by
    intro l hl hlk
    rw [hprocesses, Function.update_of_ne hlk] at hl ⊢
    exact h.processes l hl
  have huniq : ∀ l, (r.kernel.sched.processes l).active = true → (r.kernel.sched.processes l).id = pid → l = k := by
    intro l hl hid
    by_contra hlk
    have hlt := hold l hl hlk
    rw [hid] at hlt
    omega
  have hself : r.kernel.sched.processes k = { id := pid, name := some path, active := true } := by
    rw [hprocesses, Function.update_self]
  obtain ⟨hterm, ⟨p, hp, hprocesses'⟩, hnext'⟩ := terminateProcess_spec r app.2 hkernel (k := k)
    (by rw [hself]) (by rw [hself]) huniq
  rcases r.exit_cases pid app.2 with ⟨hnone, -⟩ | ⟨j, hj, ⟨hfalse, -⟩ | ⟨-, heq⟩⟩
  · exact absurd (hfind.symm.trans hnone) (by simp)
  · exact absurd (hterm.symm.trans hfalse) (by simp)
  have hij : j = i := Option.some.inj (hj.symm.trans hfind)
  have hused : (s.cycle path app).user.used = s.user.used + 1 := by
    rw [hcycle, used_exit]
    exact used_registered hfree (by simp) hrecords
  refine ⟨?_, hused⟩
  have hbased : Based (s.cycle path app).user := by
    rw [hcycle]
    exact hbased₂
  rw [heq, hij] at hcycle
  generalize hs' : s.cycle path app = s' at hcycle hbased
  subst hcycle
  refine ⟨h.valid, hcached.2, hbased, .inl hcached.1, ⟨k, ?_⟩, ?_, fun l hl => ?_, fun j hj => ?_⟩
  · show ((r.terminateProcess pid app.2).2.kernel.sched.processes k).active = false
    rw [hprocesses', Function.update_self]
    exact hp
  · show 2 ≤ (r.terminateProcess pid app.2).2.kernel.sched.nextProcessId.toNat ∧
      (r.terminateProcess pid app.2).2.kernel.sched.nextProcessId.toNat + n < 2 ^ 64
    rw [hnext', hnext, hup]
    omega
  · replace hl : ((r.terminateProcess pid app.2).2.kernel.sched.processes l).active = true := hl
    show ((r.terminateProcess pid app.2).2.kernel.sched.processes l).id.toNat <
      (r.terminateProcess pid app.2).2.kernel.sched.nextProcessId.toNat
    rw [hnext', hnext, hup]
    have hlk : l ≠ k := by
      rintro rfl
      rw [hprocesses', Function.update_self, hp] at hl
      exact absurd hl (by simp)
    rw [hprocesses', Function.update_of_ne hlk] at hl ⊢
    have hlt := hold l hl hlk
    omega
  · replace hj : (Function.update r.user.userProcesses i _ j).state ≠ .empty := hj
    show (Function.update r.user.userProcesses i _ j).processId.toNat <
      (r.terminateProcess pid app.2).2.kernel.sched.nextProcessId.toNat
    rw [hnext', hnext, hup]
    by_cases hji : j = i
    · rw [hji, Function.update_self, hrecords, Function.update_self]
      exact Nat.lt_succ_self _
    · rw [Function.update_of_ne hji, hrecords, Function.update_of_ne hji] at hj ⊢
      have hlt : (s.user.userProcesses j).processId.toNat < pid.toNat := h.records j hj
      omega

/-- In a fit system a launch lacks a record exactly when none is free. -/
theorem System.Fit.lacksRecord (h : s.Fit path (n + 1)) (appId : String) :
    s.LacksRecord (some appId) (some path) ↔ s.user.freeUserProcess = none := by
  refine ⟨fun hlacks => hlacks.2.2, fun hnone => ⟨(h.cache appId).1, ?_, hnone⟩⟩
  have hkernel := s.kernel_cacheApplication (some appId) (some path)
  have hcreate := createProcess_cases (s.cacheApplication (some appId) (some path)).2 (some path)
  rw [hkernel] at hcreate
  rcases hcreate with ⟨hall, -⟩ | ⟨k, -, hpid, -⟩
  · obtain ⟨k, hk⟩ := h.slot
    exact absurd (hk.symm.trans (hall k)) (by simp)
  · rw [hpid]
    intro hzero
    have htwo := h.ids.1
    rw [hzero] at htwo
    exact absurd htwo (by decide)

/-- **In a fit system** there are enough records exactly when there are as many as launches. -/
theorem System.Fit.completes_iff {apps : List (String × Int32)} (h : s.Fit path apps.length) :
    Lib.Along (System.cycle path) (fun s app => ¬ s.LacksRecord (some app.1) (some path)) s apps ↔
      apps.length ≤ kMaxUserProcesses - s.user.used := by
  induction apps generalizing s with
  | nil => exact iff_of_true trivial (Nat.zero_le _)
  | cons app apps ih =>
    have hle := used_le s.user
    rw [List.length_cons] at h ⊢
    show ¬ s.LacksRecord (some app.1) (some path) ∧ Lib.Along _ _ (s.cycle path app) apps ↔ _
    rw [h.lacksRecord app.1]
    cases hfree : s.user.freeUserProcess with
    | none =>
      have hfull := freeUserProcess_none_iff.mp hfree
      refine iff_of_false (fun hall => hall.1 rfl) ?_
      omega
    | some i =>
      obtain ⟨hfit, hused⟩ := h.cycle hfree app
      have hne : s.user.used ≠ kMaxUserProcesses := by
        intro hfull
        rw [freeUserProcess_none_iff.mpr hfull] at hfree
        exact absurd hfree (by simp)
      rw [ih hfit, hused]
      refine ⟨fun hall => ?_, fun hlen => ⟨by simp, ?_⟩⟩
      · have hlen := hall.2
        omega
      · omega

end Fit

/-- **How many launches the records last for.** From every state of every run: if the launches are not more than the
    records that are `Empty`, then none of them fails for lack of a record; and in a fit system this is exact. -/
theorem cycles_iff (e : Entries) (heap : { h : KernelHeap // h.InBlock }) (as : List System.Action) (path : String)
    (apps : List (String × Int32)) :
    let s := reached e heap as
    let safe := Lib.Along (System.cycle path) (fun s app => ¬ s.LacksRecord (some app.1) (some path)) s apps
    (apps.length ≤ kMaxUserProcesses - s.user.used → safe) ∧
    (s.Fit path apps.length → (safe ↔ apps.length ≤ kMaxUserProcesses - s.user.used)) :=
  ⟨cycles_suffice _ path, fun hfit => hfit.completes_iff⟩

/-- The freshly initialised system is fit for a long sequence. -/
theorem fit_boot {n : Nat} (hn : n < 2 ^ 63) : System.Fit "/bin/app" n (System.boot Scheduler.heapAt2MiB) := by
  have hbase : State.initialised.nextAppBase = 0x900000 := rfl
  refine ⟨by decide +kernel, by decide +kernel, ⟨?_, ?_⟩, .inr (by decide +kernel), ⟨1, by decide +kernel⟩, ?_, ?_, ?_⟩
  · show 0x900000 ≤ State.initialised.nextAppBase.toNat
    rw [hbase]
    decide
  · show State.initialised.nextAppBase.toNat ≤ _
    rw [hbase]
    exact Nat.le_add_right _ _
  · have hnext : (System.boot Scheduler.heapAt2MiB).kernel.sched.nextProcessId.toNat = 2 := by decide +kernel
    rw [hnext]
    omega
  · decide +kernel
  · intro i hi
    exact absurd rfl hi

/-- On a freshly initialised system, two applications. -/
theorem cycles_iff_boot :
    Lib.Along (System.cycle "/bin/app") (fun s app => ¬ s.LacksRecord (some app.1) (some "/bin/app"))
      (System.boot Scheduler.heapAt2MiB) [("first", 0), ("second", 1)] :=
  (cycles_iff entriesAt1MiB Scheduler.heapAt2MiB [] "/bin/app" [("first", 0), ("second", 1)]).1 (by decide +kernel)

/-- The sixty-fifth launch finds no record, though every application before it has ended. -/
theorem records_run_out :
    ¬ Lib.Along (System.cycle "/bin/app") (fun s app => ¬ s.LacksRecord (some app.1) (some "/bin/app"))
      (System.boot Scheduler.heapAt2MiB) (List.replicate 65 ("app", 0)) := by
  have hfit := fit_boot (n := (List.replicate 65 ("app", (0 : Int32))).length) (by decide)
  rw [hfit.completes_iff, List.length_replicate]
  have hused : (System.boot Scheduler.heapAt2MiB).user.used = 0 := by
    apply Finset.sum_eq_zero
    intro i _
    rfl
  rw [hused]
  decide

end Userspace
end UefiBoot
