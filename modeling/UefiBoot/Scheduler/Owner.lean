import UefiBoot.Scheduler.Mutex

/-!
# `Scheduler.Owner` — who owns a locked mutex

The owner of a locked mutex should be a live thread that is inside the mutex, or still in the
`KernelMutexLock` call that will bring it inside (`OwnersLive`). Four kinds of steps break this: the owner's
entry function returns, its process is terminated, a thread that terminated its own process takes the
mutex, or an unlock passes the mutex to a thread that is no longer in `KernelMutexLock`. `owners_live_iff`
says that there is no fifth: a run keeps `OwnersLive` exactly when all its steps are `OwnerSafe`.
-/

namespace UefiBoot
namespace Scheduler

/-- The slot holds a thread that has not finished. -/
def Alive (s : State) (i : Fin kMaxThreads) : Prop :=
  (s.threads i).state ≠ .empty ∧ (s.threads i).state ≠ .finished

/-- The thread in slot `i` is in a call of `KernelMutexLock` on mutex `k`, suspended or about to return. -/
def Machine.InLock (m : Machine) (i : Fin kMaxThreads) (k : Fin kMaxMutexes) : Prop :=
  ∃ caller id, m.frame i = some (.mutexLock caller id k)

/-- **Every locked mutex has a live owner**, inside it or on its way in. -/
def OwnersLive (m : Machine) : Prop :=
  ∀ k, (m.sched.mutexes k).active = true → (m.sched.mutexes k).locked = true →
    ∃ i, (m.sched.threads i).id = (m.sched.mutexes k).ownerThreadId ∧ Alive m.sched i ∧
      (Inside (m.sched.threads i).id (m.sched.mutexes k).id m.log = true ∨ m.InLock i k)

/-- The thread in slot `i` owns a locked mutex. -/
def OwnsLocked (s : State) (i : Fin kMaxThreads) : Prop :=
  ∃ k, (s.mutexes k).active = true ∧ (s.mutexes k).locked = true ∧
    (s.mutexes k).ownerThreadId = (s.threads i).id

/-- Slot `j` is Blocked with `waiting_mutex_id = id`. -/
def WaitsFor (s : State) (id : UInt64) (j : Fin kMaxThreads) : Prop :=
  (s.threads j).state = .blocked ∧ (s.threads j).waitingMutexId = id

/-- An unlock of mutex `id` passes it to slot `j`: the waiter of highest priority, the first of several. -/
def Inherits (s : State) (id : UInt64) (j : Fin kMaxThreads) : Prop :=
  WaitsFor s id j ∧ (∀ i, WaitsFor s id i → (s.threads i).priority ≤ (s.threads j).priority) ∧
    ∀ i, i < j → WaitsFor s id i → (s.threads i).priority < (s.threads j).priority

theorem nextOwner_iff {s : State} {id : UInt64} {j : Fin kMaxThreads} :
    nextOwner s id = some j ↔ Inherits s id j := by
  unfold nextOwner Inherits WaitsFor
  rw [Lib.pickBest_finRange_iff]
  simp only [Bool.and_eq_true, beq_iff_eq, UInt8.le_iff_toNat_le, UInt8.lt_iff_toNat_lt]

/-- The steps that keep owners live. -/
def OwnerSafe (m : Machine) : Action → Prop
  | .exit => m.control = .user → ∀ c, m.sched.currentThread = some c → c ≠ 0 →
      ¬ OwnsLocked m.sched c
  | .call (.terminateProcess pid _) => m.control = .user → m.sched.terminates pid ≠ none →
      ∀ i, Alive m.sched i → (m.sched.threads i).processId = pid → ¬ OwnsLocked m.sched i
  | .call (.mutexLock id) => m.control = .user → ∀ c k, m.sched.currentThread = some c →
      m.sched.findMutex id = some k → (m.sched.mutexes k).locked = false → Alive m.sched c
  | .call (.mutexUnlock id) => m.control = .user → ∀ c k j, m.sched.currentThread = some c →
      m.sched.findMutex id = some k → (m.sched.mutexes k).ownerThreadId = (m.sched.threads c).id →
      Inherits m.sched id j → m.InLock j k
  | _ => True

/-! ## What a step does to a live thread -/

section Step

variable {m m' : Machine} {a : Action} {i : Fin kMaxThreads}

/-- A live thread stays live, unless its process is terminated or its entry function returns. -/
theorem Effect.alive (he : Effect m a m') (hi : Alive m.sched i) : Alive m'.sched i ∨
    (∃ pid code, a = .call (.terminateProcess pid code) ∧ m.control = .user ∧
      m.sched.terminates pid ≠ none ∧ (m.sched.threads i).processId = pid) ∨
    (a = .exit ∧ m.control = .user ∧ m.sched.currentThread = some i ∧ i ≠ 0) := by
  obtain ⟨hne, hfin⟩ := hi
  cases he.threadStep (i := i) with
  | same hs => exact Or.inl (by simp [Alive, hs, hne, hfin])
  | created hempty => exact absurd hempty hne
  | terminated hu hterm hp => exact Or.inr (Or.inl ⟨_, _, rfl, hu, hterm, hp⟩)
  | joined hfin' => exact absurd hfin' hfin
  | exited hu hcur hi0 => exact Or.inr (Or.inr ⟨rfl, hu, hcur, hi0⟩)
  | woke _ hs => exact Or.inl (by simp [Alive, hs])
  | signalled _ _ _ _ hs => exact Or.inl (by simp [Alive, hs])
  | popped _ _ _ _ _ _ hs => exact Or.inl (by simp [Alive, hs])
  | inherited _ _ _ _ _ _ _ hs => exact Or.inl (by simp [Alive, hs])
  | slept _ _ _ hs => exact Or.inl (by simp [Alive, hs])
  | futexBlocked _ _ _ hs => exact Or.inl (by simp [Alive, hs])
  | lockBlocked _ _ _ _ hs => exact Or.inl (by simp [Alive, hs])
  | chosen _ _ hs => exact Or.inl (by simp [Alive, hs])
  | left _ _ hs => exact Or.inl (by simp [Alive, hs])

/-- `KernelMutexLock` returns true to the owner of the mutex. -/
theorem Effect.lock_returns (he : Effect m .run m') {caller id : UInt64} {k : Fin kMaxMutexes}
    (hc : m.control = .resuming (.mutexLock caller id k)) (hcur : m.sched.currentThread = some i)
    (howner : (m.sched.mutexes k).ownerThreadId = (m.sched.threads i).id) :
    m' = m ∨ Inside (m.sched.threads i).id id m'.log = true := by
  cases he with
  | stutter => exact Or.inl rfl
  | @lockReturned caller' id' k' hc' =>
      rw [hc] at hc'
      cases hc'
      right
      have hret : kernelMutexLockReturn m.sched k = true := by
        simp [kernelMutexLockReturn, currentId_eq hcur, howner]
      rw [hret, inside_locked, currentId_eq hcur]
      exact Or.inl ⟨rfl, rfl⟩
  | joined ht =>
      rcases ht with ⟨ha, -⟩ | ⟨-, hc'⟩
      · exact absurd ha (by simp)
      · rw [hc] at hc'; exact absurd hc' (by simp)
  | joinWaits ht =>
      rcases ht with ⟨ha, -⟩ | ⟨-, hc'⟩
      · exact absurd ha (by simp)
      · rw [hc] at hc'; exact absurd hc' (by simp)
  | yieldReturned hy => rw [hc] at hy; exact absurd hy (by simp)
  | yieldSwitched hy => rw [hc] at hy; exact absurd hy (by simp)
  | started hc' => rw [hc] at hc'; exact absurd hc' (by simp)
  | badStart hc' => rw [hc] at hc'; exact absurd hc' (by simp)
  | resumed hc' hplain =>
      rw [hc] at hc'
      cases hc'
      exact absurd hplain (by simp [Continuation.plainReturn])
  | panicked hc' => rw [hc] at hc'; exact absurd hc' (by simp)

/-- A call other than `KernelTerminateProcess` keeps every live thread alive. -/
theorem Effect.alive_of_call {c : Call} (he : Effect m (.call c) m') (hi : Alive m.sched i)
    (hc : ∀ pid code, c ≠ .terminateProcess pid code) : Alive m'.sched i := by
  rcases he.alive hi with h | ⟨pid, code, ha, -⟩ | ⟨ha, -⟩
  · exact h
  · exact absurd (Action.call.inj ha) (hc pid code)
  · exact absurd ha (by simp)

/-! ## Safe steps keep owners live -/

/-- A step that keeps the owner inside keeps it alive and inside, or on its way in. -/
theorem owner_stays (hw : Wf m) (he : Effect m a m') (hsafe : OwnerSafe m a) {k : Fin kMaxMutexes}
    (hact : (m.sched.mutexes k).active = true) (hlocked : (m.sched.mutexes k).locked = true)
    (howner : (m.sched.threads i).id = (m.sched.mutexes k).ownerThreadId) (halive : Alive m.sched i)
    (hkeep : Inside (m.sched.threads i).id (m.sched.mutexes k).id m.log = true →
      Inside (m.sched.threads i).id (m.sched.mutexes k).id m'.log = true)
    (hin : Inside (m.sched.threads i).id (m.sched.mutexes k).id m.log = true ∨ m.InLock i k) :
    (m'.sched.threads i).id = (m.sched.threads i).id ∧ Alive m'.sched i ∧
      (Inside (m.sched.threads i).id (m.sched.mutexes k).id m'.log = true ∨ m'.InLock i k) := by
  have howns : OwnsLocked m.sched i := ⟨k, hact, hlocked, howner.symm⟩
  refine ⟨?_, ?_, ?_⟩
  · exact he.id_stays halive.1
  · rcases he.alive halive with h | ⟨pid, code, rfl, hu, hterm, hp⟩ | ⟨rfl, hu, hcur, hi0⟩
    · exact h
    · exact absurd howns (hsafe hu hterm i halive hp)
    · exact absurd howns (hsafe hu i hcur hi0)
  · rcases hin with hin | ⟨caller, id, hframe⟩
    · exact Or.inl (hkeep hin)
    · rcases he.frame_stays halive.1 hframe with h | ⟨hcur, hc, rfl⟩
      · exact Or.inr ⟨caller, id, h⟩
      · rcases he.lock_returns hc hcur howner.symm with rfl | hin'
        · exact Or.inr ⟨caller, id, hframe⟩
        · rw [(hw.frames i caller id k hframe).2]; exact Or.inl hin'

theorem OwnersLive.next (hw : Wf m) (hown : InsideOwns m) (h : OwnersLive m) (he : Effect m a m')
    (hsafe : OwnerSafe m a) : OwnersLive m' := by
  intro k hact' hlocked'
  -- the owner of a mutex that the step leaves alone
  have hsame : m'.sched.mutexes k = m.sched.mutexes k →
      (∀ t, (m.sched.mutexes k).ownerThreadId = t → Inside t (m.sched.mutexes k).id m.log = true →
        Inside t (m.sched.mutexes k).id m'.log = true) →
      ∃ i, (m'.sched.threads i).id = (m'.sched.mutexes k).ownerThreadId ∧ Alive m'.sched i ∧
        (Inside (m'.sched.threads i).id (m'.sched.mutexes k).id m'.log = true ∨ m'.InLock i k) := by
    intro hmut hkeep
    rw [hmut] at hact' hlocked' ⊢
    obtain ⟨i, howner, halive, hin⟩ := h k hact' hlocked'
    obtain ⟨hid, halive', hin'⟩ := owner_stays hw he hsafe hact' hlocked' howner halive
      (hkeep _ howner.symm) hin
    exact ⟨i, hid.trans howner, halive', by rw [hid]; exact hin'⟩
  cases he.mutexView hw hown.free with
  | same hmut hin => exact hsame (by rw [hmut]) fun t _ ht => by rwa [hin]
  | entered l hact hlocked howner hmut hin =>
      exact hsame (by rw [hmut]) fun t _ ht => (hin _ _).mpr (Or.inr ht)
  | created l hnew hfree hmut hin =>
      by_cases hkl : k = l
      · subst hkl; rw [hfree.1] at hlocked'; exact absurd hlocked' (by simp)
      · exact hsame (hmut k hkl) fun t _ ht => by rwa [hin]
  | @taken _ id l hu hi hfree hafter hmut hin =>
      by_cases hkl : k = l
      · -- the current thread takes the mutex
        subst hkl
        obtain ⟨c, hc⟩ := hw.current
        have halive : Alive m.sched c := hsafe hu c k hc hi hfree
        have halive' : Alive m'.sched c := he.alive_of_call halive (by simp)
        have hid := he.id_stays halive.1
        refine ⟨c, by rw [hafter.2, hid, currentId_eq hc], halive', Or.inl ?_⟩
        rw [hid, (Wf.mutex_stays he (State.findMutex_some hi).1).2, hin, currentId_eq hc]
        exact Or.inl ⟨rfl, rfl⟩
      · exact hsame (hmut k hkl) fun t _ ht => (hin _ _).mpr (Or.inr ht)
  | @passed _ id l j hu hi hlocked howner hnext hafter hmut hin =>
      by_cases hkl : k = l
      · -- the mutex goes to a thread that is still in its `KernelMutexLock`
        subst hkl
        obtain ⟨c, hc⟩ := hw.current
        rw [currentId_eq hc] at howner
        obtain ⟨caller, id', hframe⟩ := hsafe hu c k j hc hi howner (nextOwner_iff.mp hnext)
        have hblocked := (nextOwner_iff.mp hnext).1.1
        have halive : Alive m.sched j := by simp [Alive, hblocked]
        have halive' : Alive m'.sched j := he.alive_of_call halive (by simp)
        have hid := he.id_stays halive.1
        refine ⟨j, by rw [hafter.2, hid], halive', Or.inr ⟨caller, id', ?_⟩⟩
        rcases he.frame_stays halive.1 hframe with h | ⟨-, -, ha⟩
        · exact h
        · exact absurd ha (by simp)
      · refine hsame (hmut k hkl) fun t _ ht => (hin _ _).mpr ⟨?_, ht⟩
        rintro ⟨-, hid⟩
        exact hkl (hw.mutexes.id_inj (by rw [← hmut k hkl]; exact hact') (State.findMutex_some hi).1 hid)
  | freed l hact howner hafter hmut hin =>
      by_cases hkl : k = l
      · subst hkl; rw [hafter.1] at hlocked'; exact absurd hlocked' (by simp)
      · refine hsame (hmut k hkl) fun t _ ht => (hin _ _).mpr ⟨?_, ht⟩
        rintro ⟨-, hid⟩
        exact hkl (hw.mutexes.id_inj (by rw [← hmut k hkl]; exact hact') hact hid)

end Step

/-! ## Unsafe steps break it -/

section Unsafe

variable {m : Machine}

/-- The thread that carries the owner's id is the live owner. -/
theorem OwnersLive.owner (h : OwnersLive m) (hd : IdsDistinct m.sched) {k : Fin kMaxMutexes}
    (hact : (m.sched.mutexes k).active = true) (hlocked : (m.sched.mutexes k).locked = true)
    {x : Fin kMaxThreads} (hx : Live m.sched x)
    (howner : (m.sched.mutexes k).ownerThreadId = (m.sched.threads x).id) :
    Alive m.sched x ∧
      (Inside (m.sched.threads x).id (m.sched.mutexes k).id m.log = true ∨ m.InLock x k) := by
  obtain ⟨i, hid, halive, hin⟩ := h k hact hlocked
  obtain rfl : i = x := hd i x (Or.inl halive.1) hx (hid.trans howner)
  exact ⟨halive, hin⟩

theorem exit_safe (hd : IdsDistinct (m.step .exit).sched) (h' : OwnersLive (m.step .exit)) :
    OwnerSafe m .exit := by
  rintro hu c hcur hc ⟨k, hact, hlocked, howner⟩
  rw [step_exit hu hcur hc] at h' hd
  have hown := h'.owner hd hact hlocked (x := c) (Or.inr hcur) (by simpa using howner)
  exact absurd hown.1.2 (by simp)

theorem terminate_safe (hd : IdsDistinct m.sched) {pid : UInt64} {code : Int32}
    (h' : OwnersLive (m.step (.call (.terminateProcess pid code)))) :
    OwnerSafe m (.call (.terminateProcess pid code)) := by
  rintro hu hterm i halive hp ⟨k, hact, hlocked, howner⟩
  obtain ⟨proc, hproc⟩ := Option.ne_none_iff_exists'.mp hterm
  have hthreads : (m.step (.call (.terminateProcess pid code))).sched.threads
      = m.sched.survivors pid := by
    rw [step_call hu]; simp only [Machine.call, kernelTerminateProcess, hproc]; rfl
  have hmutexes : (m.step (.call (.terminateProcess pid code))).sched.mutexes = m.sched.mutexes := by
    rw [step_call hu]; simp only [Machine.call, kernelTerminateProcess, hproc]; rfl
  obtain ⟨j, hid, ⟨hne, -⟩, -⟩ := h' k (by rwa [hmutexes]) (by rwa [hmutexes])
  rw [hmutexes, hthreads, survivors_id, howner] at hid
  rw [hthreads, survivors_state] at hne
  have hnej : (m.sched.threads j).state ≠ .empty := by
    intro he; rw [he] at hne; exact hne (by split <;> rfl)
  obtain rfl : j = i := hd j i (Or.inl hnej) (Or.inl halive.1) hid
  exact hne (if_pos hp)

theorem lock_safe (hd : IdsDistinct m.sched) {id : UInt64}
    (h' : OwnersLive (m.step (.call (.mutexLock id)))) : OwnerSafe m (.call (.mutexLock id)) := by
  intro hu c k hcur hi hfree
  rw [step_call hu] at h'
  simp only [Machine.call, kernelMutexLock, hi, hcur, hfree, if_true, Machine.reply] at h'
  have hown := h'.owner (k := k) hd (by simp [(State.findMutex_some hi).1]) (by simp) (x := c)
    (Or.inr hcur) (by simp)
  exact hown.1

/-- An unlock with a waiter passes the mutex on. -/
theorem step_unlock_passes {id : UInt64} (hu : m.control = .user) {c j : Fin kMaxThreads}
    {k : Fin kMaxMutexes} (hcur : m.sched.currentThread = some c) (hi : m.sched.findMutex id = some k)
    (howner : (m.sched.mutexes k).ownerThreadId = (m.sched.threads c).id)
    (hinh : Inherits m.sched id j) :
    m.step (.call (.mutexUnlock id)) = m.returns (.mutexUnlock id) (.bool true)
      ((m.sched.setThread j { m.sched.threads j with state := .ready, waitingMutexId := 0 }).setMutex k
        { m.sched.mutexes k with ownerThreadId := (m.sched.threads j).id }) := by
  rw [step_call hu]
  simp only [Machine.call, kernelMutexUnlock, hi, hcur, howner, nextOwner_iff.mpr hinh, ne_eq,
    not_true_eq_false, if_false]

theorem unlock_safe (hw : Wf m) (hio : InsideOwns m) {id : UInt64}
    (h' : OwnersLive (m.step (.call (.mutexUnlock id)))) : OwnerSafe m (.call (.mutexUnlock id)) := by
  intro hu c k j hcur hi howner hinh
  have hw' := hw.step (.call (.mutexUnlock id))
  have howner' : (m.sched.mutexes k).ownerThreadId = m.sched.currentId := by
    rw [howner, currentId_eq hcur]
  have hlocked := hio.free.locked hw howner'
  obtain ⟨hact, hid⟩ := State.findMutex_some hi
  have hstep := step_unlock_passes hu hcur hi howner hinh
  rw [hstep] at h' hw'
  obtain ⟨-, hin⟩ := h'.owner (k := k) hw'.distinct (by simpa using hact) (by simpa using hlocked)
    (x := j) (Or.inl (by simp)) (by simp)
  rcases hin with hin | ⟨caller, id', hframe⟩
  · -- `j` was not inside: the caller was, as the owner
    exfalso
    obtain ⟨hnot, hold⟩ := (inside_unlocked m id _ _ _).mp hin
    obtain ⟨k', hact', hid', -, hown'⟩ := hio.owner _ _ hold
    obtain rfl : k' = k := hw.mutexes.id_inj hact' hact (by simpa using hid')
    exact hnot ⟨hown'.symm.trans howner', by simpa using hid⟩
  · refine ⟨caller, id', ?_⟩
    by_cases hjc : m.sched.currentThread = some j
    · exact absurd hframe (by simp [Machine.frame, hjc, Control.rest])
    · rw [frame_other hjc]
      rw [frame_other (by exact hjc)] at hframe
      simpa using hframe

end Unsafe

/-! ## Exactness -/

/-- The step lemma: in a well-formed state with live owners, exactly the safe steps keep them live. -/
theorem ownersLive_step_iff {m : Machine} (a : Action) (hw : Wf m) (hio : InsideOwns m)
    (h : OwnersLive m) : OwnersLive (m.step a) ↔ OwnerSafe m a := by
  refine ⟨fun h' => ?_, h.next hw hio (hw.effect a)⟩
  cases a with
  | exit => exact exit_safe (hw.step _).distinct h'
  | call c =>
      cases c with
      | terminateProcess pid code => exact terminate_safe hw.distinct h'
      | mutexLock id => exact lock_safe hw.distinct h'
      | mutexUnlock id => exact unlock_safe hw hio h'
      | _ => trivial
  | _ => trivial

theorem ownersLive_boot (heap : { h : KernelHeap // h.InBlock }) : OwnersLive (Machine.boot heap) := by
  intro k hact
  exact absurd hact (by simp [Machine.boot, kernelSchedulerInit])

/-- **Locked mutexes have live owners throughout a run exactly when every step of it is safe.** -/
theorem owners_live_iff (heap : { h : KernelHeap // h.InBlock }) (as : List Action) :
    Lib.Throughout Machine.step OwnersLive (Machine.boot heap) as ↔
      Lib.Along Machine.step OwnerSafe (Machine.boot heap) as :=
  Lib.throughout_iff_along (B := fun m => Wf m ∧ InsideOwns m)
    (fun _ a h => ⟨h.1.step a, h.2.next h.1 (h.1.effect a)⟩)
    (fun _ a h hl => ownersLive_step_iff a h.1 h.2 hl)
    ⟨wf_boot heap, insideOwns_boot heap⟩ (ownersLive_boot heap) as

/-- Thread 2 takes mutex 1 and its entry function returns. -/
def orphanRun : List Action :=
  [.call .mutexCreate, .call (.createThread 1 none 5 0), .call .schedulerYield, .run, .run,
    .call (.mutexLock 1), .exit]

/-- The mutex stays locked by a thread that has finished. -/
theorem owner_finished : ¬ OwnersLive (reached heapAt2MiB orphanRun) := by
  intro h
  obtain ⟨i, hid, ⟨-, halive⟩, -⟩ := h 0 (by decide +kernel) (by decide +kernel)
  have hall : ∀ i, ((reached heapAt2MiB orphanRun).sched.threads i).id
      = ((reached heapAt2MiB orphanRun).sched.mutexes 0).ownerThreadId →
      ((reached heapAt2MiB orphanRun).sched.threads i).state = .finished := by decide +kernel
  exact halive (hall i hid)

end Scheduler
end UefiBoot
