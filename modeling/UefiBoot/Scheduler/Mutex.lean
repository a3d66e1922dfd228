import UefiBoot.Scheduler.Wf

/-!
# `Scheduler.Mutex` — mutual exclusion

A thread is *inside* a mutex when the history says so: one of its `KernelMutexLock` calls returned true and
no later `KernelMutexUnlock` of it did. `mutual_exclusion` holds of every run. That the owner of a locked
mutex is a live thread which is inside, or suspended in its `KernelMutexLock`, does not; `Scheduler.Owner` has that.
-/

namespace UefiBoot
namespace Scheduler

/-! ## The history of a mutex -/

/-- `t`'s call of `KernelMutexLock(id)` returned true. -/
def Event.locks (t id : UInt64) (e : Event) : Bool := e == .returned t (.mutexLock id) (.bool true)

/-- `t`'s call of `KernelMutexUnlock(id)` returned true. -/
def Event.unlocks (t id : UInt64) (e : Event) : Bool := e == .returned t (.mutexUnlock id) (.bool true)

/-- `t` is inside mutex `id`, by a log with the newest event first. -/
def Inside (t id : UInt64) : List Event → Bool
  | []       => false
  | e :: log => e.locks t id || (!e.unlocks t id && Inside t id log)

/-- The event is neither. -/
def Event.Neutral (e : Event) : Prop := ∀ t id, e.locks t id = false ∧ e.unlocks t id = false

theorem Event.Neutral.inside {e : Event} (h : e.Neutral) (t id : UInt64) (log : List Event) :
    Inside t id (e :: log) = Inside t id log := by
  simp [Inside, h t id]

theorem neutral_created (t : UInt64) : (Event.created t).Neutral := by
  intro u id; simp [Event.locks, Event.unlocks]

theorem neutral_panicked (t : UInt64) : (Event.panicked t).Neutral := by
  intro u id; simp [Event.locks, Event.unlocks]

theorem neutral_returned (t : UInt64) {c : Call} {res : Result}
    (hc : c.locks = false ∨ res = .bool false) : (Event.returned t c res).Neutral := by
  intro u id
  rcases hc with hc | rfl
  · cases c <;> simp_all [Event.locks, Event.unlocks, Call.locks]
  · simp [Event.locks, Event.unlocks]

theorem inside_creation (s s' : State) (t id : UInt64) (log : List Event) :
    Inside t id (Machine.creation s s' ++ log) = Inside t id log := by
  unfold Machine.creation
  split
  · rfl
  · exact (neutral_created _).inside t id log

/-- Only the two mutex calls that return true change who is inside. -/
theorem inside_returns (m : Machine) {c : Call} {res : Result} (hc : c.locks = false ∨ res = .bool false)
    (s : State) (t id : UInt64) : Inside t id (m.returns c res s).log = Inside t id m.log := by
  rw [Machine.returns_log, (neutral_returned _ hc).inside, inside_creation]

theorem inside_locked (m : Machine) (mid : UInt64) (s : State) (t id : UInt64) :
    Inside t id (m.returns (.mutexLock mid) (.bool true) s).log = true ↔
      (t = m.sched.currentId ∧ id = mid) ∨ Inside t id m.log = true := by
  simp only [Machine.returns_log, Inside, Event.locks, Event.unlocks, inside_creation, Bool.or_eq_true,
    beq_iff_eq, Event.returned.injEq, Call.mutexLock.injEq, reduceCtorEq, and_true, and_false,
    Bool.and_eq_true, Bool.not_eq_true', beq_eq_false_iff_ne, ne_eq, not_false_eq_true, true_and]
  simp only [eq_comm]

theorem inside_unlocked (m : Machine) (mid : UInt64) (s : State) (t id : UInt64) :
    Inside t id (m.returns (.mutexUnlock mid) (.bool true) s).log = true ↔
      ¬ (t = m.sched.currentId ∧ id = mid) ∧ Inside t id m.log = true := by
  simp only [Machine.returns_log, Inside, Event.locks, Event.unlocks, inside_creation, Bool.or_eq_true,
    beq_iff_eq, Event.returned.injEq, Call.mutexUnlock.injEq, reduceCtorEq, and_true, and_false,
    Bool.and_eq_true, Bool.not_eq_true', beq_eq_false_iff_ne, ne_eq, false_or]
  rw [eq_comm (a := m.sched.currentId), eq_comm (a := mid)]

/-! ## What a step does to the mutexes and their history -/

/-- A free mutex has no owner. -/
def FreeUnowned (s : State) : Prop := ∀ k, (s.mutexes k).locked = false → (s.mutexes k).ownerThreadId = 0

/-- Everyone who is inside a mutex owns it, and the mutex is locked. -/
structure InsideOwns (m : Machine) : Prop where
  free  : FreeUnowned m.sched
  owner : ∀ t id, Inside t id m.log = true → ∃ k, (m.sched.mutexes k).active = true ∧
    (m.sched.mutexes k).id = id ∧ (m.sched.mutexes k).locked = true ∧
    (m.sched.mutexes k).ownerThreadId = t

/-- The mutexes other than `k` are untouched. -/
def ExceptMutex (k : Fin kMaxMutexes) (s s' : State) : Prop := ∀ j, j ≠ k → s'.mutexes j = s.mutexes j

/-- What a step does to the mutexes and to who is inside them. -/
inductive MutexView (m : Machine) : Action → Machine → Prop where
  | same {a : Action} {m' : Machine} (hmut : m'.sched.mutexes = m.sched.mutexes)
      (hin : ∀ t id, Inside t id m'.log = Inside t id m.log) : MutexView m a m'
  | created {a : Action} {m' : Machine} (k : Fin kMaxMutexes) (hnew : (m.sched.mutexes k).active = false)
      (hfree : (m'.sched.mutexes k).locked = false ∧ (m'.sched.mutexes k).ownerThreadId = 0)
      (hmut : ExceptMutex k m.sched m'.sched)
      (hin : ∀ t id, Inside t id m'.log = Inside t id m.log) : MutexView m a m'
  /-- The current thread takes a free mutex. -/
  | taken {m' : Machine} {id : UInt64} (k : Fin kMaxMutexes) (hu : m.control = .user)
      (hi : m.sched.findMutex id = some k) (hfree : (m.sched.mutexes k).locked = false)
      (hafter : (m'.sched.mutexes k).locked = true ∧
        (m'.sched.mutexes k).ownerThreadId = m.sched.currentId)
      (hmut : ExceptMutex k m.sched m'.sched)
      (hin : ∀ t id, Inside t id m'.log = true ↔
        (t = m.sched.currentId ∧ id = (m.sched.mutexes k).id) ∨ Inside t id m.log = true) :
      MutexView m (.call (.mutexLock id)) m'
  /-- The current thread comes inside a mutex it owns. -/
  | entered {a : Action} {m' : Machine} (k : Fin kMaxMutexes) (hact : (m.sched.mutexes k).active = true)
      (hlocked : (m.sched.mutexes k).locked = true)
      (howner : (m.sched.mutexes k).ownerThreadId = m.sched.currentId)
      (hmut : m'.sched.mutexes = m.sched.mutexes)
      (hin : ∀ t id, Inside t id m'.log = true ↔
        (t = m.sched.currentId ∧ id = (m.sched.mutexes k).id) ∨ Inside t id m.log = true) :
      MutexView m a m'
  /-- The current thread leaves its mutex to the thread in slot `j`. -/
  | passed {m' : Machine} {id : UInt64} (k : Fin kMaxMutexes) (j : Fin kMaxThreads)
      (hu : m.control = .user) (hi : m.sched.findMutex id = some k)
      (hlocked : (m.sched.mutexes k).locked = true)
      (howner : (m.sched.mutexes k).ownerThreadId = m.sched.currentId)
      (hnext : nextOwner m.sched id = some j)
      (hafter : (m'.sched.mutexes k).locked = true ∧
        (m'.sched.mutexes k).ownerThreadId = (m.sched.threads j).id)
      (hmut : ExceptMutex k m.sched m'.sched)
      (hin : ∀ t id, Inside t id m'.log = true ↔
        ¬ (t = m.sched.currentId ∧ id = (m.sched.mutexes k).id) ∧ Inside t id m.log = true) :
      MutexView m (.call (.mutexUnlock id)) m'
  /-- The current thread frees its mutex. -/
  | freed {a : Action} {m' : Machine} (k : Fin kMaxMutexes) (hact : (m.sched.mutexes k).active = true)
      (howner : (m.sched.mutexes k).ownerThreadId = m.sched.currentId)
      (hafter : (m'.sched.mutexes k).locked = false ∧ (m'.sched.mutexes k).ownerThreadId = 0)
      (hmut : ExceptMutex k m.sched m'.sched)
      (hin : ∀ t id, Inside t id m'.log = true ↔
        ¬ (t = m.sched.currentId ∧ id = (m.sched.mutexes k).id) ∧ Inside t id m.log = true) :
      MutexView m a m'

theorem currentId_eq {s : State} {c : Fin kMaxThreads} (h : s.currentThread = some c) :
    s.currentId = (s.threads c).id := by
  simp [State.currentId, h]

theorem exceptMutex_setMutex (s : State) (k : Fin kMaxMutexes) (x : KernelMutex) :
    ExceptMutex k s (s.setMutex k x) := by
  intro j hj; simp [hj]

/-- A mutex the current thread owns is locked. -/
theorem FreeUnowned.locked {m : Machine} (h : Wf m) (hz : FreeUnowned m.sched) {k : Fin kMaxMutexes}
    (howner : (m.sched.mutexes k).ownerThreadId = m.sched.currentId) :
    (m.sched.mutexes k).locked = true := by
  obtain ⟨c, hc⟩ := h.current
  by_contra hfree
  have h0 := hz k (by simpa using hfree)
  rw [howner, currentId_eq hc] at h0
  exact (h.ids c (Or.inr hc)).1 h0

/-- The second half of `KernelMutexLock`: it returns true exactly to the owner. -/
theorem mutexView_lockReturned {m : Machine} (h : Wf m) (hz : FreeUnowned m.sched) (a : Action)
    {caller id : UInt64} {k : Fin kMaxMutexes} (hr : m.control = .resuming (.mutexLock caller id k)) :
    MutexView m a (m.returns (.mutexLock id) (.bool (kernelMutexLockReturn m.sched k)) m.sched) := by
  obtain ⟨c, hc⟩ := h.current
  cases hret : kernelMutexLockReturn m.sched k with
  | false => exact .same rfl (inside_returns m (Or.inr rfl) _)
  | true =>
      have howner : (m.sched.mutexes k).ownerThreadId = m.sched.currentId := by
        simpa [kernelMutexLockReturn] using hret
      have hframe : m.frame c = some (.mutexLock caller id k) := by
        rw [frame_current hc, hr]; rfl
      obtain ⟨hact, rfl⟩ := h.frames c caller id k hframe
      exact .entered k hact (hz.locked h howner) howner rfl (inside_locked m _ _)

theorem Effect.mutexView {m m' : Machine} {a : Action} (h : Wf m) (hz : FreeUnowned m.sched)
    (he : Effect m a m') : MutexView m a m' := by
  cases he with
  | stutter => exact .same rfl fun _ _ => rfl
  | quiet hu hc => exact .same rfl (inside_returns m hc _)
  | created hu hc => exact .same rfl (inside_returns m (Or.inl hc) _)
  | terminated hu hterm => exact .same rfl (inside_returns m (Or.inl rfl) _)
  | joined ht hfin => exact .same rfl (inside_returns m (Or.inl rfl) _)
  | prioritized hu hfind => exact .same rfl (inside_returns m (Or.inl rfl) _)
  | signalled hu hsignal hfind => exact .same rfl (inside_returns m (Or.inl rfl) _)
  | futexWoken hu haddr hfind hsplit => exact .same rfl (inside_returns m (Or.inl rfl) _)
  | @mutexCreated i hu hi =>
      have hnew := Lib.firstSlot_true hi
      refine .created i (by simpa using hnew) (by simp) ?_ (inside_returns m (Or.inl rfl) _)
      intro j hj; simp [hj]
  | @lockTaken id i c hu hcur hi hfree =>
      obtain ⟨-, rfl⟩ := State.findMutex_some hi
      refine .taken i hu hi hfree ?_ (exceptMutex_setMutex _ _ _) (inside_locked m _ _)
      simp [currentId_eq hcur]
  | @lockHeld id i c hu hcur hi hlocked howner =>
      obtain ⟨hact, rfl⟩ := State.findMutex_some hi
      rw [← currentId_eq hcur] at howner
      exact .entered i hact hlocked howner rfl (inside_locked m _ _)
  | @unlockPassed id i c j hu hcur hi howner hnext =>
      obtain ⟨-, rfl⟩ := State.findMutex_some hi
      rw [← currentId_eq hcur] at howner
      have hlocked := hz.locked h howner
      refine .passed i j hu hi hlocked howner hnext ?_ ?_ (inside_unlocked m _ _)
      · simpa using hlocked
      · intro l hl; simp [hl]
  | @unlockFreed id i c hu hcur hi howner hnext =>
      obtain ⟨hact, rfl⟩ := State.findMutex_some hi
      rw [← currentId_eq hcur] at howner
      refine .freed i hact howner ?_ (exceptMutex_setMutex _ _ _) (inside_unlocked m _ _)
      simp
  | @yieldReturned rest c hy hcur hstay =>
      exact .same (by simp) fun _ _ => rfl
  | @yieldSwitched rest c n hy hcur haway hne hrun =>
      obtain ⟨-, hmut, -⟩ := yieldSwitch_others (yielded m.sched) c n rest
      exact .same (by rw [hmut, yielded_mutexes]) fun _ _ => rfl
  | @resumed rest c res hr hplain =>
      refine .same rfl (inside_returns m (Or.inl ?_) _)
      cases rest <;> simp_all [Continuation.plainReturn, Call.locks]
      all_goals obtain ⟨rfl, -⟩ := hplain; rfl
  | lockReturned hr => exact mutexView_lockReturned h hz _ hr
  | panicked hr => exact .same rfl fun t id => (neutral_panicked _).inside t id _
  | _ => exact .same rfl fun _ _ => rfl

/-! ## Mutual exclusion -/

theorem FreeUnowned.next {m m' : Machine} {a : Action} (hz : FreeUnowned m.sched)
    (hv : MutexView m a m') : FreeUnowned m'.sched := by
  intro j hj
  have hother : ∀ k, ExceptMutex k m.sched m'.sched → j ≠ k →
      (m'.sched.mutexes j).ownerThreadId = 0 := by
    intro k hmut hjk
    rw [hmut j hjk] at hj ⊢; exact hz j hj
  cases hv with
  | same hmut hin => rw [hmut] at hj ⊢; exact hz j hj
  | entered k hact hlocked howner hmut hin => rw [hmut] at hj ⊢; exact hz j hj
  | created k hnew hfree hmut hin =>
      by_cases hjk : j = k
      · subst hjk; exact hfree.2
      · exact hother k hmut hjk
  | taken k hu hi hfree hafter hmut hin =>
      by_cases hjk : j = k
      · subst hjk; rw [hafter.1] at hj; exact absurd hj (by simp)
      · exact hother k hmut hjk
  | passed k l hu hi hlocked howner hnext hafter hmut hin =>
      by_cases hjk : j = k
      · subst hjk; rw [hafter.1] at hj; exact absurd hj (by simp)
      · exact hother k hmut hjk
  | freed k hact howner hafter hmut hin =>
      by_cases hjk : j = k
      · subst hjk; exact hafter.2
      · exact hother k hmut hjk

/-- The step lemma of mutual exclusion. -/
theorem InsideOwns.next {m m' : Machine} {a : Action} (hw : Wf m) (h : InsideOwns m)
    (he : Effect m a m') : InsideOwns m' := by
  have hv := he.mutexView hw h.free
  refine ⟨h.free.next hv, fun t id ht => ?_⟩
  -- whoever was inside a mutex that the step leaves alone still owns it
  have hother : ∀ i, ExceptMutex i m.sched m'.sched → Inside t id m.log = true →
      (∀ k, (m.sched.mutexes k).active = true → (m.sched.mutexes k).id = id →
        (m.sched.mutexes k).locked = true → (m.sched.mutexes k).ownerThreadId = t → k ≠ i) →
      ∃ k, (m'.sched.mutexes k).active = true ∧ (m'.sched.mutexes k).id = id ∧
        (m'.sched.mutexes k).locked = true ∧ (m'.sched.mutexes k).ownerThreadId = t := by
    intro i hmut hold hne
    obtain ⟨k, hact, hid, hlocked, howner⟩ := h.owner t id hold
    have hki := hne k hact hid hlocked howner
    exact ⟨k, by rw [hmut k hki]; exact ⟨hact, hid, hlocked, howner⟩⟩
  cases hv with
  | same hmut hin =>
      rw [hin] at ht
      rw [hmut]; exact h.owner t id ht
  | created i hnew hfree hmut hin =>
      rw [hin] at ht
      refine hother i hmut ht ?_
      rintro k hact - - - rfl
      rw [hact] at hnew; exact absurd hnew (by simp)
  | @taken _ id' i hu hi hfree hafter hmut hin =>
      rcases (hin t id).mp ht with ⟨rfl, rfl⟩ | hold
      · obtain ⟨hact', hid'⟩ := Wf.mutex_stays he (State.findMutex_some hi).1
        exact ⟨i, hact', hid', hafter⟩
      · refine hother i hmut hold ?_
        rintro k - - hlocked - rfl
        rw [hlocked] at hfree; exact absurd hfree (by simp)
  | entered i hact hlocked howner hmut hin =>
      rw [hmut]
      rcases (hin t id).mp ht with ⟨rfl, rfl⟩ | hold
      · exact ⟨i, hact, rfl, hlocked, howner⟩
      · exact h.owner t id hold
  | passed i j hu hi hlocked howner hnext hafter hmut hin =>
      obtain ⟨hnot, hold⟩ := (hin t id).mp ht
      refine hother i hmut hold ?_
      rintro k - hid - howner' rfl
      exact hnot ⟨howner'.symm.trans howner, hid.symm⟩
  | freed i hact howner hafter hmut hin =>
      obtain ⟨hnot, hold⟩ := (hin t id).mp ht
      refine hother i hmut hold ?_
      rintro k - hid - howner' rfl
      exact hnot ⟨howner'.symm.trans howner, hid.symm⟩

theorem insideOwns_boot (heap : { h : KernelHeap // h.InBlock }) : InsideOwns (Machine.boot heap) := by
  refine ⟨fun k _ => rfl, fun t id ht => ?_⟩
  exact absurd ht (by simp [Machine.boot, Inside, Event.locks])

theorem insideOwns_reached (heap : { h : KernelHeap // h.InBlock }) (as : List Action) :
    InsideOwns (reached heap as) := by
  have hboth : Wf (reached heap as) ∧ InsideOwns (reached heap as) :=
    Lib.run_invariant (I := fun m => Wf m ∧ InsideOwns m)
      (fun m a h => ⟨h.1.step a, h.2.next h.1 (h.1.effect a)⟩) ⟨wf_boot heap, insideOwns_boot heap⟩ as
  exact hboth.2

/-- **Mutual exclusion.** After every run: thread ids are unique over the whole history; a thread that is
    inside a mutex is its owner, and nobody else is inside it. -/
theorem mutual_exclusion (heap : { h : KernelHeap // h.InBlock }) (as : List Action) :
    (createdIds (reached heap as).log).Nodup ∧
    ∀ t id, Inside t id (reached heap as).log = true →
      (∃ k, (reached heap as).sched.findMutex id = some k ∧
        ((reached heap as).sched.mutexes k).locked = true ∧
        ((reached heap as).sched.mutexes k).ownerThreadId = t) ∧
      ∀ u, Inside u id (reached heap as).log = true → u = t := by
  have hw := wf_reached heap as
  have hown := insideOwns_reached heap as
  refine ⟨hw.created.1, fun t id ht => ?_⟩
  have hfind : ∀ u, Inside u id (reached heap as).log = true →
      ∃ k, (reached heap as).sched.findMutex id = some k ∧
        ((reached heap as).sched.mutexes k).locked = true ∧
        ((reached heap as).sched.mutexes k).ownerThreadId = u := by
    intro u hu
    obtain ⟨k, hact, hid, hlocked, howner⟩ := hown.owner u id hu
    exact ⟨k, hid ▸ hw.mutexes.findMutex hact, hlocked, howner⟩
  obtain ⟨k, hk, hlocked, howner⟩ := hfind t ht
  refine ⟨⟨k, hk, hlocked, howner⟩, fun u hu => ?_⟩
  obtain ⟨k', hk', -, howner'⟩ := hfind u hu
  obtain rfl : k = k' := Option.some.inj (hk.symm.trans hk')
  exact howner'.symm.trans howner

/-- Thread 1 holds mutex 1, thread 2 blocks on it, 1 unlocks, 2 goes on inside. -/
def handOverRun : List Action :=
  [.call .mutexCreate, .call (.mutexLock 1), .call (.createThread 1 none 5 0), .call .schedulerYield,
    .run, .run, .call (.mutexLock 1), .run, .run, .call (.mutexUnlock 1), .call .schedulerYield,
    .run, .run]

/-- After the hand-over thread 2, and nobody else, is inside. -/
theorem mutual_exclusion_handOver :
    ∀ u, Inside u 1 (reached heapAt2MiB handOverRun).log = true → u = 2 :=
  ((mutual_exclusion heapAt2MiB handOverRun).2 2 1 (by decide +kernel)).2

end Scheduler
end UefiBoot
