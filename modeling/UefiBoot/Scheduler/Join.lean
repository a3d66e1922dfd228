import UefiBoot.Scheduler.Tables

/-!
# `Scheduler.Join` — which thread is joined

`KernelPthreadJoin` looks its thread up once and then waits on the slot. While it waits, `KernelTerminateProcess` may empty
the slot, another join of the same thread may, and `KernelCreateThread` may put a different thread there; the loop notices
nothing of it. A join that returns true has therefore joined the thread it was asked for exactly as long as nobody empties
a slot that somebody else waits on (`joins_sound_iff`).
-/

namespace UefiBoot
namespace Scheduler

variable {m m' : Machine} {a : Action} {i j : Fin kMaxThreads} {caller id : UInt64}

/-! ## The steps of a join -/

/-- `KernelPthreadJoin(id)` is called by a thread, or its `Yield` has returned. -/
inductive JoinStep (m : Machine) : Action → UInt64 → Prop where
  | call {id : UInt64} (hu : m.control = .user) : JoinStep m (.call (.pthreadJoin id)) id
  | resume {caller id : UInt64} {i : Fin kMaxThreads} (hr : m.control = .resuming (.pthreadJoin caller id i)) :
      JoinStep m .run id

/-- The step is one of a join, and it tests slot `i`. -/
inductive TestsSlot (m : Machine) : Action → UInt64 → Fin kMaxThreads → Prop where
  | call {id : UInt64} {i : Fin kMaxThreads} (hu : m.control = .user) (hfind : m.sched.findThread id = some i)
      (hother : m.sched.currentThread ≠ some i) : TestsSlot m (.call (.pthreadJoin id)) id i
  | resume {caller id : UInt64} {i : Fin kMaxThreads} (hr : m.control = .resuming (.pthreadJoin caller id i)) :
      TestsSlot m .run id i

/-- The slot of `i` after it was joined. -/
def State.joined (s : State) (i : Fin kMaxThreads) : State := s.setThread i { s.threads i with state := .empty }

/-- The loop finds its thread Finished. -/
theorem step_joins (h : TestsSlot m a id i) (hfin : (m.sched.threads i).state = .finished) :
    m.step a = m.returns (.pthreadJoin id) (.bool true) (m.sched.joined i) := by
  cases h with
  | call hu hfind hother =>
      rw [step_call hu]
      unfold Machine.call kernelPthreadJoin pthreadJoinLoop
      simp only [hfind, hother, if_false, hfin, ne_eq, not_true_eq_false]
      rfl
  | resume hr =>
      unfold Machine.step
      rw [hr]
      show m.resume _ = _
      unfold Machine.resume pthreadJoinLoop
      simp only [hfin, ne_eq, not_true_eq_false, if_false]
      rfl

/-- The loop goes on waiting. -/
theorem step_waits (h : TestsSlot m a id i) (hnot : (m.sched.threads i).state ≠ .finished) :
    ∃ caller, m.step a = { m with control := .yielding (.pthreadJoin caller id i) } := by
  cases h with
  | call hu hfind hother =>
      refine ⟨m.sched.currentId, ?_⟩
      rw [step_call hu]
      unfold Machine.call kernelPthreadJoin pthreadJoinLoop
      simp only [hfind, hother, if_false, hnot, ne_eq, not_false_eq_true, if_true]
      rfl
  | @resume caller _ _ hr =>
      refine ⟨caller, ?_⟩
      unfold Machine.step
      rw [hr]
      show m.resume _ = _
      unfold Machine.resume pthreadJoinLoop
      simp only [hnot, ne_eq, not_false_eq_true, if_true]
      rfl

/-- A join that does not test a slot is refused. -/
theorem JoinStep.cases (h : JoinStep m a id) :
    (∃ i, TestsSlot m a id i) ∨ m.step a = m.returns (.pthreadJoin id) (.bool false) m.sched := by
  cases h with
  | resume hr => exact Or.inl ⟨_, .resume hr⟩
  | call hu =>
      cases hfind : m.sched.findThread id with
      | none =>
          right
          rw [step_call hu]
          unfold Machine.call kernelPthreadJoin
          simp only [hfind]
          rfl
      | some i =>
          by_cases hcur : m.sched.currentThread = some i
          · right
            rw [step_call hu]
            unfold Machine.call kernelPthreadJoin
            simp only [hfind, hcur, if_true]
            rfl
          · exact Or.inl ⟨i, .call hu hfind hcur⟩

/-! ## Who waits, and what empties a slot -/

/-- The running thread goes into a join by calling it. -/
theorem Effect.joinEntered (he : Effect m a m') (hj : m.sched.currentThread = some j)
    (hr : m'.frame j = some (.pthreadJoin caller id i)) :
    m.frame j = some (.pthreadJoin caller id i) ∨
      (m.control = .user ∧ a = .call (.pthreadJoin id) ∧ m'.control = .yielding (.pthreadJoin caller id i)) := by
  cases he with
  | stutter => exact Or.inl hr
  | tick =>
      rw [frame_current (by exact hj)] at hr
      rw [frame_current hj]
      exact Or.inl hr
  | joinWaits ht =>
      rw [frame_current (by exact hj)] at hr
      obtain ⟨rfl, rfl, rfl⟩ := Continuation.pthreadJoin.inj (Option.some.inj hr)
      rcases ht with ⟨rfl, hu, -⟩ | ⟨-, hresume⟩
      · exact Or.inr ⟨hu, rfl, rfl⟩
      · rw [frame_current hj, hresume]
        exact Or.inl rfl
  | @yieldReturned rest c hy hcur hstay =>
      rw [frame_current (by simpa using hj)] at hr
      rw [frame_current hj, hy]
      exact Or.inl hr
  | @yieldSwitched rest c n hy hcur haway hne hrun =>
      -- the running thread is left, and its place in the scheduler is saved
      obtain rfl : c = j := Option.some.inj (hcur.symm.trans hj)
      have hcur' : (yieldSwitch (yielded m.sched) c n rest).currentThread ≠ some c := by
        rw [(yieldSwitch_others _ _ _ _).1]
        exact fun h => hne (Option.some.inj h)
      rw [frame_other hcur', switched_context hcur hne, if_pos rfl] at hr
      rw [frame_current hj, hy]
      exact Or.inl hr
  | _ =>
      rw [frame_current (by exact hj)] at hr
      exact absurd hr (by simp [Control.rest])

/-- Who is in a join was in it before, or has just called it. -/
theorem Effect.joinFrame (he : Effect m a m') (hlive : Live m'.sched j)
    (hr : m'.frame j = some (.pthreadJoin caller id i)) :
    Live m.sched j ∧ (m.frame j = some (.pthreadJoin caller id i) ∨
      (m.sched.currentThread = some j ∧ m.control = .user ∧ a = .call (.pthreadJoin id) ∧
        m'.control = .yielding (.pthreadJoin caller id i))) := by
  have hkept : Kept m a m' j := by
    rcases he.slots with ⟨-, hall⟩ | ⟨k, hk, hall⟩
    · exact hall j
    · refine hall j ?_
      -- a thread that was just created is in no call
      rintro rfl
      exact absurd (Wf.created_frame hk hr) (by simp)
  refine ⟨hkept.live hlive, ?_⟩
  rcases hkept.frame _ hr with hbefore | henters
  · exact Or.inl hbefore
  · exact (he.joinEntered henters.current hr).imp_right fun h => ⟨henters.current, h⟩

theorem setThread_used {s : State} {k : Fin kMaxThreads} {t : Thread} (ht : t.state ≠ .empty)
    (hi : (s.threads i).state ≠ .empty) : ((s.setThread k t).threads i).state ≠ .empty := by
  by_cases hik : i = k
  · rw [hik, State.setThread_threads, Function.update_self]
    exact ht
  · rw [State.setThread_threads, Function.update_of_ne hik]
    exact hi

/-- **What empties a slot**: the end of its process, or a join that finds its thread Finished. -/
theorem Effect.empties (he : Effect m a m') (hi : (m.sched.threads i).state ≠ .empty)
    (hempty : (m'.sched.threads i).state = .empty) :
    (∃ pid code, a = .call (.terminateProcess pid code) ∧ m.control = .user ∧ m.sched.terminates pid ≠ none ∧
        (m.sched.threads i).processId = pid) ∨
      ((m.sched.threads i).state = .finished ∧ ∃ caller id, JoinTests m a caller id i) := by
  cases he with
  | stutter => exact absurd hempty hi
  | tick =>
      refine absurd hempty ?_
      show ((m.sched.threads i).wake _).state ≠ _
      unfold Thread.wake
      split_ifs
      · exact fun h => nomatch h
      · exact hi
  | quiet => exact absurd hempty hi
  | created => exact absurd hempty (setThread_used (fun h => nomatch h) hi)
  | @terminated pid code k p hu hterm =>
      left
      refine ⟨pid, code, rfl, hu, by rw [hterm]; exact Option.some_ne_none k, ?_⟩
      by_contra hp
      replace hempty : (m.sched.survivors pid i).state = .empty := hempty
      rw [survivors_state, if_neg hp] at hempty
      exact hi hempty
  | @joined _ caller id k ht hfin =>
      by_cases hik : i = k
      · rw [hik]
        exact Or.inr ⟨hfin, caller, id, ht⟩
      · replace hempty : ((m.sched.setThread k _).threads i).state = .empty := hempty
        rw [State.setThread_threads, Function.update_of_ne hik] at hempty
        exact absurd hempty hi
  | joinWaits => exact absurd hempty hi
  | prioritized hu hfind => exact absurd hempty (setThread_used (State.findThread_some hfind).1 hi)
  | @signalled id signal k hu hsignal hfind =>
      refine absurd hempty (setThread_used ?_ hi)
      rw [signalled_state]
      split_ifs
      · exact fun h => nomatch h
      · exact (State.findThread_some hfind).1
  | slept => exact absurd hempty (setThread_used (fun h => nomatch h) hi)
  | futexBlocked => exact absurd hempty (setThread_used (s := m.sched.setFutex _ _) (fun h => nomatch h) hi)
  | @futexWoken address count k l popped left hu haddr hfind hsplit =>
      refine absurd hempty ?_
      show (m.sched.wokenThreads popped i).state ≠ _
      rw [wokenThreads_state]
      split_ifs
      · exact fun h => nomatch h
      · exact hi
  | mutexCreated => exact absurd hempty hi
  | lockTaken => exact absurd hempty hi
  | lockHeld => exact absurd hempty hi
  | lockBlocked => exact absurd hempty (setThread_used (fun h => nomatch h) hi)
  | unlockPassed => exact absurd hempty (setThread_used (s := m.sched) (fun h => nomatch h) hi)
  | unlockFreed => exact absurd hempty hi
  | yieldCalled => exact absurd hempty hi
  | exited => exact absurd hempty (setThread_used (fun h => nomatch h) hi)
  | @yieldReturned rest c hy hcur hstay =>
      replace hempty : ((yieldReturn (yielded m.sched)).threads i).state = .empty := hempty
      rw [stayed_state hcur, stayedState] at hempty
      split_ifs at hempty
      exact absurd hempty hi
  | @yieldSwitched rest c n hy hcur haway hne hrun =>
      replace hempty : ((yieldSwitch (yielded m.sched) c n rest).threads i).state = .empty := hempty
      rw [switched_state hcur hne, switchedState] at hempty
      split_ifs at hempty
      exact absurd hempty hi
  | @started c hr hcur =>
      refine absurd hempty ?_
      show ((m.sched.setThread c _).threads i).state ≠ _
      by_cases hic : i = c
      · rw [hic, State.setThread_threads, Function.update_self, deliver_state, ← hic]
        exact hi
      · rw [State.setThread_threads, Function.update_of_ne hic]
        exact hi
  | badStart => exact absurd hempty hi
  | resumed => exact absurd hempty hi
  | lockReturned => exact absurd hempty hi
  | panicked => exact absurd hempty hi

/-- The join that empties a slot has tested it. -/
theorem testsSlot_of_empties (hi : (m.sched.threads i).state ≠ .empty)
    (hempty : ((m.step a).sched.threads i).state = .empty) (ht : JoinTests m a caller id i) : TestsSlot m a id i := by
  rcases ht with ⟨rfl, hu, -⟩ | ⟨rfl, hr⟩
  · rcases (JoinStep.call hu).cases with ⟨k, hk⟩ | hrefused
    · by_cases hfin : (m.sched.threads k).state = .finished
      · rw [step_joins hk hfin] at hempty
        by_cases hik : i = k
        · rw [hik]
          exact hk
        · replace hempty : ((m.sched.joined k).threads i).state = .empty := hempty
          unfold State.joined at hempty
          rw [State.setThread_threads, Function.update_of_ne hik] at hempty
          exact absurd hempty hi
      · obtain ⟨caller, hwaits⟩ := step_waits hk hfin
        rw [hwaits] at hempty
        exact absurd hempty hi
    · rw [hrefused] at hempty
      exact absurd hempty hi
  · exact .resume hr

/-! ## Joins that hold their thread -/

/-- Every thread that is in a join waits on the slot of the thread that it joins, which is another one. -/
def JoinsHeld (m : Machine) : Prop :=
  ∀ j caller id i, Live m.sched j → m.frame j = some (.pthreadJoin caller id i) →
    (m.sched.threads i).state ≠ .empty ∧ (m.sched.threads i).id = id ∧ i ≠ j

/-- **What a join may do**: return true when its thread is Finished, and then empty the slot of this thread and change
    nothing else; return false and change nothing; or wait on the slot of its thread. -/
def SoundJoin (m : Machine) (a : Action) : Prop :=
  ∀ id, JoinStep m a id →
    (∃ i, (m.sched.threads i).state = .finished ∧ (m.sched.threads i).id = id ∧
      m.step a = m.returns (.pthreadJoin id) (.bool true) (m.sched.joined i)) ∨
    m.step a = m.returns (.pthreadJoin id) (.bool false) m.sched ∨
    ∃ caller i, (m.sched.threads i).state ≠ .empty ∧ (m.sched.threads i).id = id ∧
      m.step a = { m with control := .yielding (.pthreadJoin caller id i) }

/-- The step empties no slot that somebody waits on: no process is ended while a thread of another process joins a thread
    of it, and no thread is joined by two. -/
def LeavesJoiners (m : Machine) (a : Action) : Prop :=
  ∀ j caller id i, Live m.sched j → m.frame j = some (.pthreadJoin caller id i) →
    (∀ pid code, a = .call (.terminateProcess pid code) → m.control = .user → m.sched.terminates pid ≠ none →
      (m.sched.threads i).processId = pid → (m.sched.threads j).processId = pid) ∧
    (∀ id', TestsSlot m a id' i → (m.sched.threads i).state = .finished → m.sched.currentThread = some j)

/-- A thread in a join is not in user code. -/
theorem not_current_of_user {r : Continuation} (hu : m.control = .user) (hr : m.frame j = some r) :
    m.sched.currentThread ≠ some j := by
  intro hcur
  rw [frame_current hcur, hu] at hr
  cases hr

theorem Live.used {s : State} (h : Live s j) (hcur : s.currentThread ≠ some j) : (s.threads j).state ≠ .empty :=
  h.resolve_right hcur

theorem JoinsHeld.step (hw : Wf m) (h : JoinsHeld m) (hsafe : LeavesJoiners m a) : JoinsHeld (m.step a) := by
  intro j caller id i hlive hframe
  have he := hw.effect a
  obtain ⟨hlive₀, hbefore | ⟨hcur, hu, rfl, hcontrol⟩⟩ := he.joinFrame hlive hframe
  · obtain ⟨hused, hid, hne⟩ := h j caller id i hlive₀ hbefore
    refine ⟨fun hempty => ?_, (he.id_stays hused).trans hid, hne⟩
    rcases he.empties hused hempty with ⟨pid, code, rfl, hu, hterm, hp⟩ | ⟨hfin, caller', id', ht⟩
    · -- the waiting thread has ended with the process
      have hpj := (hsafe j caller id i hlive₀ hbefore).1 pid code rfl hu hterm hp
      obtain ⟨k, hterm'⟩ := Option.ne_none_iff_exists'.mp hterm
      have hcur := not_current_of_user hu hbefore
      have hcur' : (m.step (.call (.terminateProcess pid code))).sched.currentThread ≠ some j := by
        rcases he.current_cases with hsame | ⟨n, rest, hrun, -⟩
        · rwa [hsame]
        · cases hrun
      refine hlive.used hcur' ?_
      rw [Tables.terminate_threads hu hterm', survivors_state, if_pos hpj]
    · -- the thread that has joined is no longer in the call
      have htest := testsSlot_of_empties hused hempty ht
      have hcur := (hsafe j caller id i hlive₀ hbefore).2 id' htest hfin
      rw [step_joins htest hfin] at hframe
      exact absurd hframe (by rw [frame_current (by exact hcur)]; exact fun h => nomatch h)
  · rcases (JoinStep.call hu).cases with ⟨k, hk⟩ | hrefused
    · by_cases hfin : (m.sched.threads k).state = .finished
      · rw [step_joins hk hfin] at hcontrol
        cases hcontrol
      · obtain ⟨caller', hwaits⟩ := step_waits hk hfin
        rw [hwaits] at hcontrol ⊢
        obtain ⟨rfl, -, rfl⟩ := Continuation.pthreadJoin.inj (Control.yielding.inj hcontrol)
        cases hk with
        | call _ hfind hother =>
            obtain ⟨hused, hid⟩ := State.findThread_some hfind
            exact ⟨hused, hid, fun hij => hother (hij ▸ hcur)⟩
    · rw [hrefused] at hcontrol
      cases hcontrol

/-- A thread that is not running stays where it is when the running one returns to user code. -/
theorem frame_returns (c : Call) (res : Result) {s' : State} {r : Continuation} (hcur : m.sched.currentThread ≠ some j)
    (hsame : s'.currentThread = m.sched.currentThread) (hcontext : (s'.threads j).context = (m.sched.threads j).context)
    (hr : m.frame j = some r) : (m.returns c res s').frame j = some r := by
  rw [frame_other hcur] at hr
  rw [frame_other (by rw [Machine.returns_sched, hsame]; exact hcur), Machine.returns_sched, hcontext]
  exact hr

/-- Who empties a slot that somebody waits on leaves them waiting on an empty slot. -/
theorem JoinsHeld.leavesJoiners (h : JoinsHeld m) (hafter : JoinsHeld (m.step a)) : LeavesJoiners m a := by
  intro j caller id i hlive hframe
  obtain ⟨hused, -, hne⟩ := h j caller id i hlive hframe
  constructor
  · rintro pid code rfl hu hterm hp
    by_contra hpj
    obtain ⟨k, hterm'⟩ := Option.ne_none_iff_exists'.mp hterm
    have hcur := not_current_of_user hu hframe
    have hkept : m.sched.survivors pid j = m.sched.threads j := if_neg fun hj => hpj hj.2
    have hstep : ∃ p, m.step (.call (.terminateProcess pid code)) =
        m.returns (.terminateProcess pid code) (.bool true)
          { m.sched with processes := p, threads := m.sched.survivors pid } := by
      rw [step_call hu]
      unfold Machine.call
      dsimp only [kernelTerminateProcess]
      rw [hterm']
      exact ⟨_, rfl⟩
    obtain ⟨p, hp'⟩ := hstep
    have hframe' : (m.returns (.terminateProcess pid code) (.bool true)
        { m.sched with processes := p, threads := m.sched.survivors pid }).frame j = some (.pthreadJoin caller id i) :=
      frame_returns _ _ hcur rfl (congrArg Thread.context hkept) hframe
    rw [hp'] at hafter
    have hlive' : ((m.sched.survivors pid) j).state ≠ .empty := by
      rw [hkept]
      exact hlive.used hcur
    refine (hafter j caller id i (Or.inl hlive') hframe').1 ?_
    show (m.sched.survivors pid i).state = .empty
    rw [survivors_state, if_pos hp]
  · intro id' htest hfin
    by_contra hcur
    have hframe' : (m.returns (.pthreadJoin id') (.bool true) (m.sched.joined i)).frame j =
        some (.pthreadJoin caller id i) := frame_returns _ _ hcur rfl (setThread_context rfl) hframe
    rw [step_joins htest hfin] at hafter
    have hlive' : ((m.sched.joined i).threads j).state ≠ .empty := by
      unfold State.joined
      rw [State.setThread_threads, Function.update_of_ne hne.symm]
      exact hlive.used hcur
    refine (hafter j caller id i (Or.inl hlive') hframe').1 ?_
    show ((m.sched.joined i).threads i).state = .empty
    unfold State.joined
    rw [State.setThread_threads, Function.update_self]

/-- A join whose thread is held does what it may do. -/
theorem JoinsHeld.soundJoin (hw : Wf m) (h : JoinsHeld m) (a : Action) : SoundJoin m a := by
  intro id hjoin
  have hheld : ∀ i, TestsSlot m a id i → (m.sched.threads i).state ≠ .empty ∧ (m.sched.threads i).id = id := by
    intro i htest
    cases htest with
    | call _ hfind _ => exact State.findThread_some hfind
    | @resume caller _ _ hr =>
        obtain ⟨c, hc⟩ := hw.current
        obtain ⟨hused, hid, -⟩ := h c caller id i (Or.inr hc) (by rw [frame_current hc, hr]; rfl)
        exact ⟨hused, hid⟩
  rcases hjoin.cases with ⟨i, htest⟩ | hrefused
  · obtain ⟨hused, hid⟩ := hheld i htest
    by_cases hfin : (m.sched.threads i).state = .finished
    · exact Or.inl ⟨i, hfin, hid, step_joins htest hfin⟩
    · obtain ⟨caller, hwaits⟩ := step_waits htest hfin
      exact Or.inr (Or.inr ⟨caller, i, hused, hid, hwaits⟩)
  · exact Or.inr (Or.inl hrefused)

theorem joinsHeld_boot (heap : { h : KernelHeap // h.InBlock }) : JoinsHeld (Machine.boot heap) := by
  intro j caller id i _ hframe
  exact absurd (boot_frame hframe) (by simp)

/-- **When joins are sound.** In a run from boot, every thread in a join waits on the slot of the thread it joins and every
    join does what it may do, exactly when no step empties a slot that somebody waits on. -/
theorem joins_sound_iff (heap : { h : KernelHeap // h.InBlock }) (as : List Action) :
    (Lib.Throughout Machine.step JoinsHeld (Machine.boot heap) as ∧
        Lib.Along Machine.step SoundJoin (Machine.boot heap) as) ↔
      Lib.Along Machine.step LeavesJoiners (Machine.boot heap) as := by
  have hexact : Lib.Throughout Machine.step JoinsHeld (Machine.boot heap) as ↔
      Lib.Along Machine.step LeavesJoiners (Machine.boot heap) as :=
    Lib.throughout_iff_along (B := Wf) (fun _ a hw => hw.step a)
      (fun _ _ hw h => ⟨fun hafter => h.leavesJoiners hafter, fun hsafe => JoinsHeld.step hw h hsafe⟩) (wf_boot heap)
      (joinsHeld_boot heap) as
  refine ⟨fun h => hexact.mp h.1, fun hsafe => ⟨hexact.mpr hsafe, ?_⟩⟩
  exact hsafe.of_invariant (I := fun m => Wf m ∧ JoinsHeld m)
    (fun _ a h hsafe => ⟨h.1.step a, JoinsHeld.step h.1 h.2 hsafe⟩) (fun _ a h _ => h.2.soundJoin h.1 a)
    ⟨wf_boot heap, joinsHeld_boot heap⟩

/-- Thread 1 joins thread 2 of process 2. Thread 3 ends process 2 and creates thread 4, which gets the slot of thread 2 and
    finishes. -/
def wrongJoin : List Action :=
  [.call (.createProcess none), .call (.createThread 2 none 1 0), .call (.createThread 1 none 1 0),
    .call (.pthreadJoin 2), .run, .run, .call .schedulerYield, .run, .run,
    .call (.terminateProcess 2 0), .call (.createThread 1 none 1 0), .call .schedulerYield, .run, .run,
    .run, .run, .exit, .run, .run, .call .schedulerYield, .run]

/-- The join of thread 2 finds that thread 4 has finished, returns true and empties the slot of thread 4. -/
theorem join_of_another :
    ¬ (Lib.Throughout Machine.step JoinsHeld (Machine.boot heapAt2MiB) wrongJoin ∧
        Lib.Along Machine.step SoundJoin (Machine.boot heapAt2MiB) wrongJoin) ∧
      ((reached heapAt2MiB wrongJoin).sched.threads 1).id = 4 ∧
      (reached heapAt2MiB (wrongJoin ++ [.run])).log.head? = some (.returned 1 (.pthreadJoin 2) (.bool true)) ∧
      ((reached heapAt2MiB (wrongJoin ++ [.run])).sched.threads 1).state = .empty := by
  refine ⟨fun h => ?_, by decide +kernel, by decide +kernel, by decide +kernel⟩
  have hheld := h.1.last 0 1 2 1 (by right; decide +kernel) (by decide +kernel)
  exact absurd hheld.2.1 (by decide +kernel)

end Scheduler
end UefiBoot
