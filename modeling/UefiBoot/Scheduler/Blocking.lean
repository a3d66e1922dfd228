import UefiBoot.Scheduler.Futex

/-!
# `Scheduler.Blocking` — the state a blocking call returns in

`KernelThreadSleep`, `KernelFutexWait` and `KernelMutexLock` set the state of their caller first and then
rely on `Yield`. When `Yield` switches, the caller comes back Running and tidy; when it returns at once the
caller goes on Ready or Blocked. `blocking_calls_return_clean` is the guarantee for the runs in which that,
a signal to a futex waiter, and a thread that terminates its own process do not happen;
`early_return_unclean` says that an early return always breaks it.
-/

namespace UefiBoot
namespace Scheduler

/-! ## Blocking calls -/

def Call.blocks : Call → Bool
  | .threadSleep _ | .futexWait _ _ _ | .mutexLock _ => true
  | _ => false

def Continuation.blocks : Continuation → Bool
  | .threadSleep _ _ | .futexWait _ _ _ | .mutexLock _ _ _ => true
  | _ => false

/-- The running thread is about to call `Yield` from a blocking call. -/
def Control.yieldBlocks : Control → Bool
  | .yielding rest => rest.blocks
  | _ => false

/-- The thread is on an active futex queue. -/
def InQueue (s : State) (t : UInt64) : Prop :=
  ∃ k, (s.futexes k).active = true ∧ t ∈ (s.futexes k).waitingThreads

/-- The step `a` returns from a blocking call to the thread `t` that made it: at once, or after its
    `Yield`. -/
def Returning (m : Machine) (a : Action) (t : UInt64) : Prop :=
  (∃ c, a = .call c ∧ c.blocks = true ∧ m.control = .user ∧ (m.step a).control = .user ∧
      t = m.sched.currentId) ∨
    ∃ rest, a = .run ∧ m.control = .resuming rest ∧ rest.blocks = true ∧ rest.caller = some t

/-- Thread `t` is current and Running, on no queue, with no mutex to wait for and no wake-up time. -/
def CleanReturn (t : UInt64) (s : State) : Prop :=
  ∃ c, s.currentThread = some c ∧ (s.threads c).id = t ∧ (s.threads c).state = .running ∧
    ¬ InQueue s t ∧ (s.threads c).waitingMutexId = 0 ∧ (s.threads c).wakeTick = 0

/-- **Blocking calls return clean** at this step. -/
def ReturnsClean (m : Machine) (a : Action) : Prop :=
  ∀ t, Returning m a t → CleanReturn t (m.step a).sched

/-- The steps that keep the threads tidy. -/
def BlockSafe (m : Machine) : Action → Prop
  | .run => m.control.yieldBlocks = true → SwitchesAway m.sched
  | .call (.terminateProcess pid _) => m.control = .user → m.sched.terminates pid ≠ none →
      ∀ c, m.sched.currentThread = some c → (m.sched.threads c).processId ≠ pid
  | .call (.sendSignal id signal) => m.control = .user → signal < 32 →
      ∀ i address, m.sched.findThread id = some i → ¬ m.BlockedIn i address
  | _ => True

/-! ## Tidy threads -/

/-- What the state of a thread says about its other fields. -/
structure Tidy (m : Machine) (i : Fin kMaxThreads) : Prop where
  free    : (m.sched.threads i).state = .running ∨ (m.sched.threads i).state = .ready ∨
      (m.sched.threads i).state = .sleeping →
    (m.sched.threads i).waitingMutexId = 0 ∧ ¬ InQueue m.sched (m.sched.threads i).id
  awake   : (m.sched.threads i).state = .running ∨ (m.sched.threads i).state = .ready ∨
      (m.sched.threads i).state = .blocked → (m.sched.threads i).wakeTick = 0
  blocked : (m.sched.threads i).state = .blocked →
    ((∃ address, m.BlockedIn i address) ∧ (m.sched.threads i).waitingMutexId = 0) ∨
    ((∃ k, m.InLock i k) ∧ ¬ InQueue m.sched (m.sched.threads i).id)

/-- The running thread's state is Running, as far as its own calls have not changed it. -/
def Control.Runs : Control → Prop
  | .user          => True
  | .yielding rest => rest.blocks = false ∧ ∀ t, rest ≠ .exited t
  | .resuming rest => ∀ t, rest ≠ .exited t
  | .halted _      => False

/-- Every id is on one active queue at most, once, and was handed out. -/
structure QueuesTidy (s : State) : Prop where
  nodup    : ∀ k, (s.futexes k).active = true → (s.futexes k).waitingThreads.Nodup
  disjoint : ∀ k l t, (s.futexes k).active = true → (s.futexes l).active = true →
    t ∈ (s.futexes k).waitingThreads → t ∈ (s.futexes l).waitingThreads → k = l
  old      : ∀ t, InQueue s t → t < s.nextThreadId

/-- **The invariant of safe runs.** -/
structure BlockInv (m : Machine) : Prop where
  wf     : Wf m
  tidy   : ∀ i, Tidy m i
  runs   : ∀ c, m.sched.currentThread = some c → m.control.Runs → (m.sched.threads c).state = .running
  queues : QueuesTidy m.sched

section Step

variable {m m' : Machine} {a : Action} {i : Fin kMaxThreads}

/-- The running thread stays Running while it goes on outside the scheduler. -/
theorem running_stays (he : Effect m a m') (hsafe : BlockSafe m a) {c : Fin kMaxThreads}
    (hcur : m.sched.currentThread = some c) (hrun : (m.sched.threads c).state = .running)
    (hcur' : m'.sched.currentThread = some c) (hout : m'.control.rest = none) :
    (m'.sched.threads c).state = .running := by
  cases he.threadStep (i := c) with
  | same hs => exact hs.trans hrun
  | chosen _ _ hs => exact hs
  | terminated hu hterm hp => exact absurd hp (hsafe hu hterm c hcur)
  | left hne => exact absurd hcur' hne
  | slept _ _ hin => exact absurd hout hin
  | futexBlocked _ _ hin => exact absurd hout hin
  | lockBlocked _ _ _ hin => exact absurd hout hin
  | exited _ _ _ hin => exact absurd hout hin
  | created hempty => rw [hrun] at hempty; exact absurd hempty (by simp)
  | joined hfin => rw [hrun] at hfin; exact absurd hfin (by simp)
  | woke hbefore => rw [hrun] at hbefore; exact absurd hbefore (by simp)
  | signalled _ _ _ hbefore => rw [hrun] at hbefore; exact absurd hbefore (by simp)
  | popped _ _ _ _ _ hbefore => rw [hrun] at hbefore; exact absurd hbefore (by simp)
  | inherited _ _ _ _ _ hbefore => rw [hrun] at hbefore; exact absurd hbefore (by simp)

theorem BlockInv.next_runs (h : BlockInv m) (he : Effect m a m') (hsafe : BlockSafe m a) :
    ∀ c, m'.sched.currentThread = some c → m'.control.Runs →
      (m'.sched.threads c).state = .running := by
  intro c hcur' hruns'
  -- the same thread goes on outside the scheduler
  have hout : m.sched.currentThread = some c → m.control.Runs → m'.control.rest = none →
      (m'.sched.threads c).state = .running :=
    fun hcur hruns hrest => running_stays he hsafe hcur (h.runs c hcur hruns) hcur' hrest
  have huser : m.control = .user → m.control.Runs := fun hu => by rw [hu]; trivial
  cases he with
  | stutter => exact h.runs c hcur' hruns'
  | tick =>
      have hrun := h.runs c hcur' hruns'
      simp [kernelSchedulerTimerTick, Thread.wake, hrun]
  | joinWaits ht hnot =>
      refine h.runs c hcur' ?_
      rcases ht with ⟨-, hu, -⟩ | ⟨-, hc⟩
      · exact huser hu
      · rw [hc]; intro t ht; exact absurd ht (by simp)
  | yieldCalled hu => exact h.runs c hcur' (huser hu)
  | slept => exact absurd hruns'.1 (by simp [Continuation.blocks])
  | futexBlocked => exact absurd hruns'.1 (by simp [Continuation.blocks])
  | lockBlocked => exact absurd hruns'.1 (by simp [Continuation.blocks])
  | exited => exact absurd rfl (hruns'.2 _)
  | badStart => exact absurd hruns' (by simp [Control.Runs])
  | panicked => exact absurd hruns' (by simp [Control.Runs])
  | @yieldReturned rest c' hy hcur hstay =>
      have hblocks : rest.blocks = false := by
        by_contra hb
        exact hstay (hsafe (by rw [hy]; simpa [Control.yieldBlocks] using hb))
      obtain rfl : c' = c := Option.some.inj (hcur.symm.trans (by simpa using hcur'))
      have hrun := h.runs c' hcur (by rw [hy]; exact ⟨hblocks, hruns'⟩)
      show ((yieldReturn (yielded m.sched)).threads c').state = _
      rw [stayed_state hcur, stayedState]
      simp [hrun]
  | @yieldSwitched rest c' n hy hcur haway hne hrun =>
      obtain rfl : n = c :=
        Option.some.inj ((yieldSwitch_others (yielded m.sched) c' n rest).1.symm.trans hcur')
      show ((yieldSwitch (yielded m.sched) c' n rest).threads n).state = _
      rw [switched_state hcur hne, switchedState, if_pos rfl]
  | started hr hcur => exact hout hcur' (by rw [hr]; intro t ht; exact absurd ht (by simp)) rfl
  | resumed hr hplain =>
      refine hout hcur' ?_ rfl
      rw [hr]; rintro t rfl; exact absurd hplain (by simp [Continuation.plainReturn])
  | lockReturned hr => exact hout hcur' (by rw [hr]; intro t ht; exact absurd ht (by simp)) rfl
  | joined ht hfin =>
      refine hout hcur' ?_ rfl
      rcases ht with ⟨-, hu, -⟩ | ⟨-, hc⟩
      · exact huser hu
      · rw [hc]; intro t ht; exact absurd ht (by simp)
  | quiet hu => exact hout hcur' (huser hu) rfl
  | created hu => exact hout hcur' (huser hu) rfl
  | terminated hu => exact hout hcur' (huser hu) rfl
  | prioritized hu => exact hout hcur' (huser hu) rfl
  | signalled hu => exact hout hcur' (huser hu) rfl
  | futexWoken hu => exact hout hcur' (huser hu) rfl
  | mutexCreated hu => exact hout hcur' (huser hu) rfl
  | lockTaken hu => exact hout hcur' (huser hu) rfl
  | lockHeld hu => exact hout hcur' (huser hu) rfl
  | unlockPassed hu => exact hout hcur' (huser hu) rfl
  | unlockFreed hu => exact hout hcur' (huser hu) rfl

/-- A thread comes onto a queue by its own `KernelFutexWait`, which leaves it Blocked. -/
theorem Effect.inQueue_before {t : UInt64} (he : Effect m a m') (h : InQueue m'.sched t) :
    InQueue m.sched t ∨ ∃ c address expected, a = .call (.futexWait address expected expected) ∧
      m.control = .user ∧ m.sched.currentThread = some c ∧ t = (m.sched.threads c).id ∧
      (m'.sched.threads c).state = .blocked := by
  obtain ⟨k, hk, hmem⟩ := h
  cases he.futexView with
  | same hfut => rw [hfut] at hk hmem; exact Or.inl ⟨k, hk, hmem⟩
  | queued c l hu hcur hslot hfut hthreads hcur' hrest =>
      rw [hfut] at hk hmem
      by_cases hkl : k = l
      · subst hkl
        rw [Function.update_self] at hmem
        rcases List.mem_append.mp hmem with hmem | hmem
        · by_cases hact : (m.sched.futexes k).active = true
          · rw [State.futexQueue, if_pos hact] at hmem; exact Or.inl ⟨k, hact, hmem⟩
          · rw [State.futexQueue, if_neg hact] at hmem; exact absurd hmem (by simp)
        · exact Or.inr ⟨c, _, _, rfl, hu, hcur, by simpa using hmem, by simp [hthreads]⟩
      · rw [Function.update_of_ne hkl] at hk hmem
        exact Or.inl ⟨k, hk, hmem⟩
  | popped l popped left hu hfind hsplit hfut hthreads =>
      have hl := Lib.firstSlot_true hfind
      simp only [Bool.and_eq_true, beq_iff_eq] at hl
      rw [hfut] at hk hmem
      by_cases hkl : k = l
      · subst hkl
        rw [Function.update_self] at hmem
        exact Or.inl ⟨k, hl.1, by rw [hsplit]; exact List.mem_append_right _ hmem⟩
      · rw [Function.update_of_ne hkl] at hk hmem
        exact Or.inl ⟨k, hk, hmem⟩

/-- A live thread that is not Blocked after the step comes onto no queue by it. -/
theorem BlockInv.not_inQueue (h : BlockInv m) (he : Effect m a m') (hlive : Live m.sched i)
    (hstate : (m'.sched.threads i).state ≠ .blocked)
    (hnot : ¬ InQueue m.sched (m.sched.threads i).id) : ¬ InQueue m'.sched (m.sched.threads i).id := by
  intro hin
  rcases he.inQueue_before hin with hin' | ⟨c, address, expected, -, -, hcur, hid, hb⟩
  · exact hnot hin'
  · obtain rfl : i = c := h.wf.distinct i c hlive (Or.inr hcur) hid
    exact hstate hb

/-- A thread that was Blocked in the processor's current call would be Running. -/
theorem BlockInv.blocked_frame (h : BlockInv m) (he : Effect m a m')
    (hb : (m.sched.threads i).state = .blocked) {r : Continuation} (hr : m.frame i = some r)
    (hne : ∀ t, r ≠ .exited t) : m'.frame i = some r := by
  rcases he.frame_stays (by simp [hb]) hr with hf | ⟨hcur, hc, -⟩
  · exact hf
  · have hrun := h.runs i hcur (by rw [hc]; exact hne)
    rw [hb] at hrun; exact absurd hrun (by simp)

/-- A Blocked thread stays tidy while it stays Blocked. -/
theorem BlockInv.tidy_blocked (h : BlockInv m) (he : Effect m a m')
    (hb : (m.sched.threads i).state = .blocked) (hb' : (m'.sched.threads i).state = .blocked)
    (hw : (m'.sched.threads i).waitingMutexId = (m.sched.threads i).waitingMutexId)
    (hk : (m'.sched.threads i).wakeTick = (m.sched.threads i).wakeTick) : Tidy m' i := by
  have hid := he.id_stays (i := i) (by simp [hb])
  refine ⟨fun hf => by simp [hb'] at hf, fun _ => ?_, fun _ => ?_⟩
  · rw [hk]; exact (h.tidy i).awake (by simp [hb])
  · rcases (h.tidy i).blocked hb with ⟨⟨address, -, caller, expected, hf⟩, hw0⟩ |
      ⟨⟨k, caller, id, hf⟩, hnot⟩
    · exact Or.inl ⟨⟨address, hb', caller, expected, h.blocked_frame he hb hf (by simp)⟩,
        hw.trans hw0⟩
    · refine Or.inr ⟨⟨k, caller, id, h.blocked_frame he hb hf (by simp)⟩, ?_⟩
      rw [hid]
      intro hin
      rcases he.inQueue_before hin with hin' | ⟨c, address, expected, -, hu, hcur, hidc, -⟩
      · exact hnot hin'
      · -- the caller of `KernelFutexWait` is Running
        obtain rfl : i = c := h.wf.distinct i c (Or.inl (by simp [hb])) (Or.inr hcur) hidc
        have hrun := h.runs i hcur (by rw [hu]; trivial)
        rw [hb] at hrun; exact absurd hrun (by simp)

/-- A thread that is free to run after the step, and was free of queues before. -/
theorem BlockInv.tidy_free (h : BlockInv m) (he : Effect m a m') (hlive : Live m.sched i)
    (hne : (m.sched.threads i).state ≠ .empty) (hb' : (m'.sched.threads i).state ≠ .blocked)
    (hw : (m'.sched.threads i).waitingMutexId = 0)
    (hk : (m'.sched.threads i).state ≠ .sleeping → (m'.sched.threads i).wakeTick = 0)
    (hnot : ¬ InQueue m.sched (m.sched.threads i).id) : Tidy m' i := by
  refine ⟨fun _ => ⟨hw, ?_⟩, fun hs => hk ?_, fun hb => absurd hb hb'⟩
  · rw [he.id_stays hne]; exact h.not_inQueue he hlive hb' hnot
  · rcases hs with hs | hs | hs <;> simp [hs]

/-- A popped waiter is on no queue any more. -/
theorem BlockInv.popped_not_inQueue (h : BlockInv m) {k : Fin kMaxFutexes} {popped left : List UInt64}
    {t : UInt64} (hk : (m.sched.futexes k).active = true)
    (hsplit : (m.sched.futexes k).waitingThreads = popped ++ left)
    (hfut : m'.sched.futexes = Function.update m.sched.futexes k
      { m.sched.futexes k with waitingThreads := left, active := !left.isEmpty })
    (hmem : t ∈ popped) : ¬ InQueue m'.sched t := by
  rintro ⟨l, hl, hin⟩
  rw [hfut] at hl hin
  by_cases hlk : l = k
  · subst hlk
    rw [Function.update_self] at hin
    have hnodup := h.queues.nodup l hk
    rw [hsplit] at hnodup
    exact (List.nodup_append.mp hnodup).2.2 t hmem t hin rfl
  · rw [Function.update_of_ne hlk] at hl hin
    exact hlk (h.queues.disjoint l k t hl hk hin (by rw [hsplit]; exact List.mem_append_left _ hmem))

theorem BlockInv.next_tidy (h : BlockInv m) (he : Effect m a m') (hsafe : BlockSafe m a)
    (i : Fin kMaxThreads) : Tidy m' i := by
  have hvoid : ∀ s, (m'.sched.threads i).state = s → s = .empty ∨ s = .finished → Tidy m' i := by
    intro s hs h0
    rcases h0 with rfl | rfl <;>
      exact ⟨fun hf => by simp [hs] at hf, fun hf => by simp [hs] at hf, fun hf => by simp [hs] at hf⟩
  have htidy := h.tidy i
  cases he.threadStep (i := i) with
  | same hs hw hk =>
      cases hst : (m.sched.threads i).state with
      | empty => exact hvoid _ (hs.trans hst) (Or.inl rfl)
      | finished => exact hvoid _ (hs.trans hst) (Or.inr rfl)
      | blocked => exact h.tidy_blocked he hst (hs.trans hst) hw hk
      | ready =>
          obtain ⟨hw0, hnot⟩ := htidy.free (by simp [hst])
          exact h.tidy_free he (Or.inl (by simp [hst])) (by simp [hst]) (by simp [hs, hst])
            (hw.trans hw0) (fun _ => hk.trans (htidy.awake (by simp [hst]))) hnot
      | running =>
          obtain ⟨hw0, hnot⟩ := htidy.free (by simp [hst])
          exact h.tidy_free he (Or.inl (by simp [hst])) (by simp [hst]) (by simp [hs, hst])
            (hw.trans hw0) (fun _ => hk.trans (htidy.awake (by simp [hst]))) hnot
      | sleeping =>
          obtain ⟨hw0, hnot⟩ := htidy.free (by simp [hst])
          exact h.tidy_free he (Or.inl (by simp [hst])) (by simp [hst]) (by simp [hs, hst])
            (hw.trans hw0) (fun hne => absurd (hs.trans hst) hne) hnot
  | created hempty hs hw hk hid =>
      -- a new id is on no queue
      refine ⟨fun _ => ⟨hw, fun hin => ?_⟩, fun _ => hk, fun hb => by rw [hs] at hb; simp at hb⟩
      rw [hid] at hin
      rcases he.inQueue_before hin with hin' | ⟨c, address, expected, -, -, hcur, hidc, -⟩
      · exact absurd (h.queues.old _ hin') (by simp)
      · have hlt := (h.wf.ids c (Or.inr hcur)).2
        rw [← hidc] at hlt; exact absurd hlt (by simp)
  | terminated _ _ _ hs => exact hvoid _ hs (Or.inl rfl)
  | joined _ hs => exact hvoid _ hs (Or.inl rfl)
  | exited _ _ _ _ hs => exact hvoid _ hs (Or.inr rfl)
  | woke hbefore hs hw hk =>
      obtain ⟨hw0, hnot⟩ := htidy.free (by simp [hbefore])
      exact h.tidy_free he (Or.inl (by simp [hbefore])) (by simp [hbefore]) (by simp [hs])
        (hw.trans hw0) (fun _ => hk) hnot
  | signalled hu hsignal hfind hbefore hs hw hk =>
      have hne : (m.sched.threads i).state ≠ .empty := (State.findThread_some hfind).1
      refine h.tidy_free he (Or.inl hne) hne (by simp [hs]) hw (fun _ => hk) ?_
      rcases hbefore with hsl | hb
      · exact (htidy.free (by simp [hsl])).2
      · rcases htidy.blocked hb with ⟨⟨address, hin⟩, -⟩ | ⟨-, hnot⟩
        · exact absurd hin (hsafe hu hsignal i address hfind)
        · exact hnot
  | @popped address count k popped left hu hfind hsplit hfut hmem hbefore hs hw hk =>
      have hk' : (m.sched.futexes k).active = true := by
        have hl := Lib.firstSlot_true hfind
        simp only [Bool.and_eq_true] at hl; exact hl.1
      have hin : InQueue m.sched (m.sched.threads i).id :=
        ⟨k, hk', by rw [hsplit]; exact List.mem_append_left _ hmem⟩
      have hw0 : (m.sched.threads i).waitingMutexId = 0 := by
        rcases htidy.blocked hbefore with ⟨-, hw0⟩ | ⟨-, hnot⟩
        · exact hw0
        · exact absurd hin hnot
      refine ⟨fun _ => ⟨hw.trans hw0, ?_⟩, fun _ => hk.trans (htidy.awake (by simp [hbefore])),
        fun hb => by rw [hs] at hb; simp at hb⟩
      rw [he.id_stays (by simp [hbefore])]
      exact h.popped_not_inQueue hk' hsplit hfut hmem
  | @inherited id c k hu hcur hfind howner hnext hbefore hwait hs hw hk =>
      refine h.tidy_free he (Or.inl (by simp [hbefore])) (by simp [hbefore]) (by simp [hs]) hw
        (fun _ => hk.trans (htidy.awake (by simp [hbefore]))) ?_
      rcases htidy.blocked hbefore with ⟨-, hw0⟩ | ⟨-, hnot⟩
      · -- a futex waiter waits for no mutex, and mutex ids are not 0
        obtain ⟨hact, hid⟩ := State.findMutex_some hfind
        have hpos := h.wf.mutexes.id k hact
        rw [hid, ← hwait, hw0] at hpos
        exact absurd hpos (by simp)
      · exact hnot
  | slept hu hcur hin hs hw =>
      have hrun := h.runs i hcur (by rw [hu]; trivial)
      obtain ⟨hw0, hnot⟩ := htidy.free (by simp [hrun])
      exact h.tidy_free he (Or.inr hcur) (by simp [hrun]) (by simp [hs]) (hw.trans hw0)
        (fun hne => absurd hs hne) hnot
  | futexBlocked hu hcur hin hs hw hk hf =>
      have hrun := h.runs i hcur (by rw [hu]; trivial)
      exact ⟨fun hx => by simp [hs] at hx, fun _ => hk.trans (htidy.awake (by simp [hrun])),
        fun _ => Or.inl ⟨⟨_, hs, _, _, hf⟩, hw.trans (htidy.free (by simp [hrun])).1⟩⟩
  | lockBlocked hu hcur hfind hin hs hk hf =>
      have hrun := h.runs i hcur (by rw [hu]; trivial)
      refine ⟨fun hx => by simp [hs] at hx, fun _ => hk.trans (htidy.awake (by simp [hrun])),
        fun _ => Or.inr ⟨⟨_, _, _, hf⟩, ?_⟩⟩
      rw [he.id_stays (by simp [hrun])]
      intro hq
      rcases he.inQueue_before hq with hq' | ⟨c, address, expected, ha, -⟩
      · exact (htidy.free (by simp [hrun])).2 hq'
      · exact absurd ha (by simp)
  | chosen hcur' hrun hs hw hk =>
      have hst : (m.sched.threads i).state = .ready ∨ (m.sched.threads i).state = .sleeping :=
        hrun.imp id And.left
      obtain ⟨hw0, hnot⟩ := htidy.free (by rcases hst with h | h <;> simp [h])
      have hne : (m.sched.threads i).state ≠ .empty := by rcases hst with h | h <;> simp [h]
      refine h.tidy_free he (Or.inl hne) hne (by simp [hs]) (hw.trans hw0) (fun _ => ?_) hnot
      rw [hk]
      rcases hst with hr | hsl
      · rw [if_neg (by simp [hr])]; exact htidy.awake (by simp [hr])
      · rw [if_pos hsl]
  | left hcur' hbefore hs hw hk =>
      obtain ⟨hw0, hnot⟩ := htidy.free (by simp [hbefore])
      exact h.tidy_free he (Or.inl (by simp [hbefore])) (by simp [hbefore]) (by simp [hs])
        (hw.trans hw0) (fun _ => hk.trans (htidy.awake (by simp [hbefore]))) hnot

theorem BlockInv.next_queues (h : BlockInv m) (he : Effect m a m') : QueuesTidy m'.sched := by
  have hold : ∀ t, InQueue m'.sched t → t < m'.sched.nextThreadId := by
    intro t hin
    have hlt : t < m.sched.nextThreadId := by
      rcases he.inQueue_before hin with hin' | ⟨c, _, _, -, -, hcur, rfl, -⟩
      · exact h.queues.old t hin'
      · exact (h.wf.ids c (Or.inr hcur)).2
    rcases he.slots with ⟨hn, -⟩ | ⟨j, hj, -⟩
    · rw [hn.next]; exact hlt
    · rw [hj.next]; exact h.wf.lt_nextThreadId_succ hlt
  cases he.futexView with
  | same hfut =>
      refine ⟨fun k hk => ?_, fun k l t hk hl => ?_, hold⟩
      · rw [hfut] at hk ⊢; exact h.queues.nodup k hk
      · rw [hfut] at hk hl ⊢; exact h.queues.disjoint k l t hk hl
  | @queued _ address expected c l hu hcur hslot hfut hthreads hcur' hrest =>
      have hrun := h.runs c hcur (by rw [hu]; trivial)
      obtain ⟨-, hnot⟩ := (h.tidy c).free (by simp [hrun])
      -- the members of a queue are the old ones and the caller, which was on none
      have hmem : ∀ k t, (m'.sched.futexes k).active = true → t ∈ (m'.sched.futexes k).waitingThreads →
          ((m.sched.futexes k).active = true ∧ t ∈ (m.sched.futexes k).waitingThreads) ∨
          (k = l ∧ t = (m.sched.threads c).id) := by
        intro k t hk ht
        rw [hfut] at hk ht
        by_cases hkl : k = l
        · subst hkl
          rw [Function.update_self, State.futexQueue] at ht
          by_cases hact : (m.sched.futexes k).active = true
          · simp only [hact, if_true, List.mem_append, List.mem_singleton] at ht
            exact ht.imp (fun ht => ⟨hact, ht⟩) fun ht => ⟨rfl, ht⟩
          · simp [hact] at ht
            exact Or.inr ⟨rfl, ht⟩
        · rw [Function.update_of_ne hkl] at hk ht; exact Or.inl ⟨hk, ht⟩
      refine ⟨fun k hk => ?_, fun k k' t hk hk' ht ht' => ?_, hold⟩
      · by_cases hkl : k = l
        · subst hkl
          rw [hfut, Function.update_self, State.futexQueue]
          by_cases hact : (m.sched.futexes k).active = true
          · simp only [hact, if_true]
            refine List.nodup_append.mpr ⟨h.queues.nodup k hact, by simp, ?_⟩
            intro x hx y hy heq
            simp only [List.mem_singleton] at hy
            exact hnot ⟨k, hact, hy ▸ heq ▸ hx⟩
          · simp [hact]
        · rw [hfut, Function.update_of_ne hkl] at hk ⊢
          exact h.queues.nodup k hk
      · rcases hmem k t hk ht with ⟨hk0, ht0⟩ | ⟨rfl, rfl⟩
        · rcases hmem k' t hk' ht' with ⟨hk0', ht0'⟩ | ⟨rfl, rfl⟩
          · exact h.queues.disjoint k k' t hk0 hk0' ht0 ht0'
          · exact absurd ⟨k, hk0, ht0⟩ hnot
        · rcases hmem k' _ hk' ht' with ⟨hk0', ht0'⟩ | ⟨rfl, -⟩
          · exact absurd ⟨k', hk0', ht0'⟩ hnot
          · rfl
  | @popped _ address count l popped left hu hfind hsplit hfut hthreads =>
      have hl := Lib.firstSlot_true hfind
      simp only [Bool.and_eq_true, beq_iff_eq] at hl
      have hmem : ∀ k, (m'.sched.futexes k).active = true → (m.sched.futexes k).active = true ∧
          ∀ t, t ∈ (m'.sched.futexes k).waitingThreads → t ∈ (m.sched.futexes k).waitingThreads := by
        intro k hk
        rw [hfut] at hk ⊢
        by_cases hkl : k = l
        · subst hkl
          rw [Function.update_self]
          exact ⟨hl.1, fun t ht => by rw [hsplit]; exact List.mem_append_right _ ht⟩
        · rw [Function.update_of_ne hkl] at hk ⊢
          exact ⟨hk, fun t ht => ht⟩
      refine ⟨fun k hk => ?_, fun k k' t hk hk' ht ht' => ?_, hold⟩
      · have hnodup := h.queues.nodup k (hmem k hk).1
        by_cases hkl : k = l
        · subst hkl
          rw [hsplit] at hnodup
          rw [hfut, Function.update_self]
          exact (List.nodup_append.mp hnodup).2.1
        · rw [hfut, Function.update_of_ne hkl]; exact hnodup
      · exact h.queues.disjoint k k' t (hmem k hk).1 (hmem k' hk').1 ((hmem k hk).2 t ht)
          ((hmem k' hk').2 t ht')

theorem BlockInv.step (h : BlockInv m) (a : Action) (hsafe : BlockSafe m a) : BlockInv (m.step a) :=
  have he := h.wf.effect a
  ⟨h.wf.step a, h.next_tidy he hsafe, h.next_runs he hsafe, h.next_queues he⟩

/-- A step that returns from a blocking call is safe, and leaves its thread current, outside the
    scheduler. -/
theorem returning_step {t : UInt64} (hw : Wf m) (hr : Returning m a t) :
    BlockSafe m a ∧ (m.step a).control = .user ∧ (m.step a).sched.currentThread = m.sched.currentThread ∧
      ∃ c, m.sched.currentThread = some c ∧ t = (m.sched.threads c).id ∧ m.control.Runs := by
  obtain ⟨c, hcur⟩ := hw.current
  rcases hr with ⟨call, rfl, hblocks, hu, hu', rfl⟩ | ⟨rest, rfl, hc, hblocks, hcaller⟩
  · refine ⟨?_, hu', ?_, c, hcur, currentId_eq hcur, by rw [hu]; trivial⟩
    · cases call <;> trivial
    · rcases (hw.effect (.call call)).current_cases with h | ⟨_, _, ha, -⟩
      · exact h
      · exact absurd ha (by simp)
  · have hid := hw.callers c rest t (Or.inr hcur) (by rw [frame_current hcur, hc]; rfl) hcaller
    refine ⟨fun hy => by rw [hc] at hy; exact absurd hy (by simp [Control.yieldBlocks]), ?_, ?_, c, hcur, hid, ?_⟩
    · cases rest with
      | threadSleep | futexWait | mutexLock => simp [Machine.step, hc, Machine.resume]
      | _ => simp [Continuation.blocks] at hblocks
    · rcases (hw.effect .run).current_cases with h | ⟨_, _, -, hy, -⟩
      · exact h
      · rw [hc] at hy; exact absurd hy (by simp)
    · rw [hc]; rintro t' rfl; simp [Continuation.blocks] at hblocks

/-- In a state where the invariant holds, blocking calls return clean. -/
theorem BlockInv.returnsClean (h : BlockInv m) (a : Action) : ReturnsClean m a := by
  intro t hr
  obtain ⟨hsafe, hu', hcur', c, hcur, rfl, hruns⟩ := returning_step h.wf hr
  have h' := h.step a hsafe
  have hrun := h'.runs c (hcur'.trans hcur) (by rw [hu']; trivial)
  have hid := (h.wf.effect a).id_stays (i := c) (by simp [h.runs c hcur hruns])
  obtain ⟨hw0, hnot⟩ := (h'.tidy c).free (by simp [hrun])
  exact ⟨c, hcur'.trans hcur, hid, hrun, by rw [← hid]; exact hnot, hw0,
    (h'.tidy c).awake (by simp [hrun])⟩

end Step

/-! ## Runs -/

theorem blockInv_boot (heap : { h : KernelHeap // h.InBlock }) : BlockInv (Machine.boot heap) := by
  have hnone : ∀ t, ¬ InQueue (Machine.boot heap).sched t := by
    rintro t ⟨k, hk, -⟩; exact absurd hk (by simp [Machine.boot, kernelSchedulerInit])
  have hthread : ∀ i, ((Machine.boot heap).sched.threads i).state ≠ .blocked ∧
      ((Machine.boot heap).sched.threads i).waitingMutexId = 0 ∧
      ((Machine.boot heap).sched.threads i).wakeTick = 0 := by
    intro i
    by_cases hi : i = 0
    · subst hi; simp [Machine.boot, kernelSchedulerInit]
    · rw [boot_threads heap i hi]; simp
  refine ⟨wf_boot heap, fun i => ⟨fun _ => ⟨(hthread i).2.1, hnone _⟩, fun _ => (hthread i).2.2,
    fun hb => absurd hb (hthread i).1⟩, fun c hcur _ => ?_, ?_⟩
  · obtain rfl : 0 = c := Option.some.inj hcur
    simp [Machine.boot, kernelSchedulerInit]
  · refine ⟨fun k hk => ?_, fun k l t hk => ?_, fun t ht => absurd ht (hnone t)⟩ <;>
      exact absurd hk (by simp [Machine.boot, kernelSchedulerInit])

/-- **Blocking calls return clean** in every run all of whose steps are safe. -/
theorem blocking_calls_return_clean (heap : { h : KernelHeap // h.InBlock }) (as : List Action)
    (hsafe : Lib.Along Machine.step BlockSafe (Machine.boot heap) as) :
    Lib.Along Machine.step ReturnsClean (Machine.boot heap) as :=
  Lib.Along.of_invariant (I := BlockInv) (fun _ a h hs => h.step a hs) (fun _ a h _ => h.returnsClean a)
    (blockInv_boot heap) hsafe

/-! ## Early returns -/

/-- A thread about to call `Yield` from a blocking call is not Running any more. -/
def YieldsWaiting (m : Machine) : Prop :=
  ∀ c, m.sched.currentThread = some c → m.control.yieldBlocks = true →
    (m.sched.threads c).state ≠ .running

theorem YieldsWaiting.next {m m' : Machine} {a : Action} (h : YieldsWaiting m) (he : Effect m a m') :
    YieldsWaiting m' := by
  intro c hcur hy
  cases he with
  | stutter => exact h c hcur hy
  | tick =>
      have hne := h c hcur hy
      simp only [kernelSchedulerTimerTick, State.wakeSleepers_threads, Thread.wake]
      split
      · simp
      · exact hne
  | slept hu hcur' =>
      obtain rfl := Option.some.inj (hcur'.symm.trans hcur)
      simp
  | futexBlocked hu hcur' =>
      obtain rfl := Option.some.inj (hcur'.symm.trans hcur)
      simp
  | lockBlocked hu hcur' =>
      obtain rfl := Option.some.inj (hcur'.symm.trans hcur)
      simp
  | _ => exact absurd hy (by simp [Control.yieldBlocks, Continuation.blocks])

theorem yieldsWaiting_reached (heap : { h : KernelHeap // h.InBlock }) (as : List Action) :
    YieldsWaiting (reached heap as) := by
  have hboth : Wf (reached heap as) ∧ YieldsWaiting (reached heap as) :=
    Lib.run_invariant (I := fun m => Wf m ∧ YieldsWaiting m)
      (fun m a h => ⟨h.1.step a, h.2.next (h.1.effect a)⟩)
      ⟨wf_boot heap, fun c _ hy => absurd hy (by simp [Machine.boot, Control.yieldBlocks])⟩ as
  exact hboth.2

theorem resume_blocks_sched {m : Machine} {rest : Continuation} (hb : rest.blocks = true) :
    (m.resume rest).sched = m.sched := by
  cases rest with
  | threadSleep | futexWait | mutexLock => rfl
  | _ => simp [Continuation.blocks] at hb

/-- **An early return is never clean.** If the `Yield` of a blocking call finds nobody to switch to, the
    call returns to a thread that is not Running. -/
theorem early_return_unclean (heap : { h : KernelHeap // h.InBlock }) (as : List Action)
    (hy : (reached heap as).control.yieldBlocks = true) (hstay : ¬ SwitchesAway (reached heap as).sched) :
    ¬ ReturnsClean ((reached heap as).step .run) .run := by
  have hw := wf_reached heap as
  obtain ⟨c, hcur⟩ := hw.current
  obtain ⟨rest, hctl, hblocks⟩ : ∃ rest, (reached heap as).control = .yielding rest ∧
      rest.blocks = true := by
    cases hc : (reached heap as).control with
    | yielding rest => rw [hc] at hy; exact ⟨rest, rfl, hy⟩
    | _ => rw [hc] at hy; exact absurd hy (by simp [Control.yieldBlocks])
  have hne := yieldsWaiting_reached heap as c hcur hy
  rw [step_run_stays hctl hcur hstay]
  intro hclean
  obtain ⟨t, hcaller⟩ : ∃ t, rest.caller = some t := by
    cases rest <;> simp [Continuation.blocks, Continuation.caller] at hblocks ⊢
  obtain ⟨c', hcur', -, hrun, -⟩ := hclean t (Or.inr ⟨rest, rfl, rfl, hblocks, hcaller⟩)
  simp only [Machine.step, resume_blocks_sched hblocks] at hcur' hrun
  obtain rfl : c = c' := Option.some.inj (hcur.symm.trans (by simpa using hcur'))
  rw [stayed_state hcur, stayedState] at hrun
  split at hrun
  · simp at hrun
  · split at hrun
    · simp at hrun
    · exact hne hrun

/-! ## Runs on concrete inputs -/

/-- Thread 1 sleeps, thread 2 runs meanwhile and gives way once the wake-up time has come. -/
def sleepRun : List Action :=
  [.call (.createThread 1 none 5 0), .call (.threadSleep 1), .run, .run, .call .schedulerYield, .run, .run]

theorem blocking_calls_return_clean_sleepRun :
    Lib.Along Machine.step ReturnsClean (Machine.boot heapAt2MiB) sleepRun := by
  refine blocking_calls_return_clean heapAt2MiB sleepRun
    ⟨trivial, trivial, fun _ => ?_, fun h => ?_, trivial, fun h => ?_, fun h => ?_, trivial⟩
  · exact ⟨0, 1, by decide +kernel, by decide, Or.inl (by decide +kernel), fun _ => by decide +kernel⟩
  · exact absurd h (by decide +kernel)
  · exact absurd h (by decide +kernel)
  · exact absurd h (by decide +kernel)

/-- The only thread sleeps: its `Yield` returns at once. -/
def lonelySleepRun : List Action := [.call (.threadSleep 1), .run, .run]

/-- `KernelThreadSleep` returns to a thread that is Ready, not Running. -/
theorem sleep_returns_ready :
    ¬ Lib.Along Machine.step ReturnsClean (Machine.boot heapAt2MiB) lonelySleepRun := by
  rintro ⟨-, -, hclean, -⟩
  have hc : (Lib.run Machine.step (Machine.boot heapAt2MiB) (lonelySleepRun.take 2)).control
      = .resuming (.threadSleep 1 1) := by decide +kernel
  obtain ⟨c, hcur, -, hrun, -⟩ := hclean 1 (Or.inr ⟨_, rfl, hc, rfl, rfl⟩)
  have hc0 : (reached heapAt2MiB lonelySleepRun).sched.currentThread = some 0 := by decide +kernel
  obtain rfl : 0 = c := Option.some.inj (hc0.symm.trans hcur)
  have hready : ((reached heapAt2MiB lonelySleepRun).sched.threads 0).state = .ready := by
    decide +kernel
  exact absurd (hready.symm.trans hrun) (by simp)

end Scheduler
end UefiBoot
