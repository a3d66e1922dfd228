import UefiBoot.Scheduler.Wf

/-!
# `Scheduler.Exit` — when does a finished thread come back?

`ThreadTrampoline` marks its thread Finished, calls `KernelSchedulerYield` and panics if the call returns.
`Yield` returns at once when nobody else is Ready, also while other threads sleep or are blocked. So the
panic is reached exactly when no other thread is runnable at the call (`finished_thread_resumes_iff`): one
that is there but asleep does not help.
-/

namespace UefiBoot
namespace Scheduler

section Step

variable {m m' : Machine} {a : Action} {i : Fin kMaxThreads}

theorem not_runnable_of_finished {s : State} (h : (s.threads i).state = .finished) : ¬ Runnable s i := by
  rintro (hr | ⟨hr, -⟩) <;> rw [h] at hr <;> exact absurd hr (by simp)

/-- A finished thread stays finished until its slot is emptied, which a call does. -/
theorem Effect.finished_stays (he : Effect m a m') (hi : (m.sched.threads i).state = .finished)
    (hcur : m.control = .user → m.sched.currentThread ≠ some i) :
    (m'.sched.threads i).state = .finished ∨
      ((m'.sched.threads i).state = .empty ∧ m'.control = .user) := by
  cases he.threadStep (i := i) with
  | same hs => exact Or.inl (hs.trans hi)
  | terminated _ _ _ hs hu' => exact Or.inr ⟨hs, hu'⟩
  | joined _ hs hu' => exact Or.inr ⟨hs, hu'⟩
  | exited _ _ _ _ hs => exact Or.inl hs
  | created hempty => rw [hi] at hempty; exact absurd hempty (by simp)
  | woke hbefore => rw [hi] at hbefore; exact absurd hbefore (by simp)
  | signalled _ _ _ hbefore => rw [hi] at hbefore; exact absurd hbefore (by simp)
  | popped _ _ _ _ _ hbefore => rw [hi] at hbefore; exact absurd hbefore (by simp)
  | inherited _ _ _ _ _ hbefore => rw [hi] at hbefore; exact absurd hbefore (by simp)
  | left _ hbefore => rw [hi] at hbefore; exact absurd hbefore (by simp)
  | chosen _ hrun => exact absurd hrun (not_runnable_of_finished hi)
  | slept hu hc => exact absurd hc (hcur hu)
  | futexBlocked hu hc => exact absurd hc (hcur hu)
  | lockBlocked hu hc => exact absurd hc (hcur hu)

end Step

/-! ## Exiting threads are finished -/

/-- The thread that left its entry function is Finished while its slot is live. -/
def ExitsFinished (m : Machine) : Prop :=
  ∀ i t, Live m.sched i → m.frame i = some (.exited t) → (m.sched.threads i).state = .finished

theorem exitsFinished_boot (heap : { h : KernelHeap // h.InBlock }) :
    ExitsFinished (Machine.boot heap) := by
  intro i t _ hr
  exact absurd (boot_frame hr) (by simp)

theorem ExitsFinished.next {m m' : Machine} {a : Action} (h : ExitsFinished m) (he : Effect m a m') :
    ExitsFinished m' := by
  intro i t hlive hr
  have hkeep : Kept m a m' i → (m'.sched.threads i).state = .finished := by
    intro hk
    rcases hk.frame _ hr with hr' | hent
    · have hfin := h i t (hk.live hlive) hr'
      have hcur : m.control = .user → m.sched.currentThread ≠ some i := by
        intro hu hc
        rw [frame_current hc, hu] at hr'; exact absurd hr' (by simp [Control.rest])
      rcases he.finished_stays hfin hcur with hfin' | ⟨hempty, hu⟩
      · exact hfin'
      · -- an emptied slot is live only as the running one, which is then outside the scheduler
        rcases hlive with hne | hc
        · exact absurd hempty hne
        · rw [frame_current hc, hu] at hr; exact absurd hr (by simp [Control.rest])
    · exact hent.exits t rfl
  rcases he.slots with ⟨-, hkept⟩ | ⟨j, hj, hkept⟩
  · exact hkeep (hkept i)
  · by_cases hij : i = j
    · subst hij; exact absurd (Wf.created_frame hj hr) (by simp)
    · exact hkeep (hkept i hij)

/-! ## A thread that left stays away -/

/-- Thread `t` has left the processor for good: its slot is Finished, or holds another thread, or none. -/
structure Gone (t : UInt64) (m : Machine) : Prop where
  old     : t < m.sched.nextThreadId
  away    : ∀ i, Live m.sched i → (m.sched.threads i).id = t →
    (m.sched.threads i).state = .finished ∧ m.sched.currentThread ≠ some i
  silent  : .panicked t ∉ m.log

theorem Gone.not_resuming {t : UInt64} {m : Machine} (hw : Wf m) (h : Gone t m) :
    m.control ≠ .resuming (.exited t) := by
  intro hc
  obtain ⟨c, hcur⟩ := hw.current
  have hid := hw.callers c (.exited t) t (Or.inr hcur) (by rw [frame_current hcur, hc]; rfl) rfl
  exact (h.away c (Or.inr hcur) hid.symm).2 hcur

theorem Gone.next {t : UInt64} {m m' : Machine} {a : Action} (hw : Wf m) (h : Gone t m)
    (he : Effect m a m') : Gone t m' := by
  have haway : ∀ i, Kept m a m' i → Live m'.sched i → (m'.sched.threads i).id = t →
      (m'.sched.threads i).state = .finished ∧ m'.sched.currentThread ≠ some i := by
    intro i hk hlive hid
    obtain ⟨hfin, hcur⟩ := h.away i (hk.live hlive) (hk.id.symm.trans hid)
    have hcur' : m'.sched.currentThread ≠ some i := by
      rcases he.current_cases with hc | ⟨n, rest, -, -, hc, hn⟩
      · rwa [hc]
      · rw [hc]; rintro ⟨⟩; exact not_runnable_of_finished hfin hn
    refine ⟨?_, hcur'⟩
    rcases he.finished_stays hfin (fun _ => hcur) with hfin' | ⟨hempty, -⟩
    · exact hfin'
    · exact absurd hempty (hlive.resolve_right hcur')
  rcases he.slots with ⟨hn, hkept⟩ | ⟨j, hj, hkept⟩
  · refine ⟨hn.next ▸ h.old, fun i => haway i (hkept i), ?_⟩
    rcases hn.log with hl | ⟨u, c, res, hl⟩ | ⟨u, hc, -, hl⟩
    · rw [hl]; exact h.silent
    · rw [hl]; simpa using h.silent
    · rw [hl, List.mem_cons, not_or]
      refine ⟨?_, h.silent⟩
      rintro ⟨⟩; exact h.not_resuming hw hc
  · refine ⟨hj.next ▸ hw.lt_nextThreadId_succ h.old, fun i hlive hid => ?_, ?_⟩
    · by_cases hij : i = j
      · subst hij
        -- the new thread has a new id
        rw [hj.id] at hid
        exact absurd h.old (by simp [hid])
      · exact haway i (hkept i hij) hlive hid
    · obtain ⟨u, c, res, hl⟩ := hj.log
      rw [hl]; simpa using h.silent

/-! ## The call of `Yield` after the entry function returned -/

/-- Thread `t` has left its entry function and is about to call `Yield`; another thread can run. -/
structure Leaving (t : UInt64) (m : Machine) : Prop where
  control : m.control = .yielding (.exited t)
  other   : ∃ j, m.sched.currentThread ≠ some j ∧ Runnable m.sched j
  exits   : ExitsFinished m
  silent  : .panicked t ∉ m.log

/-- A finished thread gives way to every runnable thread. -/
theorem switchesAway_of_finished {s : State} {c j : Fin kMaxThreads} (hc : s.currentThread = some c)
    (hfin : (s.threads c).state = .finished) (hj : s.currentThread ≠ some j) (hrun : Runnable s j) :
    SwitchesAway s :=
  ⟨c, j, hc, fun h => hj (h ▸ hc), hrun, fun h => absurd h (not_runnable_of_finished hfin)⟩

/-- A runnable thread is still runnable after a timer interrupt. -/
theorem runnable_tick {s : State} {j : Fin kMaxThreads} (h : Runnable s j) :
    Runnable (kernelSchedulerTimerTick s) j := by
  left
  simp only [kernelSchedulerTimerTick, State.wakeSleepers_threads]
  exact wake_state_eq_ready.mpr h

theorem Leaving.next {t : UInt64} {m : Machine} (hw : Wf m) (h : Leaving t m) (a : Action) :
    Leaving t (m.step a) ∨ Gone t (m.step a) := by
  obtain ⟨hctl, ⟨j, hj, hrun⟩, hexits, hsilent⟩ := h
  obtain ⟨c, hcur⟩ := hw.current
  have hframe : m.frame c = some (.exited t) := by rw [frame_current hcur, hctl]; rfl
  have hfin := hexits c t (Or.inr hcur) hframe
  have hid := hw.callers c _ t (Or.inr hcur) hframe rfl
  cases a with
  | tick =>
      left
      rw [step_tick (by simp [hctl])]
      refine ⟨hctl, ⟨j, hj, runnable_tick hrun⟩, ?_, hsilent⟩
      exact hexits.next .tick
  | call c => left; simpa [Machine.step, hctl] using ⟨hctl, ⟨j, hj, hrun⟩, hexits, hsilent⟩
  | exit => left; simpa [Machine.step, hctl] using ⟨hctl, ⟨j, hj, hrun⟩, hexits, hsilent⟩
  | run =>
      right
      obtain ⟨n, hne, hrunn, hstep⟩ :=
        step_run_switches hctl hcur (switchesAway_of_finished hcur hfin hj hrun)
      have hcur' := (yieldSwitch_others (yielded m.sched) c n (.exited t)).1
      have hw' := hw.step .run
      rw [hstep] at hw' ⊢
      refine ⟨?_, fun i hlive hidi => ?_, hsilent⟩
      · show t < (yieldSwitch (yielded m.sched) c n (.exited t)).nextThreadId
        obtain ⟨-, -, -, -, hn, -⟩ := yieldSwitch_others (yielded m.sched) c n (.exited t)
        rw [hn, yielded_nextThreadId, hid]
        exact (hw.ids c (Or.inr hcur)).2
      · -- the slot with id `t` is the one the thread left
        have hidc : ((yieldSwitch (yielded m.sched) c n (.exited t)).threads c).id = t := by
          rw [switched_id hcur hne, ← hid]
        have hstate : ((yieldSwitch (yielded m.sched) c n (.exited t)).threads c).state = .finished := by
          rw [switched_state hcur hne, switchedState, if_neg (Ne.symm hne), if_neg, hfin]
          rintro (h | ⟨-, h⟩)
          · exact not_runnable_of_finished hfin h
          · rw [hfin] at h; exact absurd h (by simp)
        obtain rfl : i = c := hw'.distinct i c hlive (Or.inl (by
          show ((yieldSwitch (yielded m.sched) c n (.exited t)).threads c).state ≠ _
          simp [hstate])) (hidi.trans hidc.symm)
        exact ⟨hstate, by show (yieldSwitch _ _ _ _).currentThread ≠ _; rw [hcur']; simpa using hne⟩

/-- Nobody has panicked while the system runs. -/
def PanicHalts (m : Machine) : Prop :=
  ∀ t, .panicked t ∈ m.log → ∃ reason, m.control = .halted reason

theorem step_halted {m : Machine} {reason : String} (h : m.control = .halted reason) (a : Action) :
    m.step a = m := by
  simp [Machine.step, h]

theorem PanicHalts.step {m : Machine} (hw : Wf m) (h : PanicHalts m) (a : Action) :
    PanicHalts (m.step a) := by
  intro t ht
  have hold : .panicked t ∈ m.log → ∃ reason, (m.step a).control = .halted reason := by
    intro hmem
    obtain ⟨reason, hr⟩ := h t hmem
    exact ⟨reason, by rw [step_halted hr, hr]⟩
  rcases (hw.effect a).slots with ⟨hn, -⟩ | ⟨j, hj, -⟩
  · rcases hn.log with hl | ⟨u, c, res, hl⟩ | ⟨u, -, hc, -⟩
    · rw [hl] at ht; exact hold ht
    · rw [hl] at ht; exact hold (by simpa using ht)
    · exact ⟨_, hc⟩
  · obtain ⟨u, c, res, hl⟩ := hj.log
    rw [hl] at ht; exact hold (by simpa using ht)

theorem exit_invariants (heap : { h : KernelHeap // h.InBlock }) (as : List Action) :
    ExitsFinished (reached heap as) ∧ PanicHalts (reached heap as) := by
  have hall : Wf (reached heap as) ∧ ExitsFinished (reached heap as) ∧ PanicHalts (reached heap as) :=
    Lib.run_invariant (I := fun m => Wf m ∧ ExitsFinished m ∧ PanicHalts m)
      (fun m a h => ⟨h.1.step a, h.2.1.next (h.1.effect a), h.2.2.step h.1 a⟩)
      ⟨wf_boot heap, exitsFinished_boot heap, fun t ht => absurd ht (by simp [Machine.boot])⟩ as
  exact hall.2

/-- Another thread than the current one is neither Empty nor Finished. -/
def OthersLeft (s : State) : Prop :=
  ∃ j, s.currentThread ≠ some j ∧ (s.threads j).state ≠ .empty ∧ (s.threads j).state ≠ .finished

/-- The `Yield` of the finished thread `t` returns to it in no continuation of the run. -/
def NeverBack (t : UInt64) (m : Machine) : Prop :=
  ∀ bs, (Lib.run Machine.step m bs).control ≠ .resuming (.exited t) ∧
    .panicked t ∉ (Lib.run Machine.step m bs).log

theorem neverBack_of_runnable {t : UInt64} {m : Machine} (hw : Wf m) (h : Leaving t m) :
    NeverBack t m := by
  intro bs
  have hinv : Wf (Lib.run Machine.step m bs) ∧
      (Leaving t (Lib.run Machine.step m bs) ∨ Gone t (Lib.run Machine.step m bs)) :=
    Lib.run_invariant (I := fun m => Wf m ∧ (Leaving t m ∨ Gone t m))
      (fun m a h => ⟨h.1.step a, h.2.elim (fun hl => hl.next h.1 a)
        (fun hg => Or.inr (hg.next h.1 (h.1.effect a)))⟩) ⟨hw, Or.inl h⟩ bs
  rcases hinv.2 with hl | hg
  · exact ⟨by rw [hl.control]; simp, hl.silent⟩
  · exact ⟨hg.not_resuming hinv.1, hg.silent⟩

/-- **When a finished thread stays away.** At every call of `Yield` after an entry function returned: that
    the call never comes back as long as another thread is left holds exactly when one of them, if any
    is left, is Ready or due to wake up. -/
theorem finished_stays_away_iff (heap : { h : KernelHeap // h.InBlock }) (as : List Action) (t : UInt64)
    (hexit : (reached heap as).control = .yielding (.exited t)) :
    (OthersLeft (reached heap as).sched → NeverBack t (reached heap as)) ↔
      (OthersLeft (reached heap as).sched → ∃ j, (reached heap as).sched.currentThread ≠ some j ∧
        Runnable (reached heap as).sched j) := by
  have hw := wf_reached heap as
  obtain ⟨hexits, hpanic⟩ := exit_invariants heap as
  obtain ⟨c, hcur⟩ := hw.current
  constructor
  · intro h hleft
    by_contra hnone
    have hstay : ¬ SwitchesAway (reached heap as).sched := by
      rintro ⟨c', j, hc', hne, hrun, -⟩
      exact hnone ⟨j, by rw [hc']; simpa using hne.symm, hrun⟩
    -- `Yield` returns at once
    have hback := (h hleft [.run]).1
    rw [Lib.run_cons, step_run_stays hexit hcur hstay] at hback
    exact hback rfl
  · intro h hleft
    refine neverBack_of_runnable hw ⟨hexit, h hleft, hexits, fun hmem => ?_⟩
    obtain ⟨reason, hr⟩ := hpanic t hmem
    rw [hexit] at hr; exact absurd hr (by simp)

/-- Thread 1 gives way to thread 2, whose entry function returns. -/
def exitRun : List Action :=
  [.call (.createThread 1 none 5 0), .call .schedulerYield, .run, .run, .exit]

/-- With thread 1 Ready, thread 2 never comes back. -/
theorem finished_stays_away_exitRun : NeverBack 2 (reached heapAt2MiB exitRun) :=
  (finished_stays_away_iff heapAt2MiB exitRun 2 (by decide +kernel)).mpr
    (fun _ => ⟨0, by decide +kernel, Or.inl (by decide +kernel)⟩)
    ⟨0, by decide +kernel, by decide +kernel, by decide +kernel⟩

/-- Thread 1 sleeps while the entry function of thread 2 returns. -/
def sleeperRun : List Action :=
  [.call (.createThread 1 none 5 0), .call (.threadSleep 100), .run, .run, .exit]

/-- With thread 1 asleep, the `Yield` of the finished thread 2 returns and the kernel panics. -/
theorem finished_thread_resumes :
    (reached heapAt2MiB sleeperRun).control = .yielding (.exited 2) ∧
    OthersLeft (reached heapAt2MiB sleeperRun).sched ∧
    ¬ NeverBack 2 (reached heapAt2MiB sleeperRun) := by
  refine ⟨by decide +kernel, ⟨0, by decide +kernel, by decide +kernel, by decide +kernel⟩, ?_⟩
  intro h
  exact (h [.run, .run]).2 (by decide +kernel)

end Scheduler
end UefiBoot
