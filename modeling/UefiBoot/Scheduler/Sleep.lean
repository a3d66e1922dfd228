import UefiBoot.Scheduler.Mutex

/-!
# `Scheduler.Sleep` — how long `KernelThreadSleep` sleeps

A call of `KernelThreadSleep` marks its thread Sleeping until a tick and gives the processor away. A timer tick or a
`Yield` of any thread makes it Ready when that tick has come, a signal does it before. There is a third way: when the
`Yield` of the call itself finds no other thread to run, it makes the caller Ready and returns at once, whatever the
wake-up tick is (`sleep_alone_returns`).

`elapsed` counts the increments of the scheduler's tick along a run. `sleep_returns_late` says that a sleep whose own
`Yield` switches to another thread, and which no signal ends, returns after as many of them as it was asked for: the
invariant is that the thread is `Asleep` in its slot, or the ticks have passed, or the thread is gone.
-/

namespace UefiBoot
namespace Scheduler

/-! ## Ticks -/

/-- How often the scheduler's tick is counted up along a run. -/
def elapsed (m : Machine) : List Action → Nat
  | []      => 0
  | a :: as =>
    (if (m.step a).sched.schedulerTick = m.sched.schedulerTick then 0 else 1) + elapsed (m.step a) as

section Step

variable {m m' : Machine} {a : Action} {c : Fin kMaxThreads}

/-- A step leaves the tick alone or counts it up by one. -/
theorem Effect.tick_cases (he : Effect m a m') :
    m'.sched.schedulerTick = m.sched.schedulerTick ∨ m'.sched.schedulerTick = m.sched.schedulerTick + 1 := by
  cases he with
  | tick => exact Or.inr rfl
  | yieldReturned hy hcur hstay =>
    right
    show (yieldReturn (yielded m.sched)).schedulerTick = _
    rw [(yieldReturn_others (yielded m.sched)).2.2.2.2.2.2.2, yielded_tick]
  | @yieldSwitched rest c n hy hcur haway hne hrun =>
    right
    show (yieldSwitch (yielded m.sched) c n rest).schedulerTick = _
    rw [(yieldSwitch_others (yielded m.sched) c n rest).2.2.2.2.2.2.2, yielded_tick]
  | _ => exact Or.inl rfl

/-- **What can happen to a sleeper** that is not running: it sleeps on, its process is ended, its time has come, its
    own `Yield` found no other thread, or it gets a signal. -/
theorem Effect.sleeper (he : Effect m a m') (hs : (m.sched.threads c).state = .sleeping)
    (haway : m.control = .user → m.sched.currentThread ≠ some c) :
    ((m'.sched.threads c).state = .sleeping ∧ (m'.sched.threads c).wakeTick = (m.sched.threads c).wakeTick) ∨
    ((m'.sched.threads c).state = .empty ∧ m.control = .user) ∨
    (m'.sched.schedulerTick = m.sched.schedulerTick + 1 ∧
      (m.sched.threads c).wakeTick ≤ m.sched.schedulerTick + 1) ∨
    (∃ rest, m.control = .yielding rest ∧ a = .run ∧ m.sched.currentThread = some c ∧ ¬ SwitchesAway m.sched) ∨
    ∃ signal, signal < 32 ∧ m.control = .user ∧ a = .call (.sendSignal (m.sched.threads c).id signal) := by
  have hne : ∀ {j : Fin kMaxThreads}, (m.sched.threads j).state ≠ .sleeping → c ≠ j := by
    intro j hj h
    exact hj (h ▸ hs)
  -- a write to another slot leaves the sleeper as it was
  have hother : ∀ {s : State} {j : Fin kMaxThreads} {t : Thread}, m'.sched.threads = Function.update s.threads j t →
      s.threads = m.sched.threads → c ≠ j →
      (m'.sched.threads c).state = .sleeping ∧ (m'.sched.threads c).wakeTick = (m.sched.threads c).wakeTick := by
    intro s j t hthreads hsame hcj
    rw [hthreads, Function.update_of_ne hcj, hsame]
    exact ⟨hs, rfl⟩
  have hdue : Runnable m.sched c → (m.sched.threads c).wakeTick ≤ m.sched.schedulerTick + 1 := by
    rintro (hready | ⟨-, hwake⟩)
    · rw [hs] at hready
      exact absurd hready (by decide)
    · exact hwake
  cases he with
  | tick =>
    by_cases hwake : (m.sched.threads c).wakeTick ≤ m.sched.schedulerTick + 1
    · exact Or.inr (Or.inr (Or.inl ⟨rfl, hwake⟩))
    · left
      have hsame : (kernelSchedulerTimerTick m.sched).threads c = m.sched.threads c := if_neg fun h => hwake h.2
      dsimp only
      rw [hsame]
      exact ⟨hs, rfl⟩
  | @created _ _ i _ _ _ _ _ _ _ _ _ _ hu hc hempty =>
    exact Or.inl (hother (s := m.sched) (j := i) rfl rfl (hne (by rw [hempty]; decide)))
  | @terminated pid code k p hu hterm =>
    by_cases hp : (m.sched.threads c).processId = pid
    · refine Or.inr (Or.inl ⟨?_, hu⟩)
      show (m.sched.survivors pid c).state = _
      rw [survivors_state, if_pos hp]
    · left
      have hsame : m.sched.survivors pid c = m.sched.threads c := if_neg fun h => hp h.2
      show (m.sched.survivors pid c).state = _ ∧ (m.sched.survivors pid c).wakeTick = _
      rw [hsame]
      exact ⟨hs, rfl⟩
  | joined ht hfin => exact Or.inl (hother (s := m.sched) rfl rfl (hne (by rw [hfin]; decide)))
  | @prioritized id priority j hu hfind =>
    by_cases hcj : c = j
    · subst hcj
      left
      rw [Machine.returns_sched, State.setThread_threads, Function.update_self]
      exact ⟨hs, rfl⟩
    · exact Or.inl (hother (s := m.sched) rfl rfl hcj)
  | @signalled id signal j hu hsignal hfind =>
    by_cases hcj : c = j
    · subst hcj
      right; right; right; right
      exact ⟨signal, hsignal, hu, by rw [(State.findThread_some hfind).2]⟩
    · exact Or.inl (hother (s := m.sched) rfl rfl hcj)
  | slept hu hcur hticks =>
    exact Or.inl (hother (s := m.sched) rfl rfl fun h => haway hu (h ▸ hcur))
  | futexBlocked hu hcur haddr hslot =>
    exact Or.inl (hother (s := m.sched) rfl rfl fun h => haway hu (h ▸ hcur))
  | @futexWoken address count k j popped rest hu haddr hfind hsplit =>
    left
    show (m.sched.wokenThreads popped c).state = _ ∧ (m.sched.wokenThreads popped c).wakeTick = _
    rw [wokenThreads_state, if_neg (by rw [hs]; simp), wokenThreads_wakeTick]
    exact ⟨hs, rfl⟩
  | lockBlocked hu hcur hi hlocked hother' =>
    exact Or.inl (hother (s := m.sched) rfl rfl fun h => haway hu (h ▸ hcur))
  | @unlockPassed id i d j hu hcur hi howner hnext =>
    have hok := Lib.pickBest_ok hnext
    simp only [Bool.and_eq_true, beq_iff_eq] at hok
    exact Or.inl (hother (s := m.sched) rfl rfl (hne (by rw [hok.1]; decide)))
  | exited hu hcur hc =>
    exact Or.inl (hother (s := m.sched) rfl rfl fun h => haway hu (h ▸ hcur))
  | @yieldReturned rest d hy hcur hstay =>
    by_cases hcd : m.sched.currentThread = some c
    · exact Or.inr (Or.inr (Or.inr (Or.inl ⟨rest, hy, rfl, hcd, hstay⟩)))
    · by_cases hrun : Runnable m.sched c
      · refine Or.inr (Or.inr (Or.inl ⟨?_, hdue hrun⟩))
        show (yieldReturn (yielded m.sched)).schedulerTick = _
        rw [(yieldReturn_others (yielded m.sched)).2.2.2.2.2.2.2, yielded_tick]
      · left
        have hdc : c ≠ d := fun h => hcd (h ▸ hcur)
        show ((yieldReturn (yielded m.sched)).threads c).state = _ ∧
          ((yieldReturn (yielded m.sched)).threads c).wakeTick = _
        rw [stayed_threads hcur, if_neg fun h => hdc h.1, yielded_state hcur, yielded_wakeTick hcur,
          if_neg fun h => hrun (Or.inr h), if_neg fun h => hrun (Or.inr h)]
        exact ⟨hs, rfl⟩
  | @yieldSwitched rest d n hy hcur hsw hnd hrunn =>
    by_cases hrun : Runnable m.sched c
    · refine Or.inr (Or.inr (Or.inl ⟨?_, hdue hrun⟩))
      show (yieldSwitch (yielded m.sched) d n rest).schedulerTick = _
      rw [(yieldSwitch_others (yielded m.sched) d n rest).2.2.2.2.2.2.2, yielded_tick]
    · left
      have hcn : c ≠ n := fun h => hrun (h ▸ hrunn)
      have hnot : ¬ ((m.sched.threads c).state = .sleeping ∧
          (m.sched.threads c).wakeTick ≤ m.sched.schedulerTick + 1) := fun h => hrun (Or.inr h)
      have hstate : ((yielded m.sched).threads c).state = .sleeping := by
        rw [yielded_state hcur, if_neg hnot, hs]
      have hwake : ((yielded m.sched).threads c).wakeTick = (m.sched.threads c).wakeTick := by
        rw [yielded_wakeTick hcur, if_neg hnot]
      show ((yieldSwitch (yielded m.sched) d n rest).threads c).state = _ ∧
        ((yieldSwitch (yielded m.sched) d n rest).threads c).wakeTick = _
      rw [yieldSwitch_threads hnd]
      by_cases hcd : c = d
      · subst hcd
        rw [if_pos rfl]
        dsimp only
        rw [hstate, if_neg (by decide)]
        exact ⟨rfl, hwake⟩
      · rw [if_neg hcd, if_neg hcn]
        exact ⟨hstate, hwake⟩
  | @started d hr hcur =>
    by_cases hcd : c = d
    · subst hcd
      left
      dsimp only
      rw [deliverSignals_threads, State.setThread_threads, Function.update_self, deliver_state, deliver_wakeTick]
      exact ⟨hs, rfl⟩
    · left
      dsimp only
      rw [deliverSignals_threads, State.setThread_threads, Function.update_of_ne hcd]
      exact ⟨hs, rfl⟩
  | _ => exact Or.inl ⟨hs, rfl⟩

/-- How often a call of a thread has returned with a result. -/
def Machine.returnCount (m : Machine) (thread : UInt64) (call : Call) (result : Result) : Nat :=
  m.log.count (.returned thread call result)

/-- A step logs a return of the running thread only, and none inside a `Yield`. -/
theorem Effect.returnCount_eq (he : Effect m a m') {thread : UInt64} (call : Call) (result : Result)
    (hother : thread ≠ m.sched.currentId ∨ ∃ rest, m.control = .yielding rest) :
    m'.returnCount thread call result = m.returnCount thread call result := by
  have hreturns : ∀ {c : Call} {res : Result} {s : State}, (∀ rest, m.control ≠ .yielding rest) →
      (m.returns c res s).returnCount thread call result = m.returnCount thread call result := by
    intro c res s hout
    have hthread : thread ≠ m.sched.currentId := by
      rcases hother with h | ⟨rest, hrest⟩
      · exact h
      · exact absurd hrest (hout rest)
    have hcreation : (Machine.creation m.sched s).count (.returned thread call result) = 0 := by
      unfold Machine.creation
      split
      · rfl
      · exact List.count_eq_zero.mpr (by simp)
    unfold Machine.returnCount
    rw [Machine.returns_log, List.count_cons_of_ne, List.count_append, hcreation, Nat.zero_add]
    intro heq
    injection heq with hid
    exact hthread hid.symm
  have huser : m.control = .user → ∀ rest, m.control ≠ .yielding rest := by
    intro hu rest hrest
    rw [hu] at hrest
    exact absurd hrest (by simp)
  have hresuming : ∀ {r : Continuation}, m.control = .resuming r → ∀ rest, m.control ≠ .yielding rest := by
    intro r hr rest hrest
    rw [hr] at hrest
    exact absurd hrest (by simp)
  cases he with
  | quiet hu hc => exact hreturns (huser hu)
  | created hu hc hempty => exact hreturns (huser hu)
  | terminated hu hterm => exact hreturns (huser hu)
  | joined ht hfin =>
    rcases ht with ⟨-, hu, -⟩ | ⟨-, hr⟩
    · exact hreturns (huser hu)
    · exact hreturns (hresuming hr)
  | prioritized hu hfind => exact hreturns (huser hu)
  | signalled hu hsignal hfind => exact hreturns (huser hu)
  | futexWoken hu haddr hfind hsplit => exact hreturns (huser hu)
  | mutexCreated hu hi => exact hreturns (huser hu)
  | lockTaken hu hcur hi hfree => exact hreturns (huser hu)
  | lockHeld hu hcur hi hlocked howner => exact hreturns (huser hu)
  | unlockPassed hu hcur hi howner hnext => exact hreturns (huser hu)
  | unlockFreed hu hcur hi howner hnext => exact hreturns (huser hu)
  | resumed hr hplain => exact hreturns (hresuming hr)
  | lockReturned hr => exact hreturns (hresuming hr)
  | panicked hr => exact List.count_cons_of_ne (by simp)
  | _ => rfl

/-- Inside a `Yield` of the running thread: it is still about to begin, it returned at once, or another thread runs. -/
theorem Effect.in_yield (he : Effect m a m') {rest : Continuation} (hy : m.control = .yielding rest) :
    m'.control = .yielding rest ∨ (a = .run ∧ ¬ SwitchesAway m.sched) ∨
      ∃ n, m.sched.currentThread ≠ some n ∧ m'.sched.currentThread = some n := by
  have huser : m.control ≠ .user := by rw [hy]; simp
  have hresuming : ∀ r, m.control ≠ .resuming r := by rw [hy]; simp
  cases he with
  | stutter => exact Or.inl hy
  | tick => exact Or.inl hy
  | yieldReturned hy' hcur hstay => exact Or.inr (Or.inl ⟨rfl, hstay⟩)
  | @yieldSwitched rest' d n hy' hcur haway hne hrun =>
    refine Or.inr (Or.inr ⟨n, ?_, (yieldSwitch_others (yielded m.sched) d n rest').1⟩)
    rw [hcur]
    exact fun h => hne (Option.some.inj h).symm
  | joined ht hfin =>
    rcases ht with ⟨-, hu, -⟩ | ⟨-, hr⟩
    · exact absurd hu huser
    · exact absurd hr (hresuming _)
  | joinWaits ht hnot =>
    rcases ht with ⟨-, hu, -⟩ | ⟨-, hr⟩
    · exact absurd hu huser
    · exact absurd hr (hresuming _)
  | started hr hcur => exact absurd hr (hresuming _)
  | badStart hr => exact absurd hr (hresuming _)
  | resumed hr hplain => exact absurd hr (hresuming _)
  | lockReturned hr => exact absurd hr (hresuming _)
  | panicked hr => exact absurd hr (hresuming _)
  | quiet hu => exact absurd hu huser
  | created hu => exact absurd hu huser
  | terminated hu => exact absurd hu huser
  | prioritized hu => exact absurd hu huser
  | signalled hu => exact absurd hu huser
  | slept hu => exact absurd hu huser
  | futexBlocked hu => exact absurd hu huser
  | futexWoken hu => exact absurd hu huser
  | mutexCreated hu => exact absurd hu huser
  | lockTaken hu => exact absurd hu huser
  | lockHeld hu => exact absurd hu huser
  | lockBlocked hu => exact absurd hu huser
  | unlockPassed hu => exact absurd hu huser
  | unlockFreed hu => exact absurd hu huser
  | yieldCalled hu => exact absurd hu huser
  | exited hu => exact absurd hu huser

/-- A thread that starts to run is Running. -/
theorem Effect.chosen_running (he : Effect m a m') (hcur' : m'.sched.currentThread = some c)
    (hcur : m.sched.currentThread ≠ some c) : (m'.sched.threads c).state = .running := by
  cases he with
  | @yieldSwitched rest d n hy hd haway hne hrun =>
    have hn := (yieldSwitch_others (yielded m.sched) d n rest).1
    obtain rfl : n = c := Option.some.inj (hn.symm.trans hcur')
    show ((yieldSwitch (yielded m.sched) d n rest).threads n).state = _
    rw [yieldSwitch_threads hne, if_neg hne, if_pos rfl, deliver_state]
  | yieldReturned hy hd hstay =>
    have hsame : (yieldReturn (yielded m.sched)).currentThread = m.sched.currentThread := by
      rw [(yieldReturn_others (yielded m.sched)).1, yielded_currentThread]
    exact absurd (hsame.symm.trans hcur') hcur
  | _ => exact absurd hcur' hcur

end Step

/-! ## The sleep -/

/-- The action sends the thread a signal. -/
def Action.signals (a : Action) (thread : UInt64) : Bool :=
  match a with
  | .call (.sendSignal id signal) => id == thread && signal < 32
  | _                             => false

/-- Nobody sends the caller a signal, and the `Yield` of its sleep finds another thread to run. -/
def Undisturbed (caller ticks : UInt64) (m : Machine) (a : Action) : Prop :=
  (m.control = .user → a.signals caller = false) ∧
    (m.control = .yielding (.threadSleep caller ticks) → a = .run → SwitchesAway m.sched)

/-- The caller sleeps in slot `c` since tick `start`; `e` ticks have passed, and its `Yield` is about to begin or another
    thread runs. -/
structure Asleep (caller ticks : UInt64) (start : Nat) (c : Fin kMaxThreads) (e : Nat) (m : Machine) : Prop where
  id    : (m.sched.threads c).id = caller
  state : (m.sched.threads c).state = .sleeping
  wake  : (m.sched.threads c).wakeTick.toNat = start + ticks.toNat
  tick  : m.sched.schedulerTick.toNat = start + e
  early : e < ticks.toNat
  place : m.control = .yielding (.threadSleep caller ticks) ∨ m.sched.currentThread ≠ some c

/-- No slot holds the thread any more. -/
structure Left (caller : UInt64) (m : Machine) : Prop where
  old  : caller < m.sched.nextThreadId
  away : ∀ i, Live m.sched i → (m.sched.threads i).id ≠ caller

/-- **The invariant of a sleep**: the call has not returned, and the caller is asleep or gone; or its time has come. -/
def SleepsOn (caller ticks : UInt64) (start count e : Nat) (m : Machine) : Prop :=
  (m.returnCount caller (.threadSleep ticks) .unit = count ∧
    ((∃ c, Asleep caller ticks start c e m) ∨ Left caller m)) ∨ ticks.toNat ≤ e

section Sleep

variable {m m' : Machine} {a : Action} {c : Fin kMaxThreads} {caller ticks : UInt64} {start count e : Nat}

/-- A thread that has left stays away: ids are not handed out twice. -/
theorem Left.next (h : Left caller m) (hw : Wf m) (he : Effect m a m') : Left caller m' := by
  rcases he.slots with ⟨hnone, hkept⟩ | ⟨j, hj, hkept⟩
  · refine ⟨hnone.next ▸ h.old, fun i hlive hid => ?_⟩
    exact h.away i ((hkept i).live hlive) ((hkept i).id.symm.trans hid)
  · refine ⟨hj.next ▸ hw.lt_nextThreadId_succ h.old, fun i hlive hid => ?_⟩
    by_cases hij : i = j
    · -- the new thread has a new id
      subst hij
      rw [hj.id] at hid
      exact absurd h.old (by simp [hid])
    · exact h.away i ((hkept i hij).live hlive) ((hkept i hij).id.symm.trans hid)

/-- The slot of the caller is emptied by another thread. -/
theorem Asleep.left (h : Asleep caller ticks start c e m) (hw : Wf m) (he : Effect m a m')
    (hempty : (m'.sched.threads c).state = .empty) (hu : m.control = .user) : Left caller m' := by
  have hlive : Live m.sched c := Or.inl (by rw [h.state]; decide)
  have hcur : m.sched.currentThread ≠ some c := by
    rcases h.place with hy | hcur
    · rw [hu] at hy
      exact absurd hy (by simp)
    · exact hcur
  have hcur' : m'.sched.currentThread ≠ some c := by
    rcases he.current_cases with hsame | ⟨n, rest, -, hy, -, -⟩
    · rwa [hsame]
    · rw [hu] at hy
      exact absurd hy (by simp)
  have hold : caller < m.sched.nextThreadId := h.id ▸ (hw.ids c hlive).2
  have hkeeps : ∀ i, Kept m a m' i → Live m'.sched i → (m'.sched.threads i).id ≠ caller := by
    intro i hk hlive' hid
    have hic : i = c := hw.distinct i c (hk.live hlive') hlive ((hk.id.symm.trans hid).trans h.id.symm)
    subst hic
    exact hlive'.elim (fun hne => hne hempty) hcur'
  rcases he.slots with ⟨hnone, hkept⟩ | ⟨j, hj, hkept⟩
  · exact ⟨hnone.next ▸ hold, fun i => hkeeps i (hkept i)⟩
  · refine ⟨hj.next ▸ hw.lt_nextThreadId_succ hold, fun i hlive' hid => ?_⟩
    by_cases hij : i = j
    · subst hij
      rw [hj.id] at hid
      exact absurd hold (by simp [hid])
    · exact hkeeps i (hkept i hij) hlive' hid

/-- **Step lemma.** A step that does not disturb the sleep keeps its invariant, with its tick counted. -/
theorem SleepsOn.step (h : SleepsOn caller ticks start count e m) (hw : Wf m) (hfits : start + ticks.toNat < 2 ^ 64)
    (hun : Undisturbed caller ticks m a) :
    SleepsOn caller ticks start count
      (e + if (m.step a).sched.schedulerTick = m.sched.schedulerTick then 0 else 1) (m.step a) := by
  have he := hw.effect a
  obtain ⟨d, hcur⟩ := hw.current
  have hone : (1 : UInt64).toNat = 1 := rfl
  generalize m.step a = m' at he ⊢
  rcases h with ⟨hcount, ⟨c, hasleep⟩ | hleft⟩ | hdue
  · by_cases hnow : ticks.toNat ≤ e + if m'.sched.schedulerTick = m.sched.schedulerTick then 0 else 1
    · exact Or.inr hnow
    · have hearly := hasleep.early
      have htick := hasleep.tick
      have hlive : Live m.sched c := Or.inl (by rw [hasleep.state]; decide)
      have haway : m.control = .user → m.sched.currentThread ≠ some c := by
        intro hu
        rcases hasleep.place with hy | hcur
        · rw [hu] at hy
          exact absurd hy (by simp)
        · exact hcur
      -- the running thread is another one, or inside the `Yield` of the sleep
      have hsilent : caller ≠ m.sched.currentId ∨ ∃ rest, m.control = .yielding rest := by
        rcases hasleep.place with hy | hout
        · exact Or.inr ⟨_, hy⟩
        · left
          rw [currentId_eq hcur, ← hasleep.id]
          intro hid
          rw [hw.distinct c d hlive (Or.inr hcur) hid] at hout
          exact hout hcur
      have hcount' : m'.returnCount caller (.threadSleep ticks) .unit = count :=
        (he.returnCount_eq _ _ hsilent).trans hcount
      have hnext : (m.sched.schedulerTick + 1).toNat = start + e + 1 := by
        rw [UInt64.toNat_add, hone, htick]
        omega
      refine Or.inl ⟨hcount', ?_⟩
      rcases he.sleeper hasleep.state haway with ⟨hstate, hwake⟩ | ⟨hempty, hu⟩ | ⟨htick', hwake⟩ |
        ⟨rest, hy, hrun, hcc, hstay⟩ | ⟨signal, hsignal, hu, hcall⟩
      · refine Or.inl ⟨c, ?_, hstate, hwake ▸ hasleep.wake, ?_, by omega, ?_⟩
        · exact (he.id_stays (by rw [hasleep.state]; decide)).trans hasleep.id
        · rcases he.tick_cases with hsame | hup
          · rw [if_pos hsame, hsame, htick]
            rfl
          · have hne : m'.sched.schedulerTick ≠ m.sched.schedulerTick := by
              intro heq
              have hnat := congrArg UInt64.toNat (hup.symm.trans heq)
              omega
            rw [if_neg hne, hup, hnext]
            rfl
        · by_cases hcur' : m'.sched.currentThread = some c
          · -- a sleeper is not chosen, so it was the running thread before, and still is about to yield
            have hbefore : m.sched.currentThread = some c := by
              by_contra hout
              rw [he.chosen_running hcur' hout] at hstate
              exact absurd hstate (by decide)
            have hy := hasleep.place.resolve_right fun hout => hout hbefore
            rcases he.in_yield hy with hy' | ⟨hrun, hstay⟩ | ⟨n, hn, hn'⟩
            · exact Or.inl hy'
            · exact absurd (hun.2 hy hrun) hstay
            · rw [hn'] at hcur'
              exact absurd (hbefore.trans hcur'.symm) hn
          · exact Or.inr hcur'
      · exact Or.inr (hasleep.left hw he hempty hu)
      · -- its time has come
        exfalso
        have hnat := UInt64.le_iff_toNat_le.mp hwake
        have hne : m'.sched.schedulerTick ≠ m.sched.schedulerTick := by
          intro heq
          have hnat := congrArg UInt64.toNat (htick'.symm.trans heq)
          omega
        rw [if_neg hne] at hnow
        rw [hasleep.wake, hnext] at hnat
        omega
      · -- its own `Yield` found another thread
        exfalso
        rcases hasleep.place with hy' | hout
        · exact hstay (hun.2 hy' hrun)
        · exact hout hcc
      · -- a signal
        exfalso
        have hnone := hun.1 hu
        rw [hcall, hasleep.id] at hnone
        simp [Action.signals, hsignal] at hnone
  · have hsilent : caller ≠ m.sched.currentId := by
      rw [currentId_eq hcur]
      exact (hleft.away d (Or.inr hcur)).symm
    exact Or.inl ⟨(he.returnCount_eq _ _ (Or.inl hsilent)).trans hcount, Or.inr (hleft.next hw he)⟩
  · exact Or.inr (hdue.trans (Nat.le_add_right _ _))

/-- **Run lemma.** An undisturbed sleep keeps its invariant along the run. -/
theorem SleepsOn.run (h : SleepsOn caller ticks start count e m) (hw : Wf m) (hfits : start + ticks.toNat < 2 ^ 64)
    {as : List Action} (hun : Lib.Along Machine.step (Undisturbed caller ticks) m as) :
    SleepsOn caller ticks start count (e + elapsed m as) (Lib.run Machine.step m as) := by
  induction as generalizing m e with
  | nil => exact h
  | cons a as ih =>
    have hnext := ih (h.step hw hfits hun.1) (hw.step a) hun.2
    rw [Nat.add_assoc] at hnext
    exact hnext

/-- The tick after a run is the one before and the increments, modulo `2 ^ 64`. -/
theorem tick_run (hw : Wf m) (as : List Action) :
    (Lib.run Machine.step m as).sched.schedulerTick.toNat = (m.sched.schedulerTick.toNat + elapsed m as) % 2 ^ 64 := by
  induction as generalizing m with
  | nil => exact (Nat.mod_eq_of_lt m.sched.schedulerTick.toNat_lt).symm
  | cons a as ih =>
    have hone : (1 : UInt64).toNat = 1 := rfl
    rw [Lib.run_cons, ih (hw.step a)]
    show _ = (_ + ((if _ then 0 else 1) + _)) % 2 ^ 64
    by_cases hsame : (m.step a).sched.schedulerTick = m.sched.schedulerTick
    · rw [if_pos hsame, hsame, Nat.zero_add]
    · have hup := (hw.effect a).tick_cases.resolve_left hsame
      rw [if_neg hsame, hup, UInt64.toNat_add, hone]
      omega

/-- The call marks the running thread, which is inside its `Yield` then. -/
theorem step_threadSleep (hcur : m.sched.currentThread = some c) (hu : m.control = .user) (hpos : ticks ≠ 0) :
    m.step (.call (.threadSleep ticks)) = { m with
      sched := m.sched.setThread c { m.sched.threads c with
        wakeTick := m.sched.schedulerTick + ticks, state := .sleeping }
      control := .yielding (.threadSleep (m.sched.threads c).id ticks) } := by
  have hcall : m.step (.call (.threadSleep ticks)) = m.call (.threadSleep ticks) := by
    unfold Machine.step
    rw [hu]
  have hsleep : kernelThreadSleep m.sched ticks = (.yields (.threadSleep (m.sched.threads c).id ticks),
      m.sched.setThread c { m.sched.threads c with
        wakeTick := m.sched.schedulerTick + ticks, state := .sleeping }) := by
    unfold kernelThreadSleep
    rw [hcur]
    exact if_neg hpos
  rw [hcall]
  unfold Machine.call
  dsimp only
  rw [hsleep]
  rfl

end Sleep

/-- **A sleep lasts.** From any reachable state, `KernelThreadSleep(ticks)` does not return before `ticks` ticks were
    counted, whatever the threads and the timer do, when nobody sends its caller a signal, its own `Yield` switches to
    another thread, and the wake-up tick fits in 64 bits. -/
theorem sleep_returns_late (heap : { h : KernelHeap // h.InBlock }) (as : List Action) (ticks : UInt64)
    (hpos : ticks ≠ 0) (huser : (reached heap as).control = .user)
    (hfits : (reached heap as).sched.schedulerTick.toNat + ticks.toNat < 2 ^ 64) (later : List Action)
    (hun : Lib.Along Machine.step (Undisturbed (reached heap as).sched.currentId ticks)
      ((reached heap as).step (.call (.threadSleep ticks))) later) :
    let caller := (reached heap as).sched.currentId
    let asleep := (reached heap as).step (.call (.threadSleep ticks))
    let m := Lib.run Machine.step asleep later
    asleep.returnCount caller (.threadSleep ticks) .unit < m.returnCount caller (.threadSleep ticks) .unit →
      ticks.toNat ≤ elapsed asleep later ∧
      m.sched.schedulerTick.toNat
        = ((reached heap as).sched.schedulerTick.toNat + elapsed asleep later) % 2 ^ 64 := by
  intro caller asleep m hreturned
  have hw := wf_reached heap as
  have hw' : Wf asleep := hw.step _
  obtain ⟨c, hcur⟩ := hw.current
  have hcaller : caller = ((reached heap as).sched.threads c).id := currentId_eq hcur
  have hasleep : asleep = _ := step_threadSleep hcur huser hpos
  have hlt : 0 < ticks.toNat := Nat.pos_of_ne_zero fun hz => hpos (UInt64.toNat_inj.mp hz)
  have hstart : Asleep caller ticks (reached heap as).sched.schedulerTick.toNat c 0 asleep := by
    have hself : asleep.sched.threads c = { (reached heap as).sched.threads c with
        wakeTick := (reached heap as).sched.schedulerTick + ticks, state := .sleeping } := by
      rw [hasleep]
      exact Function.update_self ..
    refine ⟨?_, ?_, ?_, ?_, hlt, ?_⟩
    · rw [hself, hcaller]
    · rw [hself]
    · rw [hself]
      exact (UInt64.toNat_add ..).trans (Nat.mod_eq_of_lt hfits)
    · rw [hasleep]
      rfl
    · left
      rw [hasleep, hcaller]
  have hsleeps : SleepsOn caller ticks (reached heap as).sched.schedulerTick.toNat
      (asleep.returnCount caller (.threadSleep ticks) .unit) 0 asleep := Or.inl ⟨rfl, Or.inl ⟨c, hstart⟩⟩
  have htick := tick_run hw' later
  rw [hstart.tick] at htick
  refine ⟨?_, htick⟩
  rcases hsleeps.run hw' hfits hun with ⟨hcount, -⟩ | hdue
  · exact absurd hreturned (by rw [hcount]; exact Nat.lt_irrefl _)
  · rwa [Nat.zero_add] at hdue

/-- A worker next to the bootstrap thread. -/
def withWorker : List Action := [.call (.createThread 1 (some "worker") 1 0)]

/-- The bootstrap thread sleeps for two ticks: the worker starts, the timer ticks, and the worker yields. -/
def napped : List Action := [.run, .run, .tick, .call .schedulerYield, .run, .run]

/-- The sleep returns after three ticks. -/
theorem sleep_returns_late_nap :
    (2 : UInt64).toNat ≤ elapsed ((reached heapAt2MiB withWorker).step (.call (.threadSleep 2))) napped :=
  have hswitch : SwitchesAway ((reached heapAt2MiB withWorker).step (.call (.threadSleep 2))).sched :=
    ⟨0, 1, by decide +kernel, by decide, by decide +kernel, by decide +kernel⟩
  have hun : Lib.Along Machine.step (Undisturbed (reached heapAt2MiB withWorker).sched.currentId 2)
      ((reached heapAt2MiB withWorker).step (.call (.threadSleep 2))) napped :=
    ⟨⟨fun _ => rfl, fun _ _ => hswitch⟩, ⟨fun _ => rfl, fun h => absurd h (by decide +kernel)⟩,
      ⟨fun _ => rfl, fun h => absurd h (by decide +kernel)⟩, ⟨fun _ => rfl, fun h => absurd h (by decide +kernel)⟩,
      ⟨fun _ => rfl, fun h => absurd h (by decide +kernel)⟩, ⟨fun _ => rfl, fun h => absurd h (by decide +kernel)⟩,
      trivial⟩
  (sleep_returns_late heapAt2MiB withWorker 2 (by decide) (by decide +kernel) (by decide +kernel) napped hun
    (by decide +kernel)).1

/-- The only thread asks for five ticks; its own `Yield` finds nobody else, and the call returns after one. -/
theorem sleep_alone_returns :
    let asleep := (reached heapAt2MiB []).step (.call (.threadSleep 5))
    let m := Lib.run Machine.step asleep [.run, .run]
    asleep.returnCount 1 (.threadSleep 5) .unit < m.returnCount 1 (.threadSleep 5) .unit ∧
      m.sched.schedulerTick.toNat < (reached heapAt2MiB []).sched.schedulerTick.toNat + 5 := by
  decide +kernel

end Scheduler
end UefiBoot
