import UefiBoot.Lib.Ranked
import UefiBoot.Scheduler.Machine
import UefiBoot.Scheduler.Yield
import UefiBoot.Scheduler.RoundRobin

/-!
# `Scheduler.Drain` — waiting for the workers

`KernelSchedulerRunSelfTest` starts threads and then calls `KernelSchedulerYield` as long as `RunnableWorkerCount` is not
zero. The loop ends whatever the priorities of the workers are, however many of them there are, and whenever the timer
ticks: let every worker have a finite list of things to do, each of which is a `Yield` or a sleep, before its entry
function returns.

While a worker can run, a `Yield` of the bootstrap thread goes to one, since the running thread is not among the
candidates; so what is left to do goes down (`work`). While all workers sleep, the `Yield` returns at once, but it counts
a tick, and they are one tick nearer to their time (`rest`). The two make a rank, and the bound on the steps of the
processor is that rank.
-/

namespace UefiBoot
namespace Scheduler

/-- What the entry function of a worker does next. -/
inductive Op where
  | yield
  | sleep (ticks : UInt64)
  deriving DecidableEq

/-- `DemoThreadMain` for an argument with that many steps. -/
def demoThreadMain (steps : Nat) : List Op := List.replicate steps .yield

/-- `RunnableWorkerCount`. -/
def runnableWorkerCount (s : State) : Nat :=
  (List.finRange kMaxThreads).countP fun i =>
    s.currentThread ≠ some i ∧ (s.threads i).state ≠ .empty ∧ (s.threads i).state ≠ .finished ∧
      (s.threads i).state ≠ .blocked

/-- The machine, and what the entry function of each thread has still to do. -/
structure Workload where
  machine : Machine
  code    : Fin kMaxThreads → List Op

/-- The timer interrupts, or the processor goes on. -/
inductive Move where
  | tick
  | cpu
  deriving DecidableEq

namespace Workload

/-- The thread runs on in its own code: the bootstrap thread in its loop, a worker in its entry function. -/
def next (w : Workload) (c : Fin kMaxThreads) : Workload :=
  if c = 0 then
    if runnableWorkerCount w.machine.sched > 0 then { w with machine := w.machine.step (.call .schedulerYield) } else w
  else
    match w.code c with
    | []                  => { w with machine := w.machine.step .exit }
    | .yield :: rest       =>
      { machine := w.machine.step (.call .schedulerYield), code := Function.update w.code c rest }
    | .sleep ticks :: rest =>
      { machine := w.machine.step (.call (.threadSleep ticks)), code := Function.update w.code c rest }

def step (w : Workload) : Move → Workload
  | .tick => { w with machine := w.machine.step .tick }
  | .cpu  =>
    match w.machine.control, w.machine.sched.currentThread with
    | .user, some c => w.next c
    | .user, none   => w
    | _, _          => { w with machine := w.machine.step .run }

end Workload

/-- The loop of the bootstrap thread is over. -/
def Drained (w : Workload) : Prop :=
  w.machine.control = .user ∧ w.machine.sched.currentThread = some 0 ∧ runnableWorkerCount w.machine.sched = 0

/-! ## What is left to do -/

/-- The thread is one that `RunnableWorkerCount` counts, or it is running. -/
def ThreadState.alive : ThreadState → Bool
  | .ready | .running | .sleeping => true
  | _ => false

/-- What thread `i` has still to do: its code, and its return. -/
def toDo (w : Workload) (i : Fin kMaxThreads) : Nat :=
  if i ≠ 0 ∧ (w.machine.sched.threads i).state.alive then (w.code i).length + 1 else 0

def work (w : Workload) : Nat := ∑ i, toDo w i

/-- The ticks that a sleeper still sleeps after the next one. -/
def napLeft (s : State) (i : Fin kMaxThreads) : Nat :=
  if i ≠ 0 ∧ (s.threads i).state = .sleeping then ((s.threads i).wakeTick - (s.schedulerTick + 1)).toNat else 0

/-- Nothing when a worker can run, else the ticks that all of them still sleep. -/
def rest (s : State) : Nat := if ∃ i, i ≠ 0 ∧ Runnable s i then 0 else ∑ i, napLeft s i

/-- The steps of the processor until something is done or a tick has passed. -/
def phase (w : Workload) : Nat :=
  match w.machine.control, decide (w.machine.sched.currentThread = some 0) with
  | .user, true        => 3 * rest w.machine.sched + 5
  | .yielding _, true  => 3 * rest w.machine.sched + 4
  | .resuming _, true  => 3 * rest w.machine.sched + 6
  | .user, false       => 0
  | .resuming _, false => 1
  | .yielding _, false => 3 * rest w.machine.sched + 7
  | .halted _, _       => 0

/-- More than any `phase`. -/
def phases : Nat := 3 * (kMaxThreads * 2 ^ 64) + 8

/-- **The rank of a workload.** -/
def stepsLeft (w : Workload) : Nat := work w * phases + phase w

/-! ## One tick -/

variable {s s' : State} {i j c n : Fin kMaxThreads}

/-- After a tick a worker that could run still can, and one that sleeps was not due. -/
structure Rested (s s' : State) (i : Fin kMaxThreads) : Prop where
  runs : Runnable s i → Runnable s' i
  naps : (s'.threads i).state = .sleeping →
    (s.threads i).state = .sleeping ∧ ¬ Runnable s i ∧ (s'.threads i).wakeTick = (s.threads i).wakeTick

theorem napLeft_ahead (hi : i ≠ 0) (hs : (s.threads i).state = .sleeping) (hnot : ¬ Runnable s i) :
    (s.schedulerTick + 1).toNat < (s.threads i).wakeTick.toNat ∧
      napLeft s i = (s.threads i).wakeTick.toNat - (s.schedulerTick + 1).toNat := by
  have hlt : (s.schedulerTick + 1).toNat < (s.threads i).wakeTick.toNat := by
    rw [← Nat.not_le, ← UInt64.le_iff_toNat_le]
    exact fun hle => hnot (Or.inr ⟨hs, hle⟩)
  refine ⟨hlt, ?_⟩
  unfold napLeft
  rw [if_pos ⟨hi, hs⟩, UInt64.toNat_sub_of_le _ _ (UInt64.le_iff_toNat_le.mpr (Nat.le_of_lt hlt))]

theorem napLeft_succ (htick : s'.schedulerTick = s.schedulerTick + 1) (hi : i ≠ 0)
    (hs' : (s'.threads i).state = .sleeping) (h : Rested s s' i) : napLeft s' i + 1 = napLeft s i := by
  obtain ⟨hs, hnot, hwake⟩ := h.naps hs'
  obtain ⟨hlt, hnap⟩ := napLeft_ahead hi hs hnot
  have hmax := (s.threads i).wakeTick.toNat_lt
  -- the wake-up tick is ahead, so the tick does not wrap before it
  have hnext : (s.schedulerTick + 1 + 1).toNat = (s.schedulerTick + 1).toNat + 1 := by
    have hone : (1 : UInt64).toNat = 1 := rfl
    rw [UInt64.toNat_add (s.schedulerTick + 1), hone, Nat.mod_eq_of_lt (by omega)]
  have hle : s.schedulerTick + 1 + 1 ≤ (s.threads i).wakeTick := by
    rw [UInt64.le_iff_toNat_le, hnext]
    omega
  rw [hnap]
  unfold napLeft
  rw [if_pos ⟨hi, hs'⟩, htick, hwake, UInt64.toNat_sub_of_le _ _ hle, hnext]
  omega

theorem napLeft_le (htick : s'.schedulerTick = s.schedulerTick + 1) (h : ∀ i, i ≠ 0 → Rested s s' i) (i : Fin kMaxThreads) :
    napLeft s' i ≤ napLeft s i := by
  by_cases hi : i ≠ 0 ∧ (s'.threads i).state = .sleeping
  · have := napLeft_succ htick hi.1 hi.2 (h i hi.1)
    omega
  · rw [napLeft, if_neg hi]
    exact Nat.zero_le _

theorem rest_le (htick : s'.schedulerTick = s.schedulerTick + 1) (h : ∀ i, i ≠ 0 → Rested s s' i) :
    rest s' ≤ rest s := by
  unfold rest
  by_cases hsome : ∃ i, i ≠ 0 ∧ Runnable s i
  · obtain ⟨i, hi, hrun⟩ := hsome
    rw [if_pos ⟨i, hi, (h i hi).runs hrun⟩]
    exact Nat.zero_le _
  · rw [if_neg hsome]
    split
    next => exact Nat.zero_le _
    next => exact Finset.sum_le_sum fun i _ => napLeft_le htick h i

/-- **While all workers sleep, a tick brings them nearer.** -/
theorem rest_lt (htick : s'.schedulerTick = s.schedulerTick + 1) (h : ∀ i, i ≠ 0 → Rested s s' i)
    (hnone : ¬ ∃ i, i ≠ 0 ∧ Runnable s i) (hj : j ≠ 0) (hsleeps : (s.threads j).state = .sleeping) :
    rest s' < rest s := by
  have hahead := napLeft_ahead hj hsleeps fun hrun => hnone ⟨j, hj, hrun⟩
  have hless : napLeft s' j < napLeft s j := by
    by_cases hs' : (s'.threads j).state = .sleeping
    · have := napLeft_succ htick hj hs' (h j hj)
      omega
    · rw [napLeft, if_neg (fun hno => hs' hno.2)]
      omega
  have hsum : ∑ i, napLeft s' i < ∑ i, napLeft s i :=
    Finset.sum_lt_sum (fun i _ => napLeft_le htick h i) ⟨j, Finset.mem_univ j, hless⟩
  unfold rest
  rw [if_neg hnone]
  split
  next => exact Nat.zero_lt_of_lt hsum
  next => exact hsum

theorem rest_lt_phases (s : State) : 3 * rest s + 8 ≤ phases := by
  have hone : ∀ i, napLeft s i ≤ 2 ^ 64 := by
    intro i
    unfold napLeft
    split
    next => exact Nat.le_of_lt (UInt64.toNat_lt _)
    next => exact Nat.zero_le _
  have hsum : ∑ i, napLeft s i ≤ kMaxThreads * 2 ^ 64 := by
    have h := Finset.sum_le_card_nsmul Finset.univ (napLeft s) _ fun i _ => hone i
    rwa [Finset.card_univ, Fintype.card_fin, smul_eq_mul] at h
  have hle : rest s ≤ kMaxThreads * 2 ^ 64 := by
    unfold rest
    split
    next => exact Nat.zero_le _
    next => exact hsum
  unfold phases
  omega

/-! ### Which workers it leaves where -/

/-- A thread that neither runs nor begins to, over a tick. -/
structure Passed (s s' : State) (i : Fin kMaxThreads) : Prop where
  state    : (s'.threads i).state = if Runnable s i then .ready else (s.threads i).state
  wakeTick : ¬ Runnable s i → (s'.threads i).wakeTick = (s.threads i).wakeTick
  context  : (s'.threads i).context = (s.threads i).context
  entry    : (s'.threads i).entry = (s.threads i).entry

theorem Passed.rested (h : Passed s s' i) : Rested s s' i := by
  constructor
  · intro hrun
    refine Or.inl ?_
    rw [h.state, if_pos hrun]
  · intro hs'
    rw [h.state] at hs'
    split at hs'
    next => exact absurd hs' (by decide)
    next hnot => exact ⟨hs', hnot, h.wakeTick hnot⟩

@[simp] theorem wake_entry (tick : UInt64) (t : Thread) : (t.wake tick).entry = t.entry := by
  unfold Thread.wake; split <;> rfl
@[simp] theorem deliver_entry (t : Thread) : t.deliverSignals.entry = t.entry := by
  unfold Thread.deliverSignals; split <;> rfl

theorem timer_passed (s : State) (i : Fin kMaxThreads) : Passed s (kernelSchedulerTimerTick s) i := by
  have hthread : (kernelSchedulerTimerTick s).threads i = (s.threads i).wake (s.schedulerTick + 1) := rfl
  refine ⟨?_, fun hnot => ?_, ?_, ?_⟩ <;> rw [hthread]
  · by_cases hrun : Runnable s i
    · rw [if_pos hrun]
      exact wake_state_eq_ready.mpr hrun
    · rw [if_neg hrun]
      unfold Thread.wake
      rw [if_neg (fun hdue => hrun (Or.inr hdue))]
  · unfold Thread.wake
    rw [if_neg (fun hdue => hnot (Or.inr hdue))]
  · exact wake_context _ _
  · exact wake_entry _ _

theorem switched_tick (s : State) (c n : Fin kMaxThreads) (rest : Continuation) :
    (yieldSwitch (yielded s) c n rest).schedulerTick = s.schedulerTick + 1 := by
  obtain ⟨-, -, -, -, -, -, -, htick⟩ := yieldSwitch_others (yielded s) c n rest
  rw [htick, yielded_tick]

theorem stayed_tick (s : State) : (yieldReturn (yielded s)).schedulerTick = s.schedulerTick + 1 := by
  obtain ⟨-, -, -, -, -, -, -, htick⟩ := yieldReturn_others (yielded s)
  rw [htick, yielded_tick]

section Yields

variable {rest : Continuation} (hc : s.currentThread = some c)
include hc

theorem yielded_entry (j : Fin kMaxThreads) : ((yielded s).threads j).entry = (s.threads j).entry := by
  rw [yielded_threads hc]
  split <;> simp

theorem stayed_entry (j : Fin kMaxThreads) :
    ((yieldReturn (yielded s)).threads j).entry = (s.threads j).entry := by
  rw [stayed_threads hc, ← yielded_entry hc]
  split
  · rename_i h
    rw [h.1]
  · rfl

theorem switched_entry (hne : n ≠ c) (j : Fin kMaxThreads) :
    ((yieldSwitch (yielded s) c n rest).threads j).entry = (s.threads j).entry := by
  rw [yieldSwitch_threads hne, ← yielded_entry hc]
  split
  · rename_i h
    rw [h]
  · split
    · rename_i h
      rw [h, deliver_entry]
    · rfl

/-- A `Yield` that returns at once is a tick for all but its caller. -/
theorem stayed_passed (hi : i ≠ c) : Passed s (yieldReturn (yielded s)) i := by
  refine ⟨?_, fun hnot => ?_, stayed_context hc i, stayed_entry hc i⟩
  · rw [stayed_state hc, stayedState, if_neg (fun h : i = c ∧ _ => hi h.1)]
    by_cases hrun : Runnable s i
    · rw [if_pos hrun]
      rcases hrun with hready | hdue
      · split <;> simp [hready]
      · rw [if_pos ⟨Or.inr hdue, hdue.1⟩]
    · rw [if_neg hrun, if_neg (fun h => hrun h.1)]
  · rw [stayed_wakeTick hc, stayed_state hc, stayedState]
    rw [if_neg (fun h : Runnable s i ∧ _ => hnot h.1), if_neg (fun h : i = c ∧ _ => hi h.1)]
    refine if_neg fun h => ?_
    rw [h.1] at h
    exact absurd h.2 (by decide)

/-- And so is one that switches, for all but its caller and the thread it switches to. -/
theorem switched_passed (hne : n ≠ c) (hi : i ≠ c) (hin : i ≠ n) :
    Passed s (yieldSwitch (yielded s) c n rest) i := by
  refine ⟨?_, fun hnot => ?_, ?_, switched_entry hc hne i⟩
  · rw [switched_state hc hne, switchedState, if_neg hin]
    simp only [hi, false_and, or_false]
  · rw [switched_wakeTick hc hne, if_neg (fun h => hnot h.2)]
  · rw [switched_context hc hne, if_neg hi]

end Yields

/-! ## `Yield` among the workers -/

/-- Code that comes back to the thread's own code at once when it is resumed. -/
def Plain (t : Thread) : Continuation → Prop
  | .trampoline                       => t.entry ≠ 0
  | .pthreadJoin _ _ _ | .exited _    => False
  | _                                 => True

instance (t : Thread) : ∀ rest : Continuation, Decidable (Plain t rest)
  | .trampoline                              => inferInstanceAs (Decidable (t.entry ≠ 0))
  | .pthreadJoin _ _ _ | .exited _           => inferInstanceAs (Decidable False)
  | .schedulerYield _ | .threadSleep _ _ | .futexWait _ _ _ | .mutexLock _ _ _ => inferInstanceAs (Decidable True)

/-- Thread `c` runs, the bootstrap thread can, and whoever can be resumed comes back to its own code. -/
structure Waiting (s : State) (c : Fin kMaxThreads) : Prop where
  current : s.currentThread = some c
  single  : ∀ i, i ≠ c → (s.threads i).state ≠ .running
  boot    : (s.threads 0).state = if c = 0 then .running else .ready
  resumes : ∀ i, i ≠ c → (s.threads i).state = .ready ∨ (s.threads i).state = .sleeping →
    Plain (s.threads i) (s.threads i).context

/-- The running thread may call `Yield` and go on as `rest`: a worker that has returned does not go on. -/
def MayYield (s : State) (c : Fin kMaxThreads) (rest : Continuation) : Prop :=
  ((s.threads c).state = .finished ∧ c ≠ 0) ∨ ((s.threads c).state.alive = true ∧ Plain (s.threads c) rest)

/-- No worker appears or is lost. -/
def SameWorkers (s s' : State) : Prop :=
  ∀ i, i ≠ 0 → ((s'.threads i).state.alive = (s.threads i).state.alive) ∧
    ((s.threads i).state.alive = false → (s'.threads i).state = (s.threads i).state)

/-- What a `Yield` leads to. -/
structure Yields (s s' : State) (next : Continuation) (c c' : Fin kMaxThreads) : Prop where
  waiting : Waiting s' c'
  plain   : Plain (s'.threads c') next
  up      : (s'.threads c').state = .running ∨ (s'.threads c').state = .ready
  same    : SameWorkers s s'

theorem runnable_state (h : Runnable s i) : (s.threads i).state = .ready ∨ (s.threads i).state = .sleeping :=
  h.imp_right And.left

theorem Passed.alive (h : Passed s s' i) : (s'.threads i).state.alive = (s.threads i).state.alive ∧
    ((s.threads i).state.alive = false → (s'.threads i).state = (s.threads i).state) := by
  rw [h.state]
  split
  next hrun =>
    rcases runnable_state hrun with hs | hs <;> rw [hs] <;> exact ⟨rfl, fun hno => absurd hno (by decide)⟩
  next => exact ⟨rfl, fun _ => rfl⟩

theorem Passed.single (h : Passed s s' i) (hs : (s.threads i).state ≠ .running) : (s'.threads i).state ≠ .running := by
  rw [h.state]
  split
  next => decide
  next => exact hs

theorem Passed.resumes (h : Passed s s' i)
    (hs : (s.threads i).state = .ready ∨ (s.threads i).state = .sleeping → Plain (s.threads i) (s.threads i).context)
    (hs' : (s'.threads i).state = .ready ∨ (s'.threads i).state = .sleeping) :
    Plain (s'.threads i) (s'.threads i).context := by
  have hold : (s.threads i).state = .ready ∨ (s.threads i).state = .sleeping := by
    rw [h.state] at hs'
    split at hs'
    next hrun => exact runnable_state hrun
    next => exact hs'
  rw [h.context]
  have hplain := hs hold
  unfold Plain at hplain ⊢
  rw [h.entry]
  exact hplain

theorem Waiting.boot_runnable (h : Waiting s c) (hc : c ≠ 0) : Runnable s 0 := by
  refine Or.inl ?_
  rw [h.boot, if_neg hc]

/-- A `Yield` that returns at once. -/
theorem yields_stayed {rest : Continuation} (h : Waiting s c) (hmay : MayYield s c rest) (hstay : ¬ SwitchesAway s) :
    Yields s (yieldReturn (yielded s)) rest c c ∧
      (c = 0 → ¬ ∃ i, i ≠ 0 ∧ Runnable s i) := by
  have hpassed := fun i (hi : i ≠ c) => stayed_passed (s := s) h.current hi
  have hown : (s.threads c).state.alive = true ∧ Plain (s.threads c) rest := by
    rcases hmay with ⟨hfin, hc⟩ | hown
    · -- a worker that has returned would hand over to the bootstrap thread
      refine absurd ⟨c, 0, h.current, hc.symm, h.boot_runnable hc, fun hrun => ?_⟩ hstay
      rcases runnable_state hrun with hs | hs <;> rw [hfin] at hs <;> exact absurd hs (by decide)
    · exact hown
  have hstate : ((yieldReturn (yielded s)).threads c).state =
      if (s.threads c).state = .sleeping then .ready else (s.threads c).state := by
    rw [stayed_state h.current, stayedState]
    by_cases hs : (s.threads c).state = .sleeping
    · rw [if_pos hs]
      split
      next => rfl
      next => rw [if_pos ⟨rfl, hs⟩]
    · rw [if_neg hs, if_neg (fun h => hs h.2), if_neg (fun h => hs h.2)]
  have hup : ((yieldReturn (yielded s)).threads c).state = .running ∨
      ((yieldReturn (yielded s)).threads c).state = .ready := by
    rw [hstate]
    have halive := hown.1
    cases hs : (s.threads c).state <;> rw [hs] at halive <;> simp_all [ThreadState.alive]
  refine ⟨⟨⟨?_, fun i hi => (hpassed i hi).single (h.single i hi), ?_, fun i hi => (hpassed i hi).resumes (h.resumes i hi)⟩,
    ?_, hup, fun i _ => ?_⟩, ?_⟩
  · rw [(yieldReturn_others (yielded s)).1, yielded_currentThread, h.current]
  · by_cases hc : c = 0
    · subst hc
      have hboot := h.boot
      rw [if_pos rfl] at hboot ⊢
      rw [hstate, hboot]
      rfl
    · rw [if_neg hc, (hpassed 0 (Ne.symm hc)).state, if_pos (h.boot_runnable hc)]
  · have hplain := hown.2
    unfold Plain at hplain ⊢
    rw [stayed_entry h.current]
    exact hplain
  · by_cases hi : i = c
    · subst hi
      refine ⟨?_, fun hno => absurd hown.1 (by rw [hno]; decide)⟩
      rcases hup with hs | hs <;> rw [hs, hown.1] <;> rfl
    · exact (hpassed i hi).alive
  · rintro rfl ⟨i, hi, hrun⟩
    refine hstay ⟨0, i, h.current, hi, hrun, fun hboot => ?_⟩
    have hrunning := h.boot
    rw [if_pos rfl] at hrunning
    rcases runnable_state hboot with hs | hs <;> rw [hrunning] at hs <;> exact absurd hs (by decide)

/-- A `Yield` that hands the processor over. -/
theorem yields_switched {rest : Continuation} (h : Waiting s c) (hmay : MayYield s c rest) (hne : n ≠ c)
    (hrun : Runnable s n) :
    Yields s (yieldSwitch (yielded s) c n rest) (s.threads n).context c n ∧
      (n = 0 → ∀ i, i ≠ 0 → Rested s (yieldSwitch (yielded s) c n rest) i) := by
  have hpassed : ∀ i, i ≠ c → i ≠ n → Passed s (yieldSwitch (yielded s) c n rest) i :=
    fun i hi hin => switched_passed h.current hne hi hin
  have hstate : ∀ i, ((yieldSwitch (yielded s) c n rest).threads i).state = switchedState s c n i :=
    switched_state h.current hne
  have hcaller : ((yieldSwitch (yielded s) c n rest).threads c).state =
      if Runnable s c ∨ (s.threads c).state = .running then .ready else (s.threads c).state := by
    rw [hstate, switchedState, if_neg (Ne.symm hne)]
    simp only [true_and]
  have hchosen : ((yieldSwitch (yielded s) c n rest).threads n).state = .running := by
    rw [hstate, switchedState, if_pos rfl]
  have hresumes := h.resumes n hne (runnable_state hrun)
  refine ⟨⟨⟨(yieldSwitch_others (yielded s) c n rest).1, fun i hi => ?_, ?_, fun i hi hs' => ?_⟩, ?_, .inl hchosen,
    fun i _ => ?_⟩, ?_⟩
  · by_cases hic : i = c
    · rw [hic, hcaller]
      split
      next => decide
      next hnot => exact fun hs => hnot (Or.inr hs)
    · exact (hpassed i hic hi).single (h.single i hic)
  · by_cases hn : n = 0
    · rw [if_pos hn, ← hn]
      exact hchosen
    rw [if_neg hn]
    by_cases hc : c = 0
    · have hboot := h.boot
      rw [if_pos hc] at hboot
      rw [← hc, hcaller, hc, if_pos (Or.inr hboot)]
    · rw [(hpassed 0 (Ne.symm hc) (Ne.symm hn)).state, if_pos (h.boot_runnable hc)]
  · by_cases hic : i = c
    · -- the caller is to go on as `rest`, unless it has returned
      subst hic
      have hplain : Plain (s.threads i) rest := by
        rcases hmay with ⟨hfin, -⟩ | hown
        · have hno : ¬ (Runnable s i ∨ (s.threads i).state = .running) := by
            rintro (hr | hr)
            · rcases runnable_state hr with hs | hs <;> rw [hfin] at hs <;> exact absurd hs (by decide)
            · rw [hfin] at hr
              exact absurd hr (by decide)
          rw [hcaller, if_neg hno, hfin] at hs'
          rcases hs' with hs | hs <;> exact absurd hs (by decide)
        · exact hown.2
      unfold Plain at hplain ⊢
      rw [switched_context h.current hne, if_pos rfl, switched_entry h.current hne]
      exact hplain
    · exact (hpassed i hic hi).resumes (h.resumes i hic) hs'
  · unfold Plain at hresumes ⊢
    rw [switched_entry h.current hne]
    exact hresumes
  · by_cases hin : i = n
    · rw [hin, hchosen]
      rcases runnable_state hrun with hs | hs <;> rw [hs] <;> exact ⟨rfl, fun hno => absurd hno (by decide)⟩
    by_cases hic : i = c
    · rw [hic, hcaller]
      split
      next hr =>
        have halive : (s.threads c).state.alive = true := by
          rcases hr with hr | hr
          · rcases runnable_state hr with hs | hs <;> rw [hs] <;> rfl
          · rw [hr]
            rfl
        exact ⟨halive.symm, fun hno => absurd halive (by rw [hno]; decide)⟩
      next => exact ⟨rfl, fun _ => rfl⟩
    · exact (hpassed i hic hin).alive
  · intro hn i hi
    by_cases hic : i = c
    · rw [hic]
      constructor
      · intro hr
        refine Or.inl ?_
        rw [hcaller, if_pos (Or.inl hr)]
      · intro hs'
        rw [hcaller] at hs'
        split at hs'
        next => exact absurd hs' (by decide)
        next hnot =>
          refine ⟨hs', fun hr => hnot (Or.inl hr), ?_⟩
          rw [switched_wakeTick h.current hne, if_neg (fun hr => hnot (Or.inl hr.2))]
    · exact (hpassed i hic (fun hin => hi (hin.trans hn))).rested

/-- **`Yield` among the workers.** When it comes back to the bootstrap thread, no less rest is left than before, and less
    when that thread called it while there were workers. -/
theorem yield_waiting (h : Waiting s c) (rest : Continuation) (hmay : MayYield s c rest) :
    ∃ c', Yields s (kernelSchedulerYield s rest).2 (kernelSchedulerYield s rest).1 c c' ∧
      (c' = 0 → Scheduler.rest (kernelSchedulerYield s rest).2 ≤ Scheduler.rest s ∧
        (c = 0 → (∃ i, i ≠ 0 ∧ ((s.threads i).state = .ready ∨ (s.threads i).state = .sleeping)) →
          Scheduler.rest (kernelSchedulerYield s rest).2 < Scheduler.rest s)) := by
  rcases yield_cases h.current rest with ⟨hstay, heq⟩ | ⟨-, n, hne, hrun, heq⟩
  · rw [heq]
    obtain ⟨hyields, hnone⟩ := yields_stayed h hmay hstay
    refine ⟨c, hyields, ?_⟩
    rintro rfl
    have hrested := fun i hi => (stayed_passed (s := s) h.current hi (i := i)).rested
    refine ⟨rest_le (stayed_tick s) hrested, fun _ ⟨i, hi, hs⟩ => ?_⟩
    have hsleeps : (s.threads i).state = .sleeping :=
      hs.resolve_left fun hready => hnone rfl ⟨i, hi, Or.inl hready⟩
    exact rest_lt (stayed_tick s) hrested (hnone rfl) hi hsleeps
  · rw [heq]
    obtain ⟨hyields, hrested⟩ := yields_switched h hmay hne hrun
    refine ⟨n, hyields, fun hn => ⟨rest_le (switched_tick s c n rest) (hrested hn), fun hc => ?_⟩⟩
    exact absurd (hn.trans hc.symm) hne

/-! ## A step of the workload -/

/-- Where the running thread is, and what its state allows. -/
def InStep (m : Machine) (c : Fin kMaxThreads) : Prop :=
  match m.control with
  | .user          => (m.sched.threads c).state = .running ∨ (m.sched.threads c).state = .ready
  | .yielding rest => MayYield m.sched c rest ∧
    (c = 0 → ∃ i, i ≠ 0 ∧ ((m.sched.threads i).state = .ready ∨ (m.sched.threads i).state = .sleeping))
  | .resuming rest => Plain (m.sched.threads c) rest ∧
    ((m.sched.threads c).state = .running ∨ (m.sched.threads c).state = .ready)
  | .halted _      => False

/-- Of the threads that had something to do at the start each still has or has done it, and the others are as they
    were. -/
def Fate (start w : Workload) (i : Fin kMaxThreads) : Prop :=
  if (start.machine.sched.threads i).state.alive then
    (w.machine.sched.threads i).state.alive = true ∨
      ((w.machine.sched.threads i).state = .finished ∧ w.code i = [])
  else (w.machine.sched.threads i).state = (start.machine.sched.threads i).state ∧ w.code i = start.code i

structure Draining (start w : Workload) (c : Fin kMaxThreads) : Prop where
  waiting : Waiting w.machine.sched c
  inStep  : InStep w.machine c
  fates   : ∀ i, i ≠ 0 → Fate start w i

variable {start w w' : Workload} {m m' : Machine}

/-- The workload has come nearer to its end. -/
def Nearer (w w' : Workload) : Prop := work w' < work w ∨ (work w' = work w ∧ phase w' < phase w)

theorem phase_lt_phases (w : Workload) : phase w < phases := by
  have h := rest_lt_phases w.machine.sched
  unfold phase
  split <;> omega

theorem Nearer.stepsLeft (h : Nearer w w') : stepsLeft w' < stepsLeft w := by
  have hphase := phase_lt_phases w'
  unfold Scheduler.stepsLeft
  rcases h with hwork | ⟨hwork, hless⟩
  · calc work w' * phases + phase w' < work w' * phases + phases := by omega
      _ = (work w' + 1) * phases := (Nat.succ_mul _ _).symm
      _ ≤ work w * phases := Nat.mul_le_mul_right _ hwork
      _ ≤ work w * phases + phase w := Nat.le_add_right _ _
  · rw [hwork]
    omega

theorem toDo_congr (halive : i ≠ 0 → (w'.machine.sched.threads i).state.alive = (w.machine.sched.threads i).state.alive)
    (hcode : w'.code i = w.code i) : toDo w' i = toDo w i := by
  unfold toDo
  by_cases hi : i ≠ 0
  · rw [halive hi, hcode]
  · rw [if_neg (fun h => hi h.1), if_neg (fun h => hi h.1)]

theorem work_congr (hsame : SameWorkers w.machine.sched w'.machine.sched) (hcode : w'.code = w.code) :
    work w' = work w :=
  Finset.sum_congr rfl fun i _ => toDo_congr (fun hi => (hsame i hi).1) (congrFun hcode i)

theorem Fate.same (h : Fate start w i) (hi : i ≠ 0) (hsame : SameWorkers w.machine.sched w'.machine.sched)
    (hcode : w'.code i = w.code i) : Fate start w' i := by
  obtain ⟨halive, hstate⟩ := hsame i hi
  unfold Fate at h ⊢
  split
  next hstart =>
    rw [if_pos hstart] at h
    rcases h with hthere | ⟨hfin, hdone⟩
    · exact Or.inl (halive.trans hthere)
    · refine Or.inr ⟨?_, hcode.trans hdone⟩
      rw [hstate (by rw [hfin]; rfl), hfin]
  next hstart =>
    rw [if_neg hstart] at h
    refine ⟨?_, hcode.trans h.2⟩
    rw [hstate (by rw [h.1]; simpa using hstart), h.1]

theorem SameWorkers.refl (s : State) : SameWorkers s s := fun _ _ => ⟨rfl, fun _ => rfl⟩

/-- Going on with a `Yield`. -/
theorem cpu_yielding (h : Draining start w c) {rest : Continuation} (hcontrol : w.machine.control = .yielding rest) :
    ∃ c', Draining start (w.step .cpu) c' ∧ Nearer w (w.step .cpu) := by
  obtain ⟨hmay, hworkers⟩ : MayYield w.machine.sched c rest ∧ _ := by
    have hin := h.inStep
    unfold InStep at hin
    rwa [hcontrol] at hin
  obtain ⟨c', hyields, hrest⟩ := yield_waiting h.waiting rest hmay
  have hstep : w.step .cpu = { w with machine := { w.machine with
      sched := (kernelSchedulerYield w.machine.sched rest).2
      control := .resuming (kernelSchedulerYield w.machine.sched rest).1 } } := by
    unfold Workload.step
    rw [hcontrol]
    dsimp only
    unfold Machine.step
    rw [hcontrol]
  rw [hstep]
  refine ⟨c', ⟨hyields.waiting, ⟨hyields.plain, hyields.up⟩, fun i hi => (h.fates i hi).same hi hyields.same rfl⟩,
    Or.inr ⟨work_congr hyields.same rfl, ?_⟩⟩
  unfold phase
  rw [hcontrol, h.waiting.current]
  dsimp only
  rw [hyields.waiting.current]
  simp only [Option.some.injEq]
  by_cases hc' : c' = 0
  · obtain ⟨hle, hlt⟩ := hrest hc'
    by_cases hc : c = 0
    · have hless := hlt hc (hworkers hc)
      simp only [hc, hc', decide_true]
      omega
    · simp only [hc, hc', decide_true, decide_false]
      omega
  · by_cases hc : c = 0 <;> simp only [hc, hc', decide_true, decide_false] <;> omega

/-- Nothing that matters here has changed. -/
structure SameView (s s' : State) : Prop where
  current  : s'.currentThread = s.currentThread
  tick     : s'.schedulerTick = s.schedulerTick
  state    : ∀ i, (s'.threads i).state = (s.threads i).state
  wakeTick : ∀ i, (s'.threads i).wakeTick = (s.threads i).wakeTick
  context  : ∀ i, (s'.threads i).context = (s.threads i).context
  entry    : ∀ i, (s'.threads i).entry = (s.threads i).entry

theorem SameView.refl (s : State) : SameView s s := ⟨rfl, rfl, fun _ => rfl, fun _ => rfl, fun _ => rfl, fun _ => rfl⟩

theorem SameView.plain (h : SameView s s') (i : Fin kMaxThreads) (rest : Continuation) :
    Plain (s'.threads i) rest ↔ Plain (s.threads i) rest := by
  unfold Plain
  rw [h.entry]

theorem SameView.waiting (h : SameView s s') (hw : Waiting s c) : Waiting s' c := by
  refine ⟨h.current.trans hw.current, fun i hi => ?_, (h.state 0).trans hw.boot, fun i hi hs => ?_⟩
  · rw [h.state]
    exact hw.single i hi
  · rw [h.context, h.plain]
    rw [h.state] at hs
    exact hw.resumes i hi hs

theorem SameView.workers (h : SameView s s') : SameWorkers s s' := fun i _ => by
  rw [h.state]
  exact ⟨rfl, fun _ => rfl⟩

theorem SameView.rest (h : SameView s s') : Scheduler.rest s' = Scheduler.rest s := by
  have hrun : ∀ i, Runnable s' i ↔ Runnable s i := fun i => by
    unfold Runnable
    rw [h.state, h.wakeTick, h.tick]
  have hnap : napLeft s' = napLeft s := by
    funext i
    unfold napLeft
    rw [h.state, h.wakeTick, h.tick]
  unfold Scheduler.rest
  rw [hnap]
  exact if_congr (exists_congr fun i => and_congr Iff.rfl (hrun i)) rfl rfl

theorem sameView_deliverSignals (s : State) (i : Fin kMaxThreads) : SameView s (deliverSignals s i) := by
  have hthread : ∀ (f : Thread → ThreadState × UInt64 × Continuation × UInt64), (∀ t, f t.deliverSignals = f t) →
      ∀ j, f ((deliverSignals s i).threads j) = f (s.threads j) := by
    intro f hf j
    rw [deliverSignals_threads, State.setThread_threads, Function.update_apply]
    split
    next hj => rw [hf, hj]
    next => rfl
  have hall := hthread (fun t => (t.state, t.wakeTick, t.context, t.entry)) fun t => by simp
  simp only [Prod.mk.injEq] at hall
  exact ⟨rfl, rfl, fun j => (hall j).1, fun j => (hall j).2.1, fun j => (hall j).2.2.1, fun j => (hall j).2.2.2⟩

/-- What is resumed comes back to the thread's own code. -/
theorem resume_plain {rest : Continuation} (hc : m.sched.currentThread = some c) (hplain : Plain (m.sched.threads c) rest) :
    (m.resume rest).control = .user ∧ SameView m.sched (m.resume rest).sched := by
  cases rest with
  | trampoline =>
      have hentry : (m.sched.threads c).entry ≠ 0 := hplain
      unfold Machine.resume
      simp only [hc, hentry, if_false]
      exact ⟨trivial, sameView_deliverSignals m.sched c⟩
  | schedulerYield caller => exact ⟨rfl, .refl _⟩
  | threadSleep caller ticks => exact ⟨rfl, .refl _⟩
  | futexWait caller address expected => exact ⟨rfl, .refl _⟩
  | mutexLock caller id i => exact ⟨rfl, .refl _⟩
  | pthreadJoin caller id thread => exact hplain.elim
  | exited caller => exact hplain.elim

/-- Going on with what is resumed. -/
theorem cpu_resuming (h : Draining start w c) {rest : Continuation} (hcontrol : w.machine.control = .resuming rest) :
    ∃ c', Draining start (w.step .cpu) c' ∧ Nearer w (w.step .cpu) := by
  obtain ⟨hplain, hup⟩ : Plain (w.machine.sched.threads c) rest ∧ _ := by
    have hin := h.inStep
    unfold InStep at hin
    rwa [hcontrol] at hin
  obtain ⟨huser, hview⟩ := resume_plain h.waiting.current hplain
  have hstep : w.step .cpu = { w with machine := w.machine.resume rest } := by
    unfold Workload.step
    rw [hcontrol]
    dsimp only
    unfold Machine.step
    rw [hcontrol]
  rw [hstep]
  refine ⟨c, ⟨hview.waiting h.waiting, ?_, fun i hi => (h.fates i hi).same hi hview.workers rfl⟩,
    Or.inr ⟨work_congr hview.workers rfl, ?_⟩⟩
  · unfold InStep
    rw [huser]
    dsimp only
    rw [hview.state]
    exact hup
  · unfold phase
    dsimp only
    rw [hcontrol, huser, hview.current, h.waiting.current, hview.rest]
    simp only [Option.some.injEq]
    by_cases hc : c = 0 <;> simp only [hc, decide_true, decide_false] <;> omega

/-! ### The running thread's own code -/

theorem exists_worker (h : Waiting s 0) (hcount : runnableWorkerCount s > 0) :
    ∃ i, i ≠ 0 ∧ ((s.threads i).state = .ready ∨ (s.threads i).state = .sleeping) := by
  unfold runnableWorkerCount at hcount
  obtain ⟨i, -, hi⟩ := List.countP_pos_iff.mp hcount
  obtain ⟨hcur, hempty, hfin, hblocked⟩ := of_decide_eq_true hi
  have hne : i ≠ 0 := fun hi => hcur (by rw [hi, h.current])
  refine ⟨i, hne, ?_⟩
  have hnot := h.single i hne
  cases hs : (s.threads i).state <;> simp_all

/-- The bootstrap thread has found workers and calls `Yield`. -/
theorem cpu_boot (h : Draining start w 0) (hcontrol : w.machine.control = .user)
    (hcount : runnableWorkerCount w.machine.sched > 0) :
    Draining start (w.step .cpu) 0 ∧ Nearer w (w.step .cpu) := by
  have hstep : w.step .cpu = { w with machine :=
      { w.machine with control := .yielding (.schedulerYield w.machine.sched.currentId) } } := by
    unfold Workload.step
    rw [hcontrol, h.waiting.current]
    dsimp only
    unfold Workload.next
    rw [if_pos rfl, if_pos hcount]
    unfold Machine.step
    rw [hcontrol]
    rfl
  rw [hstep]
  have hboot := h.waiting.boot
  rw [if_pos rfl] at hboot
  refine ⟨⟨h.waiting, ⟨Or.inr ⟨by rw [hboot]; rfl, trivial⟩, fun _ => exists_worker h.waiting hcount⟩, h.fates⟩,
    Or.inr ⟨rfl, ?_⟩⟩
  unfold phase
  dsimp only
  rw [hcontrol, h.waiting.current]
  simp only [decide_true]
  omega

/-- A worker takes what it has to do next. -/
theorem nearer_of_op {rest : List Op} {op : Op} (hc : c ≠ 0) (hcode : w.code c = op :: rest)
    (halive : (w.machine.sched.threads c).state.alive = true) (hcode' : w'.code = Function.update w.code c rest)
    (hsame : ∀ i, i ≠ 0 → (w'.machine.sched.threads i).state.alive = (w.machine.sched.threads i).state.alive) :
    Nearer w w' := by
  have hother : ∀ i, i ≠ c → toDo w' i = toDo w i := fun i hi =>
    toDo_congr (hsame i) (by rw [hcode', Function.update_of_ne hi])
  have hown : toDo w' c < toDo w c := by
    unfold toDo
    rw [hsame c hc, if_pos ⟨hc, halive⟩, if_pos ⟨hc, halive⟩, hcode', Function.update_self, hcode]
    simp
  refine Or.inl (Finset.sum_lt_sum (fun i _ => ?_) ⟨c, Finset.mem_univ c, hown⟩)
  by_cases hi : i = c
  · rw [hi]
    exact Nat.le_of_lt hown
  · exact Nat.le_of_eq (hother i hi)

/-- A worker whose state is `alive` has not returned. -/
theorem Fate.goesOn (h : Fate start w i) (halive : (w.machine.sched.threads i).state.alive = true)
    (halive' : (w'.machine.sched.threads i).state.alive = true) : Fate start w' i := by
  unfold Fate at h ⊢
  split
  next => exact Or.inl halive'
  next hstart =>
    rw [if_neg hstart] at h
    rw [h.1] at halive
    exact absurd halive hstart

/-- The scheduler with a worker asleep. -/
theorem sleeping_waiting (hw : Waiting s c) (hc : c ≠ 0) (wakeTick : UInt64) :
    Waiting (s.setThread c { s.threads c with wakeTick, state := .sleeping }) c := by
  have hother : ∀ i, i ≠ c →
      (s.setThread c { s.threads c with wakeTick, state := .sleeping }).threads i = s.threads i := fun i hi => by
    rw [State.setThread_threads, Function.update_of_ne hi]
  refine ⟨hw.current, fun i hi => ?_, ?_, fun i hi hs => ?_⟩
  · rw [hother i hi]
    exact hw.single i hi
  · rw [hother 0 (Ne.symm hc)]
    exact hw.boot
  · rw [hother i hi] at hs ⊢
    exact hw.resumes i hi hs

/-- And with one that has returned. -/
theorem finished_waiting (hw : Waiting s c) (hc : c ≠ 0) :
    Waiting (s.setThread c { s.threads c with state := .finished }) c := by
  have hother : ∀ i, i ≠ c →
      (s.setThread c { s.threads c with state := .finished }).threads i = s.threads i := fun i hi => by
    rw [State.setThread_threads, Function.update_of_ne hi]
  refine ⟨hw.current, fun i hi => ?_, ?_, fun i hi hs => ?_⟩
  · rw [hother i hi]
    exact hw.single i hi
  · rw [hother 0 (Ne.symm hc)]
    exact hw.boot
  · rw [hother i hi] at hs ⊢
    exact hw.resumes i hi hs

/-- A worker's state, and that it is one. -/
theorem Draining.alive (h : Draining start w c) (hcontrol : w.machine.control = .user) :
    (w.machine.sched.threads c).state.alive = true := by
  have hin := h.inStep
  unfold InStep at hin
  rw [hcontrol] at hin
  rcases hin with hs | hs <;> rw [hs] <;> rfl

/-- A worker returns from its entry function. -/
theorem cpu_return (h : Draining start w c) (hcontrol : w.machine.control = .user) (hc : c ≠ 0)
    (hcode : w.code c = []) : Draining start (w.step .cpu) c ∧ Nearer w (w.step .cpu) := by
  have halive := h.alive hcontrol
  have hstep : w.step .cpu = { w with machine := { w.machine with
      sched := w.machine.sched.setThread c { w.machine.sched.threads c with state := .finished }
      control := .yielding (.exited (w.machine.sched.threads c).id) } } := by
    unfold Workload.step
    rw [hcontrol, h.waiting.current]
    dsimp only
    unfold Workload.next
    rw [if_neg hc, hcode]
    dsimp only
    unfold Machine.step
    rw [hcontrol]
    dsimp only
    unfold Machine.exit
    rw [h.waiting.current]
    dsimp only
    rw [if_neg hc]
  rw [hstep]
  have hown : ((w.machine.sched.setThread c { w.machine.sched.threads c with state := .finished }).threads c).state =
      .finished := by
    rw [State.setThread_threads, Function.update_self]
  have hother : ∀ i, i ≠ c → (w.machine.sched.setThread c { w.machine.sched.threads c with state := .finished }).threads i =
      w.machine.sched.threads i := fun i hi => by
    rw [State.setThread_threads, Function.update_of_ne hi]
  refine ⟨⟨finished_waiting h.waiting hc, ⟨Or.inl ⟨hown, hc⟩, fun h0 => absurd h0 hc⟩, fun i hi => ?_⟩, Or.inl ?_⟩
  · by_cases hic : i = c
    · have hfate := h.fates i hi
      rw [hic] at hfate ⊢
      unfold Fate at hfate ⊢
      split
      next => exact Or.inr ⟨hown, hcode⟩
      next hstart =>
        rw [if_neg hstart] at hfate
        rw [hfate.1] at halive
        exact absurd halive hstart
    · have hfate := h.fates i hi
      unfold Fate at hfate ⊢
      dsimp only
      rw [hother i hic]
      exact hfate
  · refine Finset.sum_lt_sum (fun i _ => ?_) ⟨c, Finset.mem_univ c, ?_⟩
    · by_cases hic : i = c
      · rw [hic]
        unfold toDo
        dsimp only
        rw [hown, if_neg fun hno => absurd hno.2 (by decide)]
        exact Nat.zero_le _
      · exact Nat.le_of_eq (toDo_congr (fun _ => by rw [hother i hic]) rfl)
    · unfold toDo
      dsimp only
      rw [hown, if_neg (fun hno => absurd hno.2 (by decide)), if_pos ⟨hc, halive⟩]
      exact Nat.succ_pos _

/-- A worker calls `KernelSchedulerYield`. -/
theorem cpu_calls_yield (h : Draining start w c) (hcontrol : w.machine.control = .user) (hc : c ≠ 0) {rest : List Op}
    (hcode : w.code c = .yield :: rest) : Draining start (w.step .cpu) c ∧ Nearer w (w.step .cpu) := by
  have halive := h.alive hcontrol
  have hstep : w.step .cpu = {
      machine := { w.machine with control := .yielding (.schedulerYield w.machine.sched.currentId) }
      code := Function.update w.code c rest } := by
    unfold Workload.step
    rw [hcontrol, h.waiting.current]
    dsimp only
    unfold Workload.next
    rw [if_neg hc, hcode]
    dsimp only
    unfold Machine.step
    rw [hcontrol]
    rfl
  rw [hstep]
  refine ⟨⟨h.waiting, ⟨Or.inr ⟨halive, trivial⟩, fun h0 => absurd h0 hc⟩, fun i hi => ?_⟩,
    nearer_of_op hc hcode halive rfl fun _ _ => rfl⟩
  by_cases hic : i = c
  · rw [hic]
    exact (h.fates c hc).goesOn halive halive
  · exact (h.fates i hi).same hi (.refl _) (Function.update_of_ne hic _ _)

/-- A worker calls `KernelThreadSleep`, which returns at once for no ticks. -/
theorem cpu_calls_sleep (h : Draining start w c) (hcontrol : w.machine.control = .user) (hc : c ≠ 0) {rest : List Op}
    {ticks : UInt64} (hcode : w.code c = .sleep ticks :: rest) :
    Draining start (w.step .cpu) c ∧ Nearer w (w.step .cpu) := by
  have halive := h.alive hcontrol
  have hstep : w.step .cpu = {
      machine := w.machine.reply (.threadSleep ticks) (fun _ => .unit) (kernelThreadSleep w.machine.sched ticks)
      code := Function.update w.code c rest } := by
    unfold Workload.step
    rw [hcontrol, h.waiting.current]
    dsimp only
    unfold Workload.next
    rw [if_neg hc, hcode]
    dsimp only
    unfold Machine.step
    rw [hcontrol]
    rfl
  have hsleep : kernelThreadSleep w.machine.sched ticks =
      if ticks = 0 then (.done (), w.machine.sched)
      else (.yields (.threadSleep (w.machine.sched.threads c).id ticks),
        w.machine.sched.setThread c { w.machine.sched.threads c with
          wakeTick := w.machine.sched.schedulerTick + ticks, state := .sleeping }) := by
    unfold kernelThreadSleep
    rw [h.waiting.current]
  rw [hstep, hsleep]
  by_cases hticks : ticks = 0
  · rw [if_pos hticks]
    refine ⟨⟨h.waiting, ?_, fun i hi => ?_⟩, nearer_of_op hc hcode halive rfl fun _ _ => rfl⟩
    · have hin := h.inStep
      unfold InStep at hin ⊢
      rw [hcontrol] at hin
      exact hin
    · by_cases hic : i = c
      · rw [hic]
        exact (h.fates c hc).goesOn halive halive
      · exact (h.fates i hi).same hi (.refl _) (Function.update_of_ne hic _ _)
  · rw [if_neg hticks]
    have hown : ((w.machine.sched.setThread c { w.machine.sched.threads c with
        wakeTick := w.machine.sched.schedulerTick + ticks, state := .sleeping }).threads c).state = .sleeping := by
      rw [State.setThread_threads, Function.update_self]
    have hsame : SameWorkers w.machine.sched (w.machine.sched.setThread c { w.machine.sched.threads c with
        wakeTick := w.machine.sched.schedulerTick + ticks, state := .sleeping }) := by
      intro i _
      by_cases hic : i = c
      · rw [hic, hown, halive]
        exact ⟨rfl, fun hno => absurd hno (by decide)⟩
      · rw [State.setThread_threads, Function.update_of_ne hic]
        exact ⟨rfl, fun _ => rfl⟩
    refine ⟨⟨sleeping_waiting h.waiting hc _, ⟨Or.inr ⟨?_, trivial⟩, fun h0 => absurd h0 hc⟩, fun i hi => ?_⟩,
      nearer_of_op hc hcode halive rfl fun i hi => (hsame i hi).1⟩
    · exact (congrArg ThreadState.alive hown).trans rfl
    · by_cases hic : i = c
      · rw [hic]
        exact (h.fates c hc).goesOn halive ((congrArg ThreadState.alive hown).trans rfl)
      · exact (h.fates i hi).same hi hsame (Function.update_of_ne hic _ _)

/-- A worker goes on in its entry function, or returns from it. -/
theorem cpu_worker (h : Draining start w c) (hcontrol : w.machine.control = .user) (hc : c ≠ 0) :
    Draining start (w.step .cpu) c ∧ Nearer w (w.step .cpu) := by
  cases hcode : w.code c with
  | nil => exact cpu_return h hcontrol hc hcode
  | cons op rest =>
      cases op with
      | yield => exact cpu_calls_yield h hcontrol hc hcode
      | sleep ticks => exact cpu_calls_sleep h hcontrol hc hcode

/-! ### A tick -/

theorem tick_waiting (h : Waiting s c) : Waiting (kernelSchedulerTimerTick s) c := by
  refine ⟨h.current, fun i hi => (timer_passed s i).single (h.single i hi), ?_,
    fun i hi hs => (timer_passed s i).resumes (h.resumes i hi) hs⟩
  rw [(timer_passed s 0).state]
  by_cases hc : c = 0
  · have hboot := h.boot
    rw [if_pos hc] at hboot ⊢
    rw [hboot]
    exact ite_eq_right_iff.mpr fun hrun => by
      rcases runnable_state hrun with hs | hs <;> rw [hboot] at hs <;> exact absurd hs (by decide)
  · rw [if_pos (h.boot_runnable hc), if_neg hc]

theorem tick_workers (s : State) : SameWorkers s (kernelSchedulerTimerTick s) := fun i _ => (timer_passed s i).alive

/-- The thread that is running still is, or a tick has woken it on its way into `Yield`. -/
theorem tick_up (hup : (s.threads c).state = .running ∨ (s.threads c).state = .ready) :
    ((kernelSchedulerTimerTick s).threads c).state = .running ∨ ((kernelSchedulerTimerTick s).threads c).state = .ready := by
  rw [(timer_passed s c).state]
  split
  next => exact Or.inr rfl
  next => exact hup

theorem tick_plain {rest : Continuation} (h : Plain (s.threads c) rest) :
    Plain ((kernelSchedulerTimerTick s).threads c) rest := by
  unfold Plain at h ⊢
  rw [(timer_passed s c).entry]
  exact h

theorem tick_step (h : InStep w.machine c) :
    w.step .tick = { w with machine := { w.machine with sched := kernelSchedulerTimerTick w.machine.sched } } := by
  have hmachine : w.machine.step .tick = { w.machine with sched := kernelSchedulerTimerTick w.machine.sched } := by
    unfold InStep at h
    unfold Machine.step
    cases hcontrol : w.machine.control with
    | halted reason =>
        rw [hcontrol] at h
        exact h.elim
    | _ => simp only [hcontrol]
  unfold Workload.step
  rw [hmachine]

theorem tick_inStep {m : Machine} (h : InStep m c) :
    InStep { m with sched := kernelSchedulerTimerTick m.sched } c := by
  have hpassed := timer_passed m.sched c
  unfold InStep at h ⊢
  dsimp only
  cases hcontrol : m.control with
  | user =>
      rw [hcontrol] at h
      exact tick_up h
  | yielding rest =>
      rw [hcontrol] at h
      obtain ⟨hmay, hworkers⟩ := h
      have hmay' : MayYield (kernelSchedulerTimerTick m.sched) c rest := by
        rcases hmay with ⟨hfin, hc⟩ | ⟨halive, hplain⟩
        · exact Or.inl ⟨(hpassed.alive.2 (by rw [hfin]; rfl)).trans hfin, hc⟩
        · exact Or.inr ⟨hpassed.alive.1.trans halive, tick_plain hplain⟩
      refine ⟨hmay', fun hc => ?_⟩
      obtain ⟨i, hi, hs⟩ := hworkers hc
      refine ⟨i, hi, ?_⟩
      rw [(timer_passed m.sched i).state]
      split
      next => exact Or.inl rfl
      next => exact hs
  | resuming rest =>
      rw [hcontrol] at h
      exact ⟨tick_plain h.1, tick_up h.2⟩
  | halted reason =>
      rw [hcontrol] at h
      exact h

/-- **A timer interrupt**, wherever it comes, brings nobody further from the end. -/
theorem tick_draining (h : Draining start w c) :
    Draining start (w.step .tick) c ∧ stepsLeft (w.step .tick) ≤ stepsLeft w := by
  rw [tick_step h.inStep]
  refine ⟨⟨tick_waiting h.waiting, tick_inStep h.inStep, fun i hi => (h.fates i hi).same hi (tick_workers _) rfl⟩, ?_⟩
  have hwork : work { w with machine := { w.machine with sched := kernelSchedulerTimerTick w.machine.sched } } = work w :=
    work_congr (tick_workers _) rfl
  have hrest : rest (kernelSchedulerTimerTick w.machine.sched) ≤ rest w.machine.sched :=
    rest_le rfl fun i _ => (timer_passed _ i).rested
  have hcur : (kernelSchedulerTimerTick w.machine.sched).currentThread = w.machine.sched.currentThread := rfl
  unfold stepsLeft
  rw [hwork]
  refine Nat.add_le_add_left ?_ _
  unfold phase
  dsimp only
  rw [hcur]
  split <;> omega

/-! ## The loop ends -/

/-- No worker is left that `RunnableWorkerCount` counts. -/
theorem runnableWorkerCount_eq_zero (hcur : s.currentThread = some 0) :
    runnableWorkerCount s = 0 ↔ ∀ i, i ≠ 0 → (s.threads i).state.alive = false := by
  unfold runnableWorkerCount
  rw [List.countP_eq_zero]
  refine ⟨fun h i hi => ?_, fun h i _ hi => ?_⟩
  · have hnot := h i (List.mem_finRange i)
    rw [decide_eq_true_eq, hcur] at hnot
    have hne : some (0 : Fin kMaxThreads) ≠ some i := fun heq => hi (Option.some.inj heq).symm
    cases hs : (s.threads i).state with
    | empty | finished | blocked => rfl
    | ready | running | sleeping => exact absurd ⟨hne, by rw [hs]; decide, by rw [hs]; decide, by rw [hs]; decide⟩ hnot
  · obtain ⟨hne, hempty, hfin, hblocked⟩ := of_decide_eq_true hi
    have hdead := h i fun h0 => hne (by rw [h0, hcur])
    cases hs : (s.threads i).state <;> simp_all [ThreadState.alive]

theorem SameWorkers.drained (hsame : SameWorkers s s') (hcur : s.currentThread = some 0)
    (hcur' : s'.currentThread = some 0) (h : runnableWorkerCount s = 0) : runnableWorkerCount s' = 0 := by
  rw [runnableWorkerCount_eq_zero hcur] at h
  rw [runnableWorkerCount_eq_zero hcur']
  exact fun i hi => (hsame i hi).1.trans (h i hi)

/-- The processor goes on, until the loop is over. -/
theorem cpu_draining (h : Draining start w c) (hnot : ¬ Drained w) :
    ∃ c', Draining start (w.step .cpu) c' ∧ Nearer w (w.step .cpu) := by
  cases hcontrol : w.machine.control with
  | user =>
      by_cases hc : c = 0
      · subst hc
        refine ⟨0, cpu_boot h hcontrol (Nat.pos_of_ne_zero fun hzero => hnot ⟨hcontrol, h.waiting.current, hzero⟩)⟩
      · exact ⟨c, cpu_worker h hcontrol hc⟩
  | yielding rest => exact cpu_yielding h hcontrol
  | resuming rest => exact cpu_resuming h hcontrol
  | halted reason =>
      have hin := h.inStep
      unfold InStep at hin
      rw [hcontrol] at hin
      exact hin.elim

theorem drained_cpu (h : Drained w) : w.step .cpu = w := by
  obtain ⟨hcontrol, hcur, hcount⟩ := h
  unfold Workload.step
  rw [hcontrol, hcur]
  dsimp only
  unfold Workload.next
  rw [if_pos rfl, hcount]
  exact if_neg (Nat.lt_irrefl 0)

theorem draining_ranked (start : Workload) :
    Lib.Ranked Workload.step (fun w => ∃ c, Draining start w c) Drained (fun move => move == .cpu) stepsLeft where
  keeps := by
    rintro w move ⟨c, h⟩
    cases move with
    | tick => exact ⟨c, (tick_draining h).1⟩
    | cpu =>
        by_cases hdone : Drained w
        · rw [drained_cpu hdone]
          exact ⟨c, h⟩
        · exact (cpu_draining h hdone).imp fun _ => And.left
  stays := by
    rintro w move ⟨c, h⟩ hdone
    cases move with
    | tick =>
        rw [tick_step h.inStep]
        exact ⟨hdone.1, hdone.2.1, (tick_workers _).drained hdone.2.1 hdone.2.1 hdone.2.2⟩
    | cpu => rwa [drained_cpu hdone]
  waits := by
    rintro w move ⟨c, h⟩ - hown
    cases move with
    | tick => exact (tick_draining h).2
    | cpu => exact absurd hown (by decide)
  lowers := by
    rintro w move ⟨c, h⟩ hnot hown
    cases move with
    | tick => exact absurd hown (by decide)
    | cpu =>
        obtain ⟨_, -, hnearer⟩ := cpu_draining h hnot
        exact hnearer.stepsLeft

/-- The bootstrap thread is in its loop. -/
theorem draining_start (heap : { h : KernelHeap // h.InBlock }) (as : List Action) (code : Fin kMaxThreads → List Op)
    (huser : (reached heap as).control = .user) (hcur : (reached heap as).sched.currentThread = some 0)
    (hrun : ((reached heap as).sched.threads 0).state = .running)
    (hplain : ∀ i, i ≠ 0 → ((reached heap as).sched.threads i).state = .ready ∨
      ((reached heap as).sched.threads i).state = .sleeping →
      Plain ((reached heap as).sched.threads i) ((reached heap as).sched.threads i).context) :
    Draining ⟨reached heap as, code⟩ ⟨reached heap as, code⟩ 0 := by
  refine ⟨⟨hcur, fun i hi hs => ?_, by rw [if_pos rfl, hrun], hplain⟩, ?_, fun i _ => ?_⟩
  · exact hi (Option.some.inj ((reached_running heap as hs).symm.trans hcur))
  · unfold InStep
    dsimp only
    rw [huser]
    exact Or.inl hrun
  · unfold Fate
    split
    next halive => exact Or.inl halive
    next => exact ⟨rfl, rfl⟩

/-- Two workers, as the self-test creates them. -/
def twoWorkers : List Action :=
  [.call (.createProcess none), .call (.createThread 2 none 1 0), .call (.createThread 2 none 1 0)]

/-- One runs `DemoThreadMain`, the other sleeps first. -/
def twoCodes (i : Fin kMaxThreads) : List Op := if i = 1 then demoThreadMain 2 else .sleep 3 :: demoThreadMain 3

end Scheduler
end UefiBoot
