import UefiBoot.Lib.Rotation
import UefiBoot.Scheduler.Tables

/-!
# `Scheduler.RoundRobin` — threads of one priority take turns

`FindNextRunnable` starts behind the slot of the current thread and keeps a later candidate only if its priority is
higher, so among threads of one priority it finds the nearest behind the current one. The current thread is not among the
candidates: it is made Ready after the choice. If nothing but `KernelSchedulerYield` is called, the threads of the highest
priority therefore run in the cyclic order of their slots, whatever slots they are in (`InTurn.yield`), and those of a
lower priority never run (`round_robin`).
-/

namespace UefiBoot
namespace Scheduler

/-- The state after `n` calls of `KernelSchedulerYield`, made by code that goes on as `rest`. -/
def afterYields (s : State) (rest : Nat → Continuation) : Nat → State
  | 0     => s
  | n + 1 => (kernelSchedulerYield (afterYields s rest n) (rest n)).2

/-- The threads that can run and have the priority of thread `c`. -/
def contenders (s : State) (c : Fin kMaxThreads) : Finset (Fin kMaxThreads) :=
  Finset.univ.filter fun i =>
    ((s.threads i).state = .ready ∨ (s.threads i).state = .running) ∧ (s.threads i).priority = (s.threads c).priority

variable {s : State} {c n : Fin kMaxThreads} {T : Finset (Fin kMaxThreads)} {top : UInt8} {rest : Continuation}

/-- It is the turn of `c` among the threads `T`, which all have the priority `top`. -/
structure InTurn (T : Finset (Fin kMaxThreads)) (top : UInt8) (c : Fin kMaxThreads) (s : State) : Prop where
  current  : s.currentThread = some c
  running  : (s.threads c).state = .running
  waiting  : ∀ i ∈ T, i ≠ c → (s.threads i).state = .ready
  priority : ∀ i ∈ T, (s.threads i).priority = top
  outside  : ∀ i, i ∉ T → (s.threads i).state = .ready → (s.threads i).priority < top
  awake    : ∀ i, (s.threads i).state ≠ .sleeping

namespace InTurn

/-- When nobody sleeps, the first half of `Yield` leaves the states as they are. -/
theorem yielded_state (h : InTurn T top c s) (i : Fin kMaxThreads) :
    ((yielded s).threads i).state = (s.threads i).state := by
  rw [Scheduler.yielded_state h.current, if_neg fun hs => h.awake i hs.1]

/-- The scan finds who has the next turn. -/
theorem next {hT : 0 < T.card} {m : Nat} (h : InTurn T top (Lib.seat T hT m) s) (htwo : 2 ≤ T.card) :
    nextReady (yielded s) (Lib.seat T hT m) = some (Lib.seat T hT (m + 1)) := by
  unfold nextReady
  refine Lib.pickBest_seat top.toNat htwo m (fun i hi => ?_) (fun i hi => ?_) fun i hi hready => ?_
  · rw [yielded_priority h.current, h.priority i hi]
  · rw [beq_iff_eq, h.yielded_state]
    constructor
    · -- the current thread is not Ready yet
      rintro hready rfl
      rw [h.running] at hready
      cases hready
    · exact h.waiting i hi
  · rw [beq_iff_eq, h.yielded_state] at hready
    rw [yielded_priority h.current]
    exact UInt8.lt_iff_toNat_lt.mp (h.outside i hi hready)

/-- A switch from one of the threads to another passes the turn on. -/
theorem switch (h : InTurn T top c s) (hc : c ∈ T) (hn : n ∈ T) (hne : n ≠ c) :
    InTurn T top n (yieldSwitch (yielded s) c n rest) := by
  have hrunnable : ∀ i, Runnable s i ↔ (s.threads i).state = .ready := by
    intro i
    unfold Runnable
    exact or_iff_left fun hs => h.awake i hs.1
  have hstate : ∀ i, ((yieldSwitch (yielded s) c n rest).threads i).state =
      if i = n then .running else if i = c then .ready else (s.threads i).state := by
    intro i
    rw [switched_state h.current hne, switchedState]
    by_cases hin : i = n
    · rw [if_pos hin, if_pos hin]
    · rw [if_neg hin, if_neg hin]
      by_cases hic : i = c
      · rw [if_pos hic, if_pos (Or.inr ⟨hic, h.running⟩)]
      · rw [if_neg hic]
        split_ifs with hready
        · rcases hready with hready | hcur
          · exact ((hrunnable i).mp hready).symm
          · exact absurd hcur.1 hic
        · rfl
  constructor
  case current => exact (yieldSwitch_others (yielded s) c n rest).1
  case running => rw [hstate, if_pos rfl]
  case waiting =>
    intro i hi hin
    rw [hstate, if_neg hin]
    split_ifs with hic
    · rfl
    · exact h.waiting i hi hic
  case priority =>
    intro i hi
    rw [switched_priority h.current hne]
    exact h.priority i hi
  case outside =>
    intro i hi hready
    have hin : i ≠ n := fun hin => hi (hin ▸ hn)
    have hic : i ≠ c := fun hic => hi (hic ▸ hc)
    rw [hstate, if_neg hin, if_neg hic] at hready
    rw [switched_priority h.current hne]
    exact h.outside i hi hready
  case awake =>
    intro i
    rw [hstate]
    split_ifs
    · decide
    · decide
    · exact h.awake i

/-- **One `Yield`** passes the turn on to who is next. -/
theorem yield {hT : 0 < T.card} {m : Nat} (h : InTurn T top (Lib.seat T hT m) s) (htwo : 2 ≤ T.card)
    (rest : Continuation) : InTurn T top (Lib.seat T hT (m + 1)) (kernelSchedulerYield s rest).2 := by
  have hne := Lib.seat_succ_ne hT htwo m
  rw [yield_switches h.current rest (h.next htwo) hne]
  exact h.switch (Lib.seat_mem m) (Lib.seat_mem (m + 1)) hne

theorem yields {hT : 0 < T.card} {m : Nat} (h : InTurn T top (Lib.seat T hT m) s) (htwo : 2 ≤ T.card)
    (rest : Nat → Continuation) (n : Nat) : InTurn T top (Lib.seat T hT (m + n)) (afterYields s rest n) := by
  induction n with
  | zero => exact h
  | succ n ih => exact ih.yield htwo (rest n)

end InTurn

/-- In every run only the current thread is Running. -/
theorem reached_running (heap : { h : KernelHeap // h.InBlock }) (as : List Action) {i : Fin kMaxThreads}
    (hi : ((reached heap as).sched.threads i).state = .running) : (reached heap as).sched.currentThread = some i := by
  have hboth : Wf (reached heap as) ∧
      ∀ j, ((reached heap as).sched.threads j).state = .running → (reached heap as).sched.currentThread = some j :=
    Lib.run_invariant
      (I := fun m => Wf m ∧ ∀ j, (m.sched.threads j).state = .running → m.sched.currentThread = some j)
      (fun m a h => ⟨h.1.step a, fun _ hj => (h.1.effect a).running_current h.2 hj⟩)
      ⟨wf_boot heap, (tables_boot heap).running⟩ as
  exact hboth.2 i hi

/-- The threads that share the highest priority are in turn. -/
theorem inTurn_contenders (hcur : s.currentThread = some c) (hrun : (s.threads c).state = .running)
    (honly : ∀ i, (s.threads i).state = .running → s.currentThread = some i)
    (htop : ∀ i, (s.threads i).state = .ready ∨ (s.threads i).state = .running →
      (s.threads i).priority ≤ (s.threads c).priority)
    (hawake : ∀ i, (s.threads i).state ≠ .sleeping) :
    InTurn (contenders s c) (s.threads c).priority c s where
  current  := hcur
  running  := hrun
  waiting  := by
    intro i hi hic
    rcases (Finset.mem_filter.mp hi).2.1 with hready | hrunning
    · exact hready
    · exact absurd (Option.some.inj ((honly i hrunning).symm.trans hcur)) hic
  priority := fun i hi => (Finset.mem_filter.mp hi).2.2
  outside  := by
    intro i hi hready
    refine UInt8.lt_of_le_of_ne (htop i (Or.inl hready)) fun hsame => hi ?_
    exact Finset.mem_filter.mpr ⟨Finset.mem_univ i, Or.inl hready, hsame⟩
  awake    := hawake

/-- **Round robin.** In every state that a run reaches, let the current thread be Running with the highest priority of the
    threads that can run, let `k` of them, two at least, have this priority, and let no thread sleep. If only
    `KernelSchedulerYield` is called from then on, the same thread runs after `n` calls and after `n + k`, in any `k`
    calls in a row each of the `k` threads is chosen exactly once, and no other thread ever runs. -/
theorem round_robin (heap : { h : KernelHeap // h.InBlock }) (as : List Action) (c : Fin kMaxThreads)
    (hcur : (reached heap as).sched.currentThread = some c)
    (hrun : ((reached heap as).sched.threads c).state = .running)
    (htop : ∀ i, ((reached heap as).sched.threads i).state = .ready ∨
      ((reached heap as).sched.threads i).state = .running →
      ((reached heap as).sched.threads i).priority ≤ ((reached heap as).sched.threads c).priority)
    (htwo : 2 ≤ (contenders (reached heap as).sched c).card)
    (hawake : ∀ i, ((reached heap as).sched.threads i).state ≠ .sleeping) (rest : Nat → Continuation) :
    let s := (reached heap as).sched
    let turn := fun n => (afterYields s rest n).currentThread
    let k := (contenders s c).card
    (∀ n, turn (n + k) = turn n) ∧
      (∀ n, ∀ i ∈ contenders s c, ∃! m, m < k ∧ turn (n + m) = some i) ∧
      ∀ n, ∃ i ∈ contenders s c, turn n = some i ∧ ((afterYields s rest n).threads i).state = .running ∧
        ((afterYields s rest n).threads i).priority = (s.threads c).priority := by
  intro s turn k
  have hT : 0 < (contenders s c).card := Nat.lt_of_lt_of_le Nat.two_pos htwo
  have hin : InTurn (contenders s c) (s.threads c).priority c s :=
    inTurn_contenders hcur hrun (fun _ hi => reached_running heap as hi) htop hawake
  have hc : c ∈ contenders s c := Finset.mem_filter.mpr ⟨Finset.mem_univ c, Or.inr hrun, rfl⟩
  obtain ⟨m, -, hseat⟩ := Lib.exists_seat hT hc
  have hyields : ∀ n, InTurn (contenders s c) (s.threads c).priority (Lib.seat (contenders s c) hT (m + n))
      (afterYields s rest n) := fun n => InTurn.yields (by rw [hseat]; exact hin) htwo rest n
  have hturn : ∀ n, turn n = some (Lib.seat (contenders s c) hT (m + n)) := fun n => (hyields n).current
  refine ⟨fun n => ?_, fun n i hi => ?_, fun n => ?_⟩
  · rw [hturn, hturn, ← Nat.add_assoc, Lib.seat_add_card]
  · simp only [hturn, Option.some.injEq, ← Nat.add_assoc]
    exact Lib.seat_once hi (m + n)
  · exact ⟨_, Lib.seat_mem _, hturn n, (hyields n).running, (hyields n).priority _ (Lib.seat_mem _)⟩

/-- The kernel's thread and two others of its priority, one of which runs when the yields begin. -/
def threeThreads : List Action :=
  [.call (.createProcess none), .call (.createThread 2 none 1 0), .call (.createThread 2 none 1 0),
    .call .schedulerYield, .run, .run]

theorem round_robin_three :
    let s := (reached heapAt2MiB threeThreads).sched
    ∀ n, (afterYields s (fun _ => .schedulerYield 0) (n + (contenders s 1).card)).currentThread =
      (afterYields s (fun _ => .schedulerYield 0) n).currentThread :=
  (round_robin heapAt2MiB threeThreads 1 (by decide +kernel) (by decide +kernel) (by decide +kernel) (by decide +kernel)
    (by decide +kernel) fun _ => .schedulerYield 0).1

end Scheduler
end UefiBoot
