import UefiBoot.Lib.Rotation
import UefiBoot.Scheduler.Yield

/-!
# `Scheduler.Selection` — whom `FindNextRunnable` chooses

The function first wakes the sleepers whose time has come and then scans all slots, beginning behind the current thread
and ending with it. Its choice does not depend on the scan: `findNextRunnable_selects` says it from the states and
priorities of the threads alone. A thread that is woken in the first loop is a candidate in the second.
-/

namespace UefiBoot
namespace Scheduler

/-- Thread `i` comes first: it is Ready, it has the highest priority of the Ready threads, and of those with that priority
    it is the nearest behind `current` in the cyclic order of the slots. -/
def Foremost (s : State) (current i : Fin kMaxThreads) : Prop :=
  (s.threads i).state = .ready ∧
  (∀ j, (s.threads j).state = .ready → (s.threads j).priority ≤ (s.threads i).priority) ∧
  ∀ j, (s.threads j).state = .ready → (s.threads j).priority = (s.threads i).priority →
    Lib.distance current i ≤ Lib.distance current j

/-- What `FindNextRunnable` is for: from `s` to `s'` while `current` runs. -/
structure Selects (s : State) (current : Fin kMaxThreads) (choice : Option (Fin kMaxThreads)) (s' : State) : Prop where
  woken  : ∀ i, (s.threads i).state = .sleeping → (s.threads i).wakeTick ≤ s.schedulerTick →
    s'.threads i = { s.threads i with state := .ready, wakeTick := 0 }
  kept   : ∀ i, ¬ ((s.threads i).state = .sleeping ∧ (s.threads i).wakeTick ≤ s.schedulerTick) →
    s'.threads i = s.threads i
  rest   : s' = { s with threads := s'.threads }
  idle   : choice = none ↔ ∀ i, (s'.threads i).state ≠ .ready
  chosen : ∀ i, choice = some i ↔ Foremost s' current i

/-- The choice among the threads as they are. -/
theorem pickBest_foremost {s : State} {current i : Fin kMaxThreads} :
    Lib.pickBest (fun i => (s.threads i).state == .ready) (fun i => (s.threads i).priority.toNat)
      (Lib.cyclicAfter current) = some i ↔ Foremost s current i := by
  unfold Foremost
  rw [Lib.pickBest_cyclicAfter_iff]
  simp only [beq_iff_eq, UInt8.le_iff_toNat_le, UInt8.toNat_inj]

theorem pickBest_idle {s : State} {current : Fin kMaxThreads} :
    Lib.pickBest (fun i => (s.threads i).state == .ready) (fun i => (s.threads i).priority.toNat)
      (Lib.cyclicAfter current) = none ↔ ∀ i, (s.threads i).state ≠ .ready := by
  rw [Lib.pickBest_eq_none_iff]
  constructor
  · intro h i
    have hnot := h i (Lib.mem_cyclicAfter current i)
    simpa using hnot
  · intro h i _
    simpa using h i

/-- **`FindNextRunnable` chooses who comes first**, among the threads with the due sleepers woken. -/
theorem findNextRunnable_selects (s : State) (current : Fin kMaxThreads) (hcur : s.currentThread = some current) :
    Selects s current (findNextRunnable s).1 (findNextRunnable s).2 := by
  have hstate : (findNextRunnable s).2 = s.wakeSleepers := by
    unfold findNextRunnable
    rw [hcur]
  have hchoice : (findNextRunnable s).1 =
      Lib.pickBest (fun i => (s.wakeSleepers.threads i).state == .ready)
        (fun i => (s.wakeSleepers.threads i).priority.toNat) (Lib.cyclicAfter current) := by
    unfold findNextRunnable
    rw [hcur]
  rw [hstate, hchoice]
  constructor
  case woken =>
    intro i hsleeping htime
    exact if_pos ⟨hsleeping, htime⟩
  case kept =>
    intro i hnot
    exact if_neg hnot
  case rest => rfl
  case idle => exact pickBest_idle
  case chosen => exact fun i => pickBest_foremost

/-- Slot 5 runs. A thread behind it has overslept, one before it is Ready, and both have the same priority. -/
theorem findNextRunnable_selects_overslept :
    let s : State :=
      { threads := fun i =>
          if i = 3 then { state := .ready, priority := 8 }
          else if i = 5 then { state := .running, priority := 8 }
          else if i = 120 then { state := .sleeping, wakeTick := 7, priority := 8 }
          else {}
        currentThread := some 5
        schedulerTick := 9 }
    Selects s 5 (findNextRunnable s).1 (findNextRunnable s).2 :=
  findNextRunnable_selects _ 5 rfl

end Scheduler
end UefiBoot
