import UefiBoot.Scheduler.Tables

/-!
# `Scheduler.Current` — the slot of the running thread

`KernelPthreadJoin` refuses to join the current thread, so it never empties the slot that the processor is in.
`KernelTerminateProcess` has no such test: called by a thread for its own process, it empties the slot of the thread that
goes on running, and the next `KernelCreateThread` may put another thread there. Nothing else empties the current slot: it
is in use throughout a run exactly when no thread ends its own process (`current_in_use_iff`).
-/

namespace UefiBoot
namespace Scheduler

/-- The slot of the current thread is in use, and it is not the one that `KernelCreateThread` would take. -/
def CurrentInUse (m : Machine) : Prop :=
  ∀ c, m.sched.currentThread = some c → (m.sched.threads c).state ≠ .empty ∧ m.sched.findThreadSlot ≠ some c

/-- A running thread does not end its own process. -/
def EndsNotOwn (m : Machine) (a : Action) : Prop := m.control = .user → SparesOwn m a

variable {m : Machine} {a : Action}

theorem OnProcessor.currentInUse (h : OnProcessor m) : CurrentInUse m := by
  intro c hc
  have hused := h.onCpu c hc
  exact ⟨hused, fun hslot => hused (State.findThreadSlot_some hslot)⟩

/-- The thread that ends its own process leaves itself an empty slot. -/
theorem OnProcessor.endsNotOwn (h : OnProcessor m) (hafter : CurrentInUse (m.step a)) : EndsNotOwn m a := by
  intro hu
  cases a with
  | call c =>
      cases c with
      | terminateProcess pid code =>
          by_contra hown
          obtain ⟨hsome, hpid⟩ := not_or.mp hown
          obtain ⟨k, hterm⟩ := Option.ne_none_iff_exists'.mp hsome
          obtain ⟨c, hc⟩ := h.wf.current
          have hcur : (m.step (.call (.terminateProcess pid code))).sched.currentThread = some c := by
            rcases (h.wf.effect (.call (.terminateProcess pid code))).current_cases with hsame | ⟨n, rest, hrun, -⟩
            · exact hsame.trans hc
            · cases hrun
          have hprocess : (m.sched.threads c).processId = pid := by
            have hpid' := not_not.mp hpid
            unfold State.currentProcessId at hpid'
            rwa [hc] at hpid'
          refine (hafter c hcur).1 ?_
          rw [Tables.terminate_threads hu hterm, survivors_state, if_pos hprocess]
      | _ => trivial
  | _ => trivial

/-- **When the running thread keeps its slot.** In a run from boot, in every state the slot of the current thread is in use
    and not the one that `KernelCreateThread` takes, exactly when no running thread ends its own process. -/
theorem current_in_use_iff (heap : { h : KernelHeap // h.InBlock }) (as : List Action) :
    Lib.Throughout Machine.step CurrentInUse (Machine.boot heap) as ↔
      Lib.Along Machine.step EndsNotOwn (Machine.boot heap) as :=
  Lib.throughout_iff_of_safe (fun _ _ h hsafe => h.step hsafe) (fun _ h => h.currentInUse)
    (fun _ _ h hafter => h.endsNotOwn hafter) (onProcessor_boot heap) as

/-- A thread of process 2 runs, ends its process and creates a thread for the kernel. -/
def ownEnd : List Action :=
  [.call (.createProcess none), .call (.createThread 2 none 1 0), .call .schedulerYield, .run, .run,
    .call (.terminateProcess 2 0), .call (.createThread 1 none 1 0)]

/-- The new thread 3 is in the slot of the code that runs. -/
theorem current_recycled :
    ¬ Lib.Throughout Machine.step CurrentInUse (Machine.boot heapAt2MiB) (ownEnd.take 6) ∧
      (reached heapAt2MiB ownEnd).sched.currentThread = some 1 ∧
      ((reached heapAt2MiB (ownEnd.take 6)).sched.threads 1).id = 2 ∧
      ((reached heapAt2MiB ownEnd).sched.threads 1).id = 3 := by
  refine ⟨fun h => ?_, by decide +kernel, by decide +kernel, by decide +kernel⟩
  exact (h.last 1 (by decide +kernel)).1 (by decide +kernel)

end Scheduler
end UefiBoot
