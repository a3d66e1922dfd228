import UefiBoot.Scheduler.Stacks

/-!
# `Scheduler.Exec` — what a failed `KernelExecProcess` leaves behind

`KernelExecProcess` checks its arguments, writes the new name over the process entry and clears its message queue, and
then calls `KernelCreateThread`, which can still find no thread slot or no stack. Nothing is put back then.
`execProcess_unchanged_iff` says when a failed call leaves the tables as they were: the thread could not have been
refused, or the entry held the new name and a cleared queue already.
-/

namespace UefiBoot
namespace Scheduler

/-- The process entry as `KernelExecProcess` writes it before it creates the thread. -/
def Process.replaced (p : Process) (imageName : Option String) : Process :=
  { p with name := imageName, ipcHead := 0, ipcTail := 0, ipcCount := 0, ipcQueue := fun _ => 0 }

/-- There is a slot and a stack for one thread more. -/
def State.CanCreateThread (s : State) : Prop := s.findThreadSlot ≠ none ∧ s.heap.stackRoom ≠ 0

instance (s : State) : Decidable s.CanCreateThread := inferInstanceAs (Decidable (_ ∧ _))

/-- The process table and the thread table are the same. -/
def SameTables (s s' : State) : Prop := s'.processes = s.processes ∧ s'.threads = s.threads

section Creation

variable {s : State} {pid entry : UInt64}

/-- `KernelCreateThread` for an active process, with an entry and with ids left, needs a slot and a stack. -/
theorem createThread_ne_zero (hb : s.heap.InBlock) (hproc : s.findProcess pid ≠ none) (hentry : entry ≠ 0)
    (hnext : s.nextThreadId ≠ 0) (name : Option String) (argument : UInt64) :
    (kernelCreateThread s pid name entry argument).1 ≠ 0 ↔ s.CanCreateThread := by
  unfold State.CanCreateThread
  cases hslot : s.findThreadSlot with
  | none =>
    refine iff_of_false (fun hne => hne ?_) fun hcan => hcan.1 rfl
    unfold kernelCreateThread
    rw [if_neg (not_or.mpr ⟨hproc, hentry⟩), hslot]
  | some i =>
    have hnull := createThread_null_iff hproc hentry ⟨i, hslot⟩ hnext name argument
    rw [ne_eq, hnull]
    rcases KernelHeap.allocate_stack hb with ⟨hzero, hrefused⟩ | ⟨hblock, hone⟩
    · rw [hrefused]
      exact iff_of_false (fun hne => hne rfl) fun hcan => hcan.2 hzero
    · exact iff_of_true hblock ⟨Option.some_ne_none i, by omega⟩

/-- `KernelCreateThread` writes to no process, and one that fails to no thread. -/
theorem createThread_tables (hb : s.heap.InBlock) (hnext : s.nextThreadId ≠ 0) (pid : UInt64) (name : Option String)
    (entry argument : UInt64) :
    (kernelCreateThread s pid name entry argument).2.processes = s.processes ∧
      ((kernelCreateThread s pid name entry argument).1 = 0 →
        (kernelCreateThread s pid name entry argument).2.threads = s.threads) := by
  rcases createThread_cases hb pid name entry argument with h | ⟨i, stack, heap, -, -, -, -, h⟩
  · rw [h]
    exact ⟨rfl, fun _ => rfl⟩
  · rw [h]
    exact ⟨rfl, fun hz => absurd hz hnext⟩

end Creation

section Exec

variable {s : State} {pid entry : UInt64} {name : Option String} {i : Fin kMaxProcesses}

/-- A write to a process entry that keeps its id and its activity keeps what is found. -/
theorem findProcess_replaced (s : State) (i : Fin kMaxProcesses) (name : Option String) (pid : UInt64) :
    (s.setProcess i ((s.processes i).replaced name)).findProcess pid = s.findProcess pid := by
  unfold State.findProcess
  congr 1
  funext k
  rw [State.setProcess_processes]
  by_cases hk : k = i
  · rw [hk, Function.update_self]
    rfl
  · rw [Function.update_of_ne hk]

/-- The call is refused before it writes anything. -/
theorem execProcess_refused (hno : ∀ i, s.findProcess pid = some i → name = none ∨ entry = 0) (argument : UInt64) :
    kernelExecProcess s pid name entry argument = (false, s) := by
  unfold kernelExecProcess
  cases hfind : s.findProcess pid with
  | none => rfl
  | some i =>
    dsimp only
    rw [if_pos (hno i hfind)]

/-- The call replaces the process entry and creates the thread. -/
theorem execProcess_goes (hfind : s.findProcess pid = some i) (hname : name ≠ none) (hentry : entry ≠ 0)
    (argument : UInt64) :
    let created := kernelCreateThread (s.setProcess i ((s.processes i).replaced name)) pid name entry argument
    kernelExecProcess s pid name entry argument = (decide (created.1 ≠ 0), created.2) := by
  intro created
  unfold kernelExecProcess
  rw [hfind]
  dsimp only
  rw [if_neg (not_or.mpr ⟨hname, hentry⟩)]
  rfl

/-- **A failed `KernelExecProcess` changes nothing** exactly when it was refused for its arguments, the thread could
    have been created, or the process entry was written with what it held. -/
theorem execProcess_unchanged_iff (heap : { h : KernelHeap // h.InBlock }) (as : List Action) (pid : UInt64)
    (name : Option String) (entry argument : UInt64) :
    let s := (reached heap as).sched
    ((kernelExecProcess s pid name entry argument).1 = false →
        SameTables s (kernelExecProcess s pid name entry argument).2) ↔
      ∀ i, s.findProcess pid = some i → name ≠ none → entry ≠ 0 →
        s.CanCreateThread ∨ (s.processes i).replaced name = s.processes i := by
  have hw := wf_reached heap as
  intro s
  by_cases hgoes : ∃ i, s.findProcess pid = some i ∧ name ≠ none ∧ entry ≠ 0
  · obtain ⟨i, hfind, hname, hentry⟩ := hgoes
    have hproc : (s.setProcess i ((s.processes i).replaced name)).findProcess pid ≠ none := by
      rw [findProcess_replaced, hfind]
      exact Option.some_ne_none i
    have hcan := createThread_ne_zero (s := s.setProcess i ((s.processes i).replaced name)) hw.heap hproc hentry
      hw.nextThreadId_ne name argument
    obtain ⟨hprocesses, hthreads⟩ := createThread_tables (s := s.setProcess i ((s.processes i).replaced name)) hw.heap
      hw.nextThreadId_ne pid name entry argument
    -- the tables that the call leaves are those with the entry replaced
    have hsame : (s.setProcess i ((s.processes i).replaced name)).processes = s.processes ↔
        (s.processes i).replaced name = s.processes i := Function.update_eq_self_iff
    rw [execProcess_goes hfind hname hentry]
    dsimp only
    rw [decide_eq_false_iff_not]
    constructor
    · intro hatomic k hk _ _
      have hki : k = i := Option.some.inj (hk.symm.trans hfind)
      rw [hki]
      by_cases hroom : s.CanCreateThread
      · exact Or.inl hroom
      · have hunchanged := hatomic fun hne => hroom (hcan.mp hne)
        exact Or.inr (hsame.mp (hprocesses.symm.trans hunchanged.1))
    · intro hcond hfailed
      have hkept : (s.processes i).replaced name = s.processes i :=
        (hcond i hfind hname hentry).resolve_left fun hroom => hfailed (hcan.mpr hroom)
      exact ⟨hprocesses.trans (hsame.mpr hkept), hthreads (not_not.mp hfailed)⟩
  · push Not at hgoes
    have hrefused : ∀ i, s.findProcess pid = some i → name = none ∨ entry = 0 := by
      intro i hfind
      by_cases hname : name = none
      · exact Or.inl hname
      · exact Or.inr (hgoes i hfind hname)
    rw [execProcess_refused hrefused]
    refine iff_of_true (fun _ => ⟨rfl, rfl⟩) fun i hfind hname hentry => ?_
    exact absurd (hgoes i hfind hname) hentry

end Exec

/-- A process with a name and a message, and as many threads as the heap has stacks for. -/
def lastStacks : List Action :=
  [.call (.createProcess (some "init")), .call (.ipcSend 2 5)] ++
    List.replicate 64 (.call (.createThread 2 none 1 0))

/-- No stack for the new thread: the call returns false, and the name and the message are gone. -/
theorem execProcess_failed_clears :
    let s := (reached heapAt2MiB lastStacks).sched
    (kernelExecProcess s 2 (some "image") 1 0).1 = false ∧
      ((s.processes 1).name = some "init" ∧ (s.processes 1).ipcCount = 1) ∧
      (((kernelExecProcess s 2 (some "image") 1 0).2.processes 1).name = some "image" ∧
        ((kernelExecProcess s 2 (some "image") 1 0).2.processes 1).ipcCount = 0) := by
  decide +kernel

end Scheduler
end UefiBoot
