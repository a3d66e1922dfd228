import UefiBoot.Memory.HeapBlocks
import UefiBoot.Scheduler.ProcessTable
import UefiBoot.Scheduler.Wf

/-!
# `Scheduler.Stacks` — how many threads one boot can create

A thread's slot is emptied when it is joined or its process ends, and used again. Its stack is not: it comes from
the bump allocator of `KernelHeap`, which has no way to give anything back. `KernelHeap.stackRoom` counts the stacks
a heap still has room for; each creation takes one and nothing returns one (`stacks_reached`). So the size of the
heap bounds the threads of the whole boot, and `createThread_fails_iff` says that nothing else does while a slot
is free.
-/

namespace UefiBoot

/-! ## Stacks in a heap -/

namespace KernelHeap

/-- The stacks `Allocate` can still hand out. -/
def stackRoom (h : KernelHeap) : Nat :=
  (h.mEnd.toNat - (Lib.alignUp h.mCurrent 16).toNat) / Scheduler.kThreadStackSize.toNat

/-- An aligned address is not moved. -/
theorem alignUp_of_aligned {v : UInt64} (hv : v.toNat % 16 = 0) (hlt : v.toNat + 16 < 2 ^ 64) :
    Lib.alignUp v 16 = v := by
  have hpow : (16 : UInt64).toNat = 2 ^ 4 := rfl
  obtain ⟨hlo, hhi⟩ := Lib.toNat_alignUp_bounds (v := v) hpow hlt
  have hmod : (Lib.alignUp v 16).toNat % (16 : UInt64).toNat = 0 := Lib.toNat_alignDown_mod hpow
  have hval : (16 : UInt64).toNat = 16 := rfl
  rw [hval] at hhi hmod
  apply UInt64.toNat_inj.mp
  omega

/-- **A stack is taken from the heap exactly when there is room for one**, and then there is room for one less. -/
theorem allocate_stack {h : KernelHeap} (hb : h.InBlock) :
    (h.stackRoom = 0 ∧ h.allocate Scheduler.kThreadStackSize 16 = (0, h)) ∨
      ((h.allocate Scheduler.kThreadStackSize 16).1 ≠ 0 ∧
        (h.allocate Scheduler.kThreadStackSize 16).2.stackRoom + 1 = h.stackRoom) := by
  have hsize : Scheduler.kThreadStackSize.toNat = 8192 := rfl
  have hval : (16 : UInt64).toNat = 16 := rfl
  have hpow : (16 : UInt64).toNat = 2 ^ 4 := rfl
  have hlim : h.mEnd.toNat ≤ 4294967296 := UInt64.le_iff_toNat_le.mp hb.2.2.2
  have hcur := UInt64.le_iff_toNat_le.mp hb.2.2.1
  obtain ⟨hlo, hhi⟩ := Lib.toNat_alignUp_bounds (v := h.mCurrent) hpow (by omega)
  have hmod : (Lib.alignUp h.mCurrent 16).toNat % (16 : UInt64).toNat = 0 := Lib.toNat_alignDown_mod hpow
  rw [hval] at hhi hmod
  have hne : Lib.alignUp h.mCurrent 16 ≠ 0 :=
    (aligned_bounds (u := Use.start h) hb ⟨Scheduler.kThreadStackSize, 16, 4, rfl⟩).2.2
  have hsum : (Lib.alignUp h.mCurrent 16 + Scheduler.kThreadStackSize).toNat
      = (Lib.alignUp h.mCurrent 16).toNat + 8192 := by
    rw [UInt64.toNat_add, hsize]
    omega
  have hcases := allocate_cases h ⟨Scheduler.kThreadStackSize, 16, 4, rfl⟩
  dsimp only at hcases
  rw [hcases]
  split
  · rename_i hnull
    have hpast : h.mEnd < Lib.alignUp h.mCurrent 16 + Scheduler.kThreadStackSize :=
      hnull.resolve_left (by decide)
    rw [UInt64.lt_iff_toNat_lt, hsum] at hpast
    refine Or.inl ⟨?_, rfl⟩
    unfold stackRoom
    rw [hsize]
    exact Nat.div_eq_of_lt (by omega)
  · rename_i hroom
    have hfit : (Lib.alignUp h.mCurrent 16).toNat + 8192 ≤ h.mEnd.toNat := by
      have hle := UInt64.not_lt.mp fun hlt => hroom (Or.inr hlt)
      rw [UInt64.le_iff_toNat_le, hsum] at hle
      exact hle
    refine Or.inr ⟨hne, ?_⟩
    -- the new bump pointer is aligned
    have hnext : Lib.alignUp (Lib.alignUp h.mCurrent 16 + Scheduler.kThreadStackSize) 16
        = Lib.alignUp h.mCurrent 16 + Scheduler.kThreadStackSize := by
      apply alignUp_of_aligned
      · rw [hsum]
        omega
      · rw [hsum]
        omega
    show (h.mEnd.toNat - (Lib.alignUp (Lib.alignUp h.mCurrent 16 + Scheduler.kThreadStackSize) 16).toNat)
      / Scheduler.kThreadStackSize.toNat + 1 = _
    unfold stackRoom
    rw [hnext, hsum, hsize]
    omega

end KernelHeap

namespace Scheduler

/-! ## Stacks along a run -/

section Creation

variable {m : Machine} {i : Fin kMaxThreads}

/-- `KernelCreateThread` takes no thread id, or one stack. -/
theorem createThread_heap (s : State) (pid : UInt64) (name : Option String) (entry argument : UInt64) :
    (kernelCreateThread s pid name entry argument).2.nextThreadId = s.nextThreadId ∨
      ((s.heap.allocate kThreadStackSize 16).1 ≠ 0 ∧
        (kernelCreateThread s pid name entry argument).2.heap = (s.heap.allocate kThreadStackSize 16).2) := by
  unfold kernelCreateThread
  split
  · exact Or.inl rfl
  · split
    · exact Or.inl rfl
    · dsimp only
      split
      · exact Or.inl rfl
      · rename_i hstack
        refine Or.inr ⟨hstack, ?_⟩
        unfold State.setThread
        dsimp only

/-- A step that creates a thread takes one stack. -/
theorem created_stack {a : Action} (hw : Wf m) (h : Creates m (m.step a) i) :
    (m.step a).sched.heap.stackRoom + 1 = m.sched.heap.stackRoom := by
  obtain ⟨s, pid, name, entry, argument, -, hheap, hnext, hs⟩ := created_by h
  have hgrown := h.next
  rw [hs] at hgrown ⊢
  rcases createThread_heap s pid name entry argument with hsame | ⟨hstack, hafter⟩
  · rw [hsame, hnext] at hgrown
    exact absurd hgrown fun heq => by simp at heq
  · rw [hafter]
    rw [hheap] at hstack ⊢
    rcases KernelHeap.allocate_stack hw.heap with ⟨-, hnull⟩ | ⟨-, hone⟩
    · rw [hnull] at hstack
      exact absurd rfl hstack
    · exact hone

end Creation

/-- The threads created so far. The bootstrap thread, which is first in the log, runs on the stack of the boot. -/
def threadsCreated (log : List Event) : Nat := (createdIds log).length - 1

/-- What is left of the heap and what was taken from it. -/
structure StacksLeft (total : Nat) (m : Machine) : Prop where
  wf     : Wf m
  boot   : (createdIds m.log).length ≠ 0
  room   : m.sched.heap.stackRoom + threadsCreated m.log = total

theorem StacksLeft.step {total : Nat} {m : Machine} (h : StacksLeft total m) (a : Action) :
    StacksLeft total (m.step a) := by
  have hboot := h.boot
  have hstacks := h.room
  unfold threadsCreated at hstacks
  rcases (h.wf.effect a).slots with ⟨hnone, -⟩ | ⟨i, hi, -⟩
  · have hlog : createdIds (m.step a).log = createdIds m.log := by
      rcases hnone.log with hl | ⟨t, c, res, hl⟩ | ⟨t, -, -, hl⟩
      · rw [hl]
      · rw [hl]
        rfl
      · rw [hl]
        rfl
    refine ⟨h.wf.step a, hlog ▸ hboot, ?_⟩
    unfold threadsCreated
    rw [hlog, hnone.heap]
    exact hstacks
  · obtain ⟨t, c, res, hl⟩ := hi.log
    have hlog : (createdIds (m.step a).log).length = (createdIds m.log).length + 1 := by
      rw [hl]
      rfl
    have hone := created_stack h.wf hi
    refine ⟨h.wf.step a, by omega, ?_⟩
    unfold threadsCreated
    omega

/-- **Stacks are never given back.** -/
theorem stacks_reached (heap : { h : KernelHeap // h.InBlock }) (as : List Action) :
    (reached heap as).sched.heap.stackRoom + threadsCreated (reached heap as).log = heap.val.stackRoom := by
  have hboot : StacksLeft heap.val.stackRoom (Machine.boot heap) :=
    ⟨wf_boot heap, Nat.one_ne_zero, rfl⟩
  exact (Lib.run_invariant (I := StacksLeft heap.val.stackRoom) (fun _ a h => h.step a) hboot as).room

/-! ## When a creation fails -/

/-- The threads that are not Empty. -/
def liveCount (s : State) : Nat := (List.finRange kMaxThreads).countP fun i => (s.threads i).state != .empty

/-- With fewer than all slots in use there is a slot to take. -/
theorem findThreadSlot_of_liveCount {s : State} (h : liveCount s < kMaxThreads) :
    ∃ i, s.findThreadSlot = some i := by
  have hfree : ∃ i, (s.threads i).state = .empty := by
    by_contra hnone
    push Not at hnone
    have hall : liveCount s = (List.finRange kMaxThreads).length := by
      unfold liveCount
      rw [List.countP_eq_length]
      intro i _
      simpa using hnone i
    rw [List.length_finRange] at hall
    omega
  obtain ⟨i, hi⟩ := hfree
  exact Lib.exists_firstSlot (i := i) (by simp [hi])

/-- `KernelCreateThread` for an active process, with an entry and a free slot, fails for want of a stack only. -/
theorem createThread_null_iff {s : State} {pid entry : UInt64} (hproc : s.findProcess pid ≠ none)
    (hentry : entry ≠ 0) (hslot : ∃ i, s.findThreadSlot = some i) (hnext : s.nextThreadId ≠ 0)
    (name : Option String) (argument : UInt64) :
    (kernelCreateThread s pid name entry argument).1 = 0 ↔
      (s.heap.allocate kThreadStackSize 16).1 = 0 := by
  obtain ⟨i, hi⟩ := hslot
  unfold kernelCreateThread
  rw [if_neg (not_or.mpr ⟨hproc, hentry⟩), hi]
  dsimp only
  split
  · rename_i hstack
    exact iff_of_true rfl hstack
  · rename_i hstack
    exact iff_of_false hnext hstack

theorem Wf.nextThreadId_ne {m : Machine} (h : Wf m) : m.sched.nextThreadId ≠ 0 := by
  obtain ⟨c, hc⟩ := h.current
  have hlt := (h.ids c (Or.inr hc)).2
  intro hz
  rw [hz, UInt64.lt_iff_toNat_lt] at hlt
  exact absurd hlt (by simp)

/-- **The heap bounds the threads of a boot, not the threads alive.** In every reachable state in which a slot is
    free, `KernelCreateThread` for an active process and with an entry fails exactly when as many threads have
    been created since boot as the heap had room for stacks. -/
theorem createThread_fails_iff (heap : { h : KernelHeap // h.InBlock }) (as : List Action)
    {pid entry : UInt64} (hproc : (reached heap as).sched.findProcess pid ≠ none) (hentry : entry ≠ 0)
    (hfew : liveCount (reached heap as).sched < kMaxThreads) (name : Option String) (argument : UInt64) :
    (kernelCreateThread (reached heap as).sched pid name entry argument).1 = 0 ↔
      heap.val.stackRoom ≤ threadsCreated (reached heap as).log := by
  have hw := wf_reached heap as
  have hstacks := stacks_reached heap as
  rw [createThread_null_iff hproc hentry (findThreadSlot_of_liveCount hfew) hw.nextThreadId_ne]
  rcases KernelHeap.allocate_stack hw.heap with ⟨hzero, hnull⟩ | ⟨hblock, hone⟩
  · rw [hnull]
    exact iff_of_true rfl (by omega)
  · exact iff_of_false hblock (by omega)

/-- The first thread after boot, on a heap with room for 64 stacks. -/
theorem createThread_fails_iff_example :
    (kernelCreateThread (reached heapAt2MiB []).sched 1 none 1 0).1 = 0 ↔ 64 ≤ 0 :=
  createThread_fails_iff heapAt2MiB [] (by decide +kernel) (by decide) (by decide +kernel) none 0

/-- Two processes with 31 threads each come and go, and a third gets two threads. -/
def batches : List Action :=
  List.replicate 3 (.call (.createProcess none)) ++
    List.replicate 31 (.call (.createThread 2 none 1 0)) ++ [.call (.terminateProcess 2 0)] ++
    List.replicate 31 (.call (.createThread 3 none 1 0)) ++ [.call (.terminateProcess 3 0)] ++
    List.replicate 2 (.call (.createThread 4 none 1 0))

/-- Never more than 32 threads at a time, and the 65th creation fails in an active process. -/
theorem stacks_run_out :
    Lib.Throughout Machine.step (fun m => liveCount m.sched ≤ 32) (Machine.boot heapAt2MiB) batches ∧
      (reached heapAt2MiB batches).sched.findProcess 4 ≠ none ∧
      (kernelCreateThread (reached heapAt2MiB batches).sched 4 none 1 0).1 = 0 :=
  ⟨by decide +kernel, by decide +kernel, by decide +kernel⟩

end Scheduler
end UefiBoot
