import UefiBoot.Scheduler.Slot

/-!
# `Scheduler.Wf` — what holds in every reachable state, whatever the threads do

* **identity** — there is a current thread, the live slots carry distinct ids that were handed out before,
  and no id is handed out twice. The id counter cannot wrap: every id costs 8192 bytes of a heap that never
  gives any back;
* **frames** — the code a slot goes on with was entered by the thread the slot holds, and a suspended
  `KernelMutexLock` points at the mutex whose id it was called with;
* **mutex table** — the active mutexes are a prefix of the table, numbered from 1.

`Wf` is kept by every step with no condition on the run; the claims that need conditions build on it.
-/

namespace UefiBoot
namespace Scheduler

/-! ## The mutex table -/

/-- What no step but `KernelMutexCreate` changes of the mutex table. -/
structure SameMutexes (s s' : State) : Prop where
  next   : s'.nextMutexId = s.nextMutexId
  active : ∀ k, (s'.mutexes k).active = (s.mutexes k).active
  id     : ∀ k, (s'.mutexes k).id = (s.mutexes k).id

theorem SameMutexes.of_eq {s s' : State} (hn : s'.nextMutexId = s.nextMutexId)
    (h : s'.mutexes = s.mutexes) : SameMutexes s s' :=
  ⟨hn, fun _ => by rw [h], fun _ => by rw [h]⟩

theorem sameMutexes_setMutex {s s' : State} {i : Fin kMaxMutexes} {x : KernelMutex}
    (hn : s'.nextMutexId = s.nextMutexId) (h : s'.mutexes = Function.update s.mutexes i x)
    (ha : x.active = (s.mutexes i).active) (hid : x.id = (s.mutexes i).id) : SameMutexes s s' := by
  refine ⟨hn, fun k => ?_, fun k => ?_⟩
  · by_cases hk : k = i
    · subst hk; simp [h, ha]
    · simp [h, hk]
  · by_cases hk : k = i
    · subst hk; simp [h, hid]
    · simp [h, hk]

/-- `KernelMutexCreate` took the first inactive slot. -/
def CreatesMutex (s s' : State) : Prop :=
  ∃ i, Lib.firstSlot (fun i => !(s.mutexes i).active) = some i ∧
    s'.nextMutexId = s.nextMutexId + 1 ∧
    s'.mutexes = Function.update s.mutexes i
      { id := s.nextMutexId, active := true, locked := false, ownerThreadId := 0 }

theorem Effect.mutexIds {m m' : Machine} {a : Action} (he : Effect m a m') :
    SameMutexes m.sched m'.sched ∨ CreatesMutex m.sched m'.sched := by
  cases he with
  | mutexCreated hu hi => exact Or.inr ⟨_, hi, rfl, rfl⟩
  | lockTaken hu hcur hi hfree => exact Or.inl (sameMutexes_setMutex rfl rfl rfl rfl)
  | unlockPassed hu hcur hi howner hnext => exact Or.inl (sameMutexes_setMutex rfl rfl rfl rfl)
  | unlockFreed hu hcur hi howner hnext => exact Or.inl (sameMutexes_setMutex rfl rfl rfl rfl)
  | yieldReturned hy hcur hstay => exact Or.inl (.of_eq (by simp) (by simp))
  | @yieldSwitched rest c n hy hcur haway hne hrun =>
      obtain ⟨-, h2, -, -, -, h6, -, -⟩ := yieldSwitch_others (yielded m.sched) c n rest
      exact Or.inl (.of_eq (by simpa using h6) (by simpa using h2))
  | _ => exact Or.inl (.of_eq rfl rfl)

/-- The active mutexes are the first `nextMutexId - 1` slots, numbered from 1. -/
structure MutexTable (s : State) : Prop where
  next   : 1 ≤ s.nextMutexId.toNat ∧ s.nextMutexId.toNat ≤ kMaxMutexes + 1
  active : ∀ k, (s.mutexes k).active = true ↔ k.val + 1 < s.nextMutexId.toNat
  id     : ∀ k, (s.mutexes k).active = true → (s.mutexes k).id.toNat = k.val + 1

theorem MutexTable.of_same {s s' : State} (h : MutexTable s) (hs : SameMutexes s s') :
    MutexTable s' := by
  refine ⟨by rw [hs.next]; exact h.next, fun k => ?_, fun k hk => ?_⟩
  · rw [hs.active, hs.next]; exact h.active k
  · rw [hs.id]; exact h.id k (by rw [← hs.active]; exact hk)

theorem MutexTable.of_creates {s s' : State} (h : MutexTable s) (hs : CreatesMutex s s') :
    MutexTable s' := by
  obtain ⟨i, hi, hnext, hmut⟩ := hs
  obtain ⟨hfree, hbefore⟩ := Lib.firstSlot_eq_some_iff.mp hi
  have hinactive : ¬ (i.val + 1 < s.nextMutexId.toNat) := by
    rw [← h.active i]; simpa using hfree
  -- the slots before the first inactive one are active, so the new slot is the next of the prefix
  have hi_eq : i.val + 1 = s.nextMutexId.toNat := by
    rcases Nat.eq_zero_or_pos i.val with h0 | hpos
    · have := h.next.1; omega
    · have hk : (⟨i.val - 1, by omega⟩ : Fin kMaxMutexes) < i := by
        show i.val - 1 < i.val; omega
      have hact := (h.active _).mp (by simpa using hbefore _ hk)
      simp only at hact; omega
  have hi8 : i.val < 8 := i.isLt
  have hnextNat : s'.nextMutexId.toNat = s.nextMutexId.toNat + 1 := by
    rw [hnext, UInt64.toNat_add]
    have h1 : (1 : UInt64).toNat = 1 := rfl
    omega
  refine ⟨⟨by omega, show _ ≤ 9 by omega⟩, fun k => ?_, fun k hk => ?_⟩
  · rw [hmut, hnextNat]
    by_cases hki : k = i
    · subst hki; simp only [Function.update_self, true_iff]; omega
    · have hne : k.val ≠ i.val := fun e => hki (Fin.ext e)
      rw [Function.update_of_ne hki, h.active k]; omega
  · rw [hmut] at hk ⊢
    by_cases hki : k = i
    · subst hki; simpa using hi_eq.symm
    · rw [Function.update_of_ne hki] at hk ⊢; exact h.id k hk

theorem MutexTable.id_inj {s : State} (h : MutexTable s) {j k : Fin kMaxMutexes}
    (hj : (s.mutexes j).active = true) (hk : (s.mutexes k).active = true)
    (hid : (s.mutexes j).id = (s.mutexes k).id) : j = k := by
  have hjn := h.id j hj
  rw [hid, h.id k hk] at hjn
  exact Fin.ext (by omega)

/-- An active mutex is found under its id. -/
theorem MutexTable.findMutex {s : State} (h : MutexTable s) {k : Fin kMaxMutexes}
    (hk : (s.mutexes k).active = true) : s.findMutex (s.mutexes k).id = some k := by
  refine Lib.firstSlot_unique (by simpa using hk) fun j hj => ?_
  have hj' : (s.mutexes j).active = true ∧ (s.mutexes j).id = (s.mutexes k).id := by simpa using hj
  exact h.id_inj hj'.1 hk hj'.2

/-! ## The invariant -/

/-- The thread ids handed out so far, newest first. -/
def createdIds (log : List Event) : List UInt64 :=
  log.filterMap fun e => match e with
    | .created t => some t
    | _          => none

/-- **What always holds.** -/
structure Wf (m : Machine) : Prop where
  current  : ∃ c, m.sched.currentThread = some c
  heap     : m.sched.heap.InBlock
  /-- Every id after the first cost a stack. -/
  room     : m.sched.nextThreadId.toNat * 8192 ≤ m.sched.heap.mCurrent.toNat + 16384
  ids      : ∀ i, Live m.sched i → (m.sched.threads i).id ≠ 0 ∧
    (m.sched.threads i).id < m.sched.nextThreadId
  distinct : IdsDistinct m.sched
  created  : (createdIds m.log).Nodup ∧ ∀ t ∈ createdIds m.log, t < m.sched.nextThreadId
  callers  : ∀ i r t, Live m.sched i → m.frame i = some r → r.caller = some t →
    t = (m.sched.threads i).id
  mutexes  : MutexTable m.sched
  frames   : ∀ i caller id k, m.frame i = some (.mutexLock caller id k) →
    (m.sched.mutexes k).active = true ∧ (m.sched.mutexes k).id = id

namespace Wf

variable {m m' : Machine} {a : Action}

theorem heapLimit (h : m.sched.heap.InBlock) : m.sched.heap.mCurrent.toNat ≤ 4294967296 := by
  have h1 := UInt64.le_iff_toNat_le.mp h.2.2.1
  have h2 : m.sched.heap.mEnd.toNat ≤ 4294967296 := UInt64.le_iff_toNat_le.mp h.2.2.2
  omega

/-- The id counter is far from wrapping. -/
theorem nextThreadId_succ (h : Wf m) :
    (m.sched.nextThreadId + 1).toNat = m.sched.nextThreadId.toNat + 1 := by
  have hroom := h.room
  have hlim := heapLimit h.heap
  have h1 : (1 : UInt64).toNat = 1 := rfl
  rw [UInt64.toNat_add]
  omega

theorem lt_nextThreadId_succ (h : Wf m) {t : UInt64} (ht : t < m.sched.nextThreadId) :
    t < m.sched.nextThreadId + 1 := by
  rw [UInt64.lt_iff_toNat_lt] at ht ⊢
  rw [h.nextThreadId_succ]; omega

theorem nextThreadId_lt_succ (h : Wf m) : m.sched.nextThreadId < m.sched.nextThreadId + 1 := by
  rw [UInt64.lt_iff_toNat_lt, h.nextThreadId_succ]; omega

theorem effect (h : Wf m) (a : Action) : Effect m a (m.step a) := by
  obtain ⟨c, hc⟩ := h.current
  exact step_effect hc h.heap h.distinct a

theorem next_current (h : Wf m) (he : Effect m a m') : ∃ c, m'.sched.currentThread = some c := by
  cases he with
  | @yieldReturned rest c hy hcur hstay => exact ⟨c, by simpa using hcur⟩
  | @yieldSwitched rest c n hy hcur haway hne hrun =>
      exact ⟨n, (yieldSwitch_others (yielded m.sched) c n rest).1⟩
  | _ => exact h.current

theorem next_room (h : Wf m) (he : Effect m a m') :
    m'.sched.heap.InBlock ∧
      m'.sched.nextThreadId.toNat * 8192 ≤ m'.sched.heap.mCurrent.toNat + 16384 := by
  have hroom := h.room
  rcases he.slots with ⟨hn, -⟩ | ⟨i, hi, -⟩
  · rw [hn.next, hn.heap]; exact ⟨h.heap, hroom⟩
  · refine ⟨hi.heap, ?_⟩
    rw [hi.next, h.nextThreadId_succ]
    calc (m.sched.nextThreadId.toNat + 1) * 8192
        = m.sched.nextThreadId.toNat * 8192 + 8192 := Nat.succ_mul _ _
      _ ≤ (m.sched.heap.mCurrent.toNat + 16384) + 8192 := Nat.add_le_add_right hroom _
      _ = (m.sched.heap.mCurrent.toNat + 8192) + 16384 := Nat.add_right_comm _ _ _
      _ ≤ m'.sched.heap.mCurrent.toNat + 16384 := Nat.add_le_add_right hi.grows _

theorem next_ids (h : Wf m) (he : Effect m a m') : ∀ i, Live m'.sched i →
    (m'.sched.threads i).id ≠ 0 ∧ (m'.sched.threads i).id < m'.sched.nextThreadId := by
  intro j hj
  rcases he.slots with ⟨hn, hkept⟩ | ⟨i, hi, hkept⟩
  · rw [(hkept j).id, hn.next]; exact h.ids j ((hkept j).live hj)
  · by_cases hji : j = i
    · subst hji
      obtain ⟨c, hc⟩ := h.current
      have hpos := (h.ids c (Or.inr hc)).2
      rw [hi.id, hi.next]
      refine ⟨fun h0 => ?_, h.nextThreadId_lt_succ⟩
      rw [h0, UInt64.lt_iff_toNat_lt] at hpos
      exact absurd hpos (by simp)
    · rw [(hkept j hji).id, hi.next]
      obtain ⟨h0, hlt⟩ := h.ids j ((hkept j hji).live hj)
      exact ⟨h0, h.lt_nextThreadId_succ hlt⟩

theorem next_distinct (h : Wf m) (he : Effect m a m') : IdsDistinct m'.sched := by
  intro j k hj hk hid
  rcases he.slots with ⟨hn, hkept⟩ | ⟨i, hi, hkept⟩
  · rw [(hkept j).id, (hkept k).id] at hid
    exact h.distinct j k ((hkept j).live hj) ((hkept k).live hk) hid
  · -- the new id is larger than every live one
    have hnew : ∀ l, l ≠ i → Live m'.sched l → (m'.sched.threads l).id ≠ m.sched.nextThreadId := by
      intro l hl hlive heq
      rw [(hkept l hl).id] at heq
      have hlt := (h.ids l ((hkept l hl).live hlive)).2
      rw [heq] at hlt
      exact absurd hlt (by simp)
    by_cases hji : j = i
    · by_cases hki : k = i
      · rw [hji, hki]
      · exact absurd (by rw [← hid, hji, hi.id]) (hnew k hki hk)
    · by_cases hki : k = i
      · exact absurd (by rw [hid, hki, hi.id]) (hnew j hji hj)
      · rw [(hkept j hji).id, (hkept k hki).id] at hid
        exact h.distinct j k ((hkept j hji).live hj) ((hkept k hki).live hk) hid

theorem next_created (h : Wf m) (he : Effect m a m') :
    (createdIds m'.log).Nodup ∧ ∀ t ∈ createdIds m'.log, t < m'.sched.nextThreadId := by
  obtain ⟨hnodup, hlt⟩ := h.created
  rcases he.slots with ⟨hn, -⟩ | ⟨i, hi, -⟩
  · have hlog : createdIds m'.log = createdIds m.log := by
      rcases hn.log with hl | ⟨t, c, res, hl⟩ | ⟨t, -, -, hl⟩ <;> rw [hl] <;> rfl
    rw [hlog, hn.next]; exact ⟨hnodup, hlt⟩
  · obtain ⟨t, c, res, hl⟩ := hi.log
    have hlog : createdIds m'.log = m.sched.nextThreadId :: createdIds m.log := by rw [hl]; rfl
    rw [hlog, hi.next]
    refine ⟨List.nodup_cons.mpr ⟨fun hmem => ?_, hnodup⟩, ?_⟩
    · exact absurd (hlt _ hmem) (by simp)
    · intro u hu
      rcases List.mem_cons.mp hu with rfl | hu
      · exact h.nextThreadId_lt_succ
      · exact h.lt_nextThreadId_succ (hlt u hu)

/-- A created thread starts from a fresh context, unless it takes the slot of the running code. -/
theorem created_frame {i : Fin kMaxThreads} (hi : Creates m m' i) {r : Continuation}
    (hr : m'.frame i = some r) : r = .trampoline := by
  by_cases hcur : m'.sched.currentThread = some i
  · rw [frame_current hcur, hi.user.2] at hr; exact absurd hr (by simp)
  · rw [frame_other hcur, hi.context] at hr; exact (Option.some.inj hr).symm

theorem next_callers (h : Wf m) (he : Effect m a m') : ∀ i r t, Live m'.sched i →
    m'.frame i = some r → r.caller = some t → t = (m'.sched.threads i).id := by
  intro j r t hj hr ht
  have hkeep : Kept m a m' j → t = (m'.sched.threads j).id := by
    intro hk
    rw [hk.id]
    rcases hk.frame r hr with hr' | hent
    · exact h.callers j r t (hk.live hj) hr' ht
    · exact (Option.some.inj (hent.caller.symm.trans ht)).symm
  rcases he.slots with ⟨-, hkept⟩ | ⟨i, hi, hkept⟩
  · exact hkeep (hkept j)
  · by_cases hji : j = i
    · subst hji
      rw [created_frame hi hr] at ht; exact absurd ht (by simp [Continuation.caller])
    · exact hkeep (hkept j hji)

theorem next_mutexes (h : Wf m) (he : Effect m a m') : MutexTable m'.sched := by
  rcases he.mutexIds with hs | hs
  · exact h.mutexes.of_same hs
  · exact h.mutexes.of_creates hs

/-- No step takes an active mutex away or renumbers it. -/
theorem mutex_stays (he : Effect m a m') {k : Fin kMaxMutexes}
    (hk : (m.sched.mutexes k).active = true) :
    (m'.sched.mutexes k).active = true ∧ (m'.sched.mutexes k).id = (m.sched.mutexes k).id := by
  rcases he.mutexIds with hs | ⟨i, hi, -, hmut⟩
  · exact ⟨(hs.active k).trans hk, hs.id k⟩
  · have hki : k ≠ i := by
      rintro rfl
      have hfree := Lib.firstSlot_true hi
      rw [hk] at hfree; exact absurd hfree (by simp)
    rw [hmut, Function.update_of_ne hki]
    exact ⟨hk, rfl⟩

theorem next_frames (h : Wf m) (he : Effect m a m') : ∀ i caller id k,
    m'.frame i = some (.mutexLock caller id k) →
    (m'.sched.mutexes k).active = true ∧ (m'.sched.mutexes k).id = id := by
  intro j caller id k hr
  have hbefore : (m.sched.mutexes k).active = true ∧ (m.sched.mutexes k).id = id := by
    have hkeep : Kept m a m' j → (m.sched.mutexes k).active = true ∧ (m.sched.mutexes k).id = id := by
      intro hk
      rcases hk.frame _ hr with hr' | hent
      · exact h.frames j caller id k hr'
      · exact State.findMutex_some (hent.mutex caller id k rfl)
    rcases he.slots with ⟨-, hkept⟩ | ⟨i, hi, hkept⟩
    · exact hkeep (hkept j)
    · by_cases hji : j = i
      · subst hji; exact absurd (created_frame hi hr) (by simp)
      · exact hkeep (hkept j hji)
  obtain ⟨hact, hid⟩ := mutex_stays he hbefore.1
  exact ⟨hact, hid.trans hbefore.2⟩

theorem next (h : Wf m) (he : Effect m a m') : Wf m' where
  current  := h.next_current he
  heap     := (h.next_room he).1
  room     := (h.next_room he).2
  ids      := h.next_ids he
  distinct := h.next_distinct he
  created  := h.next_created he
  callers  := h.next_callers he
  mutexes  := h.next_mutexes he
  frames   := h.next_frames he

/-- Every step keeps `Wf`. -/
theorem step (h : Wf m) (a : Action) : Wf (m.step a) := h.next (h.effect a)

end Wf

/-! ## Boot -/

theorem boot_threads (heap : { h : KernelHeap // h.InBlock }) (i : Fin kMaxThreads) (hi : i ≠ 0) :
    (Machine.boot heap).sched.threads i = {} := by
  simp [Machine.boot, kernelSchedulerInit, hi]

theorem boot_frame {heap : { h : KernelHeap // h.InBlock }} {i : Fin kMaxThreads} {r : Continuation}
    (hr : (Machine.boot heap).frame i = some r) : r = .trampoline := by
  by_cases hi : i = 0
  · subst hi; exact absurd hr (by simp [Machine.frame, Machine.boot, kernelSchedulerInit, Control.rest])
  · rw [frame_other (fun h => hi (Option.some.inj h).symm), boot_threads heap i hi] at hr
    exact (Option.some.inj hr).symm

theorem wf_boot (heap : { h : KernelHeap // h.InBlock }) : Wf (Machine.boot heap) := by
  have hlive : ∀ i, Live (Machine.boot heap).sched i → i = 0 := by
    intro i hi
    by_contra h0
    rcases hi with hi | hi
    · exact hi (by rw [boot_threads heap i h0])
    · exact h0 (Option.some.inj hi).symm
  refine ⟨⟨0, rfl⟩, heap.property, ?_, ?_, ?_, ?_, ?_, ?_, ?_⟩
  · show 2 * 8192 ≤ _; omega
  · intro i hi
    obtain rfl := hlive i hi
    exact ⟨show (1 : UInt64) ≠ 0 by decide, show (1 : UInt64) < 2 by decide⟩
  · intro i j hi hj _
    rw [hlive i hi, hlive j hj]
  · exact ⟨List.nodup_singleton _, fun t ht => by
      rw [List.mem_singleton.mp ht]; exact show (1 : UInt64) < 2 by decide⟩
  · intro i r t _ hr ht
    rw [boot_frame hr] at ht; exact absurd ht (by simp [Continuation.caller])
  · refine ⟨⟨le_refl 1, show 1 ≤ 9 by omega⟩, fun k => ?_, fun k hk => ?_⟩
    · simp [Machine.boot, kernelSchedulerInit]
    · simp [Machine.boot, kernelSchedulerInit] at hk
  · intro i caller id k hr
    exact absurd (boot_frame hr) (by simp)

/-- **Every reachable state is well formed.** -/
theorem wf_reached (heap : { h : KernelHeap // h.InBlock }) (as : List Action) : Wf (reached heap as) :=
  Lib.run_invariant (fun _ a h => h.step a) (wf_boot heap) as

end Scheduler
end UefiBoot
