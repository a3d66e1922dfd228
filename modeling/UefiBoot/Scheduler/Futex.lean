import UefiBoot.Scheduler.Owner

/-!
# `Scheduler.Futex` — the futex queues and the threads blocked in `KernelFutexWait`

The queue of an address should list, once each, the threads that are Blocked inside `KernelFutexWait` on it
(`FutexAgreement`). One half always holds: a thread that is blocked in `KernelFutexWait` is on an active
queue of its address (`Queued`), and an address has one active queue. The other half fails when a waiter
leaves without `KernelFutexWake`: by a signal, by the end of its process, by a mutex handed to it, or
because the `Yield` in `KernelFutexWait` found nobody to run. `futex_agreement_iff` says that these are all.
-/

namespace UefiBoot
namespace Scheduler

/-- Slot `i` is Blocked inside `KernelFutexWait(address, _)`. -/
def Machine.BlockedIn (m : Machine) (i : Fin kMaxThreads) (address : UInt64) : Prop :=
  (m.sched.threads i).state = .blocked ∧
    ∃ caller expected, m.frame i = some (.futexWait caller address expected)

/-- An address has one active queue at most. -/
def OneQueue (s : State) : Prop :=
  ∀ k l, (s.futexes k).active = true → (s.futexes l).active = true →
    (s.futexes k).address = (s.futexes l).address → k = l

/-- Whoever is blocked in `KernelFutexWait` is on the active queue of the address. -/
def Queued (m : Machine) : Prop :=
  ∀ i address, m.BlockedIn i address → ∃ k, (m.sched.futexes k).active = true ∧
    (m.sched.futexes k).address = address ∧ (m.sched.threads i).id ∈ (m.sched.futexes k).waitingThreads

/-- **Queues and blocked threads agree.** -/
structure FutexAgreement (m : Machine) : Prop where
  one    : OneQueue m.sched
  nodup  : ∀ k, (m.sched.futexes k).active = true → (m.sched.futexes k).waitingThreads.Nodup
  members : ∀ k, (m.sched.futexes k).active = true → ∀ t,
    t ∈ (m.sched.futexes k).waitingThreads ↔
      ∃ i, (m.sched.threads i).id = t ∧ m.BlockedIn i (m.sched.futexes k).address
  /-- `KernelFutexWake` readies no thread that is blocked on anything else. -/
  wakes  : ∀ address count i, (m.sched.threads i).state = .blocked →
    ((kernelFutexWake m.sched address count).2.threads i).state = .ready → m.BlockedIn i address

/-! ## The queue `KernelFutexWait` picks -/

/-- Once the search has met a queue or a free slot it has a result. -/
theorem candidates_found {s : State} {address : UInt64} {l : List (Fin kMaxFutexes)}
    {j : Fin kMaxFutexes} (hj : j ∈ l) (hmatch : (s.futexes j).active = true ∧ (s.futexes j).address = address) :
    l.foldl (futexCandidate s address) none ≠ none := by
  induction l using List.reverseRecOn with
  | nil => simp at hj
  | append_singleton l i ih =>
      rw [List.foldl_append, List.foldl_cons, List.foldl_nil]
      unfold futexCandidate
      by_cases hi : (s.futexes i).active = true ∧ (s.futexes i).address = address
      · simp [hi]
      · have hjl : j ∈ l := by
          rcases List.mem_append.mp hj with h | h
          · exact h
          · obtain rfl : j = i := by simpa using h
            exact absurd hmatch hi
        simp only [hi, if_false]
        split
        · simp
        · exact ih hjl

/-- After the search of a part of the table: a queue of the address if there is one, else a free slot. -/
theorem futexCandidates_spec (s : State) (address : UInt64) (l : List (Fin kMaxFutexes)) :
    ∀ k, l.foldl (futexCandidate s address) none = some k →
      ((s.futexes k).active = true ∧ (s.futexes k).address = address) ∨
      ((s.futexes k).active = false ∧
        ∀ i ∈ l, ¬ ((s.futexes i).active = true ∧ (s.futexes i).address = address)) := by
  induction l using List.reverseRecOn with
  | nil => intro k hk; simp at hk
  | append_singleton l i ih =>
      intro k hk
      rw [List.foldl_append, List.foldl_cons, List.foldl_nil] at hk
      unfold futexCandidate at hk
      by_cases hi : (s.futexes i).active = true ∧ (s.futexes i).address = address
      · obtain rfl : i = k := by simpa [hi] using hk
        exact Or.inl hi
      · simp only [hi, if_false] at hk
        split at hk
        · -- no queue so far: the search goes on only while the table has none
          rename_i hnone
          obtain rfl : i = k := by simpa using hk
          refine Or.inr ⟨hnone.2, fun j hj hmatch => ?_⟩
          rcases List.mem_append.mp hj with hj | hj
          · exact candidates_found hj hmatch hnone.1
          · obtain rfl : j = i := by simpa using hj
            exact hi hmatch
        · rcases ih k hk with h | ⟨hfree, hno⟩
          · exact Or.inl h
          · refine Or.inr ⟨hfree, fun j hj hmatch => ?_⟩
            rcases List.mem_append.mp hj with hj | hj
            · exact hno j hj hmatch
            · obtain rfl : j = i := by simpa using hj
              exact hi hmatch

theorem findFutexSlot_some {s : State} {address : UInt64} {k : Fin kMaxFutexes}
    (h : findFutexSlot s address = some k) :
    ((s.futexes k).active = true ∧ (s.futexes k).address = address) ∨
      ((s.futexes k).active = false ∧
        ∀ i, ¬ ((s.futexes i).active = true ∧ (s.futexes i).address = address)) := by
  rcases futexCandidates_spec s address _ k h with h | ⟨hfree, hno⟩
  · exact Or.inl h
  · exact Or.inr ⟨hfree, fun i => hno i (List.mem_finRange i)⟩

/-! ## What a step does to the queues -/

/-- What a step does to the futex queues. -/
inductive FutexView (m : Machine) : Action → Machine → Prop where
  | same {a : Action} {m' : Machine} (hfut : m'.sched.futexes = m.sched.futexes) : FutexView m a m'
  /-- The current thread goes to the end of the queue of the address. -/
  | queued {m' : Machine} {address : UInt64} {expected : UInt32} (c : Fin kMaxThreads)
      (k : Fin kMaxFutexes) (hu : m.control = .user) (hcur : m.sched.currentThread = some c)
      (hslot : findFutexSlot m.sched address = some k)
      (hfut : m'.sched.futexes = Function.update m.sched.futexes k { m.sched.futexQueue k address with
        waitingThreads := (m.sched.futexQueue k address).waitingThreads ++ [(m.sched.threads c).id] })
      (hthreads : m'.sched.threads =
        Function.update m.sched.threads c { m.sched.threads c with state := .blocked })
      (hcur' : m'.sched.currentThread = some c)
      (hrest : m'.control.rest = some (.futexWait (m.sched.threads c).id address expected)) :
      FutexView m (.call (.futexWait address expected expected)) m'
  /-- A prefix of a queue is popped. -/
  | popped {m' : Machine} {address : UInt64} {count : UInt32} (k : Fin kMaxFutexes)
      (popped left : List UInt64) (hu : m.control = .user) (hfind : findFutex m.sched address = some k)
      (hsplit : (m.sched.futexes k).waitingThreads = popped ++ left)
      (hfut : m'.sched.futexes = Function.update m.sched.futexes k
        { m.sched.futexes k with waitingThreads := left, active := !left.isEmpty })
      (hthreads : m'.sched.threads = m.sched.wokenThreads popped) :
      FutexView m (.call (.futexWake address count)) m'

section Step

variable {m m' : Machine} {a : Action} {i : Fin kMaxThreads}

theorem Effect.futexView (he : Effect m a m') : FutexView m a m' := by
  cases he with
  | futexBlocked hu hcur haddr hslot => exact .queued _ _ hu hcur hslot rfl rfl hcur rfl
  | futexWoken hu haddr hfind hsplit => exact .popped _ _ _ hu hfind hsplit rfl rfl
  | yieldReturned hy hcur hstay => exact .same (by simp)
  | @yieldSwitched rest c n hy hcur haway hne hrun =>
      obtain ⟨-, -, hfut, -⟩ := yieldSwitch_others (yielded m.sched) c n rest
      exact .same (by rw [hfut, yielded_futexes])
  | _ => exact .same rfl

/-- A thread becomes Blocked only as the current one, by its own call. -/
theorem Effect.blocked_before (he : Effect m a m') (hi : (m'.sched.threads i).state = .blocked) :
    (m.sched.threads i).state = .blocked ∨ (m.control = .user ∧ m.sched.currentThread = some i) := by
  cases he.threadStep (i := i) with
  | same hs => exact Or.inl (hs.symm.trans hi)
  | futexBlocked hu hcur => exact Or.inr ⟨hu, hcur⟩
  | lockBlocked hu hcur => exact Or.inr ⟨hu, hcur⟩
  | created _ hs => rw [hi] at hs; exact absurd hs (by simp)
  | terminated _ _ _ hs => rw [hi] at hs; exact absurd hs (by simp)
  | joined _ hs => rw [hi] at hs; exact absurd hs (by simp)
  | woke _ hs => rw [hi] at hs; exact absurd hs (by simp)
  | signalled _ _ _ _ hs => rw [hi] at hs; exact absurd hs (by simp)
  | popped _ _ _ _ _ _ hs => rw [hi] at hs; exact absurd hs (by simp)
  | inherited _ _ _ _ _ _ _ hs => rw [hi] at hs; exact absurd hs (by simp)
  | slept _ _ _ hs => rw [hi] at hs; exact absurd hs (by simp)
  | exited _ _ _ _ hs => rw [hi] at hs; exact absurd hs (by simp)
  | chosen _ _ hs => rw [hi] at hs; exact absurd hs (by simp)
  | left _ _ hs => rw [hi] at hs; exact absurd hs (by simp)

/-- Why a thread that was Blocked is not any more. -/
inductive Unblocks (m m' : Machine) (i : Fin kMaxThreads) : Action → Prop where
  | signal {id : UInt64} {signal : UInt32} (hu : m.control = .user) (hsignal : signal < 32)
      (hfind : m.sched.findThread id = some i) : Unblocks m m' i (.call (.sendSignal id signal))
  | terminate {pid : UInt64} {code : Int32} (hu : m.control = .user)
      (hterm : m.sched.terminates pid ≠ none) (hp : (m.sched.threads i).processId = pid) :
      Unblocks m m' i (.call (.terminateProcess pid code))
  | unlock {id : UInt64} {c : Fin kMaxThreads} {k : Fin kMaxMutexes} (hu : m.control = .user)
      (hcur : m.sched.currentThread = some c) (hfind : m.sched.findMutex id = some k)
      (howner : (m.sched.mutexes k).ownerThreadId = (m.sched.threads c).id)
      (hnext : Inherits m.sched id i) : Unblocks m m' i (.call (.mutexUnlock id))
  | wake {address : UInt64} {count : UInt32} {k : Fin kMaxFutexes} {popped left : List UInt64}
      (hu : m.control = .user) (hsplit : (m.sched.futexes k).waitingThreads = popped ++ left)
      (hleft : (m'.sched.futexes k).waitingThreads = left)
      (hmem : (m.sched.threads i).id ∈ popped) : Unblocks m m' i (.call (.futexWake address count))
  | own {c : Call} (hu : m.control = .user) (hcur : m.sched.currentThread = some i) :
      Unblocks m m' i (.call c)
  | leave (hu : m.control = .user) (hcur : m.sched.currentThread = some i) : Unblocks m m' i .exit

theorem Effect.blocked_after (he : Effect m a m') (hi : (m.sched.threads i).state = .blocked) :
    (m'.sched.threads i).state = .blocked ∨ Unblocks m m' i a := by
  cases he.threadStep (i := i) with
  | same hs => exact Or.inl (hs.trans hi)
  | futexBlocked _ _ _ hs => exact Or.inl hs
  | lockBlocked _ _ _ _ hs => exact Or.inl hs
  | terminated hu hterm hp => exact Or.inr (.terminate hu hterm hp)
  | signalled hu hsignal hfind => exact Or.inr (.signal hu hsignal hfind)
  | popped hu hfind hsplit hfut hmem => exact Or.inr (.wake hu hsplit (by simp [hfut]) hmem)
  | inherited hu hcur hfind howner hnext =>
      exact Or.inr (.unlock hu hcur hfind howner (nextOwner_iff.mp hnext))
  | slept hu hcur => exact Or.inr (.own hu hcur)
  | exited hu hcur => exact Or.inr (.leave hu hcur)
  | created hempty => rw [hi] at hempty; exact absurd hempty (by simp)
  | joined hfin => rw [hi] at hfin; exact absurd hfin (by simp)
  | woke hbefore => rw [hi] at hbefore; exact absurd hbefore (by simp)
  | left _ hbefore => rw [hi] at hbefore; exact absurd hbefore (by simp)
  | chosen _ hrun =>
      rcases hrun with h | ⟨h, -⟩ <;> rw [hi] at h <;> exact absurd h (by simp)

/-- The thread goes to the end of the queue of `address`. -/
def Appends (m m' : Machine) (i : Fin kMaxThreads) (address : UInt64) : Prop :=
  ∃ k, findFutexSlot m.sched address = some k ∧
    m'.sched.futexes = Function.update m.sched.futexes k { m.sched.futexQueue k address with
      waitingThreads := (m.sched.futexQueue k address).waitingThreads ++ [(m.sched.threads i).id] }

/-- A thread that comes into `KernelFutexWait` is put on the queue. -/
theorem Effect.futex_enters {caller address : UInt64} {expected : UInt32}
    (he : Effect m (.call (.futexWait address expected expected)) m')
    (hcur : m.sched.currentThread = some i)
    (hr : m'.frame i = some (.futexWait caller address expected)) :
    m' = m ∨ (m.control = .user ∧ Appends m m' i address) := by
  cases he with
  | stutter => exact Or.inl rfl
  | quiet hu hc => exact absurd hr (by simp [Machine.frame, hcur, Control.rest])
  | created hu hc => exact absurd hr (by simp [Machine.frame, hcur, Control.rest])
  | joined ht => rcases ht with ⟨ha, -⟩ | ⟨ha, -⟩ <;> exact absurd ha (by simp)
  | joinWaits ht => rcases ht with ⟨ha, -⟩ | ⟨ha, -⟩ <;> exact absurd ha (by simp)
  | futexBlocked hu hcur' haddr hslot =>
      obtain rfl := Option.some.inj (hcur.symm.trans hcur')
      exact Or.inr ⟨hu, _, hslot, rfl⟩

/-- Whoever is blocked in `KernelFutexWait` was so before, or has just been put on the queue. -/
theorem Effect.blockedIn_before {address : UInt64} (he : Effect m a m') (h : m'.BlockedIn i address) :
    (m'.sched.threads i).id = (m.sched.threads i).id ∧ (m.BlockedIn i address ∨
      ((∃ expected, a = .call (.futexWait address expected expected)) ∧ m.control = .user ∧
        m.sched.currentThread = some i ∧ Appends m m' i address)) := by
  obtain ⟨hstate, caller, expected, hframe⟩ := h
  have hkeep : Kept m a m' i → (m'.sched.threads i).id = (m.sched.threads i).id ∧
      (m.BlockedIn i address ∨ ((∃ expected, a = .call (.futexWait address expected expected)) ∧
        m.control = .user ∧ m.sched.currentThread = some i ∧ Appends m m' i address)) := by
    intro hk
    refine ⟨hk.id, ?_⟩
    have hsame : m.frame i = some (.futexWait caller address expected) → m.BlockedIn i address := by
      intro hf
      rcases he.blocked_before hstate with hb | ⟨hu, hcur⟩
      · exact ⟨hb, caller, expected, hf⟩
      · rw [frame_current hcur, hu] at hf; exact absurd hf (by simp [Control.rest])
    rcases hk.frame _ hframe with hf | hent
    · exact Or.inl (hsame hf)
    · obtain rfl := hent.futex caller address expected rfl
      rcases he.futex_enters hent.current hframe with rfl | ⟨hu, happ⟩
      · exact Or.inl (hsame hframe)
      · exact Or.inr ⟨⟨expected, rfl⟩, hu, hent.current, happ⟩
  rcases he.slots with ⟨-, hkept⟩ | ⟨j, hj, hkept⟩
  · exact hkeep (hkept i)
  · by_cases hij : i = j
    · subst hij; rw [hj.state] at hstate; exact absurd hstate (by simp)
    · exact hkeep (hkept i hij)

/-- A thread blocked in `KernelFutexWait` stays so, until one of the ways out of Blocked is taken or its
    `Yield` has returned. -/
theorem Effect.blockedIn_after {address : UInt64} (he : Effect m a m') (h : m.BlockedIn i address) :
    m'.BlockedIn i address ∨ Unblocks m m' i a ∨
      ∃ caller expected, a = .run ∧ m.sched.currentThread = some i ∧
        m.control = .resuming (.futexWait caller address expected) := by
  obtain ⟨hstate, caller, expected, hframe⟩ := h
  rcases he.blocked_after hstate with hb | hun
  · rcases he.frame_stays (by simp [hstate]) hframe with hf | ⟨hcur, hc, ha⟩
    · exact Or.inl ⟨hb, caller, expected, hf⟩
    · exact Or.inr (Or.inr ⟨caller, expected, ha, hcur, hc⟩)
  · exact Or.inr (Or.inl hun)

/-! ## What always holds -/

theorem appends_active {address : UInt64} {k : Fin kMaxFutexes} (s : State) (x : UInt64)
    (hslot : findFutexSlot s address = some k) :
    ({ s.futexQueue k address with
        waitingThreads := (s.futexQueue k address).waitingThreads ++ [x] } : FutexWaitQueue).active = true ∧
      (s.futexQueue k address).address = address := by
  unfold State.futexQueue
  rcases findFutexSlot_some hslot with ⟨hact, haddr⟩ | ⟨hfree, -⟩
  · simp [hact, haddr]
  · simp [hfree]

theorem OneQueue.append {s s' : State} (h : OneQueue s) {address : UInt64} {k : Fin kMaxFutexes}
    {x : UInt64} (hslot : findFutexSlot s address = some k)
    (hfut : s'.futexes = Function.update s.futexes k { s.futexQueue k address with
      waitingThreads := (s.futexQueue k address).waitingThreads ++ [x] }) : OneQueue s' := by
  obtain ⟨-, haddr⟩ := appends_active s x hslot
  -- another active queue of the address would have been picked instead
  have hother : ∀ j, j ≠ k → (s.futexes j).active = true → (s.futexes j).address ≠ address := by
    intro j hjk hact hja
    rcases findFutexSlot_some hslot with ⟨hact', haddr'⟩ | ⟨-, hno⟩
    · exact hjk (h j k hact hact' (hja.trans haddr'.symm))
    · exact hno j ⟨hact, hja⟩
  intro j l hj hl heq
  rw [hfut] at hj hl heq
  by_cases hjk : j = k
  · by_cases hlk : l = k
    · rw [hjk, hlk]
    · subst hjk
      rw [Function.update_of_ne hlk] at hl heq
      rw [Function.update_self] at heq
      exact absurd (heq.symm.trans haddr) (hother l hlk hl)
  · by_cases hlk : l = k
    · subst hlk
      rw [Function.update_of_ne hjk] at hj heq
      rw [Function.update_self] at heq
      exact absurd (heq.trans haddr) (hother j hjk hj)
    · rw [Function.update_of_ne hjk] at hj heq
      rw [Function.update_of_ne hlk] at hl heq
      exact h j l hj hl heq

theorem OneQueue.next (h : OneQueue m.sched) (hv : FutexView m a m') : OneQueue m'.sched := by
  cases hv with
  | same hfut => intro j l hj hl heq; rw [hfut] at hj hl heq; exact h j l hj hl heq
  | queued c k hu hcur hslot hfut hthreads hcur' hrest => exact h.append hslot hfut
  | popped k popped left hu hfind hsplit hfut hthreads =>
      have hk := Lib.firstSlot_true hfind
      simp only [Bool.and_eq_true, beq_iff_eq] at hk
      have hact : ∀ j, (m'.sched.futexes j).active = true → (m.sched.futexes j).active = true := by
        intro j hj
        by_cases hjk : j = k
        · rw [hjk]; exact hk.1
        · rw [hfut, Function.update_of_ne hjk] at hj; exact hj
      have haddr : ∀ j, (m'.sched.futexes j).address = (m.sched.futexes j).address := by
        intro j
        by_cases hjk : j = k
        · subst hjk; simp [hfut]
        · rw [hfut, Function.update_of_ne hjk]
      intro j l hj hl heq
      rw [haddr, haddr] at heq
      exact h j l (hact j hj) (hact l hl) heq

theorem Queued.next (h : Queued m) (he : Effect m a m') : Queued m' := by
  intro i address hb
  obtain ⟨hid, hbefore⟩ := he.blockedIn_before hb
  rw [hid]
  rcases hbefore with hb' | ⟨-, hu, hcur, k, hslot, hfut⟩
  · obtain ⟨k, hact, haddr, hmem⟩ := h i address hb'
    cases he.futexView with
    | same hfut => exact ⟨k, by rw [hfut]; exact ⟨hact, haddr, hmem⟩⟩
    | @queued _ address' _ c l hu hcur hslot hfut hthreads hcur' hrest =>
        refine ⟨k, ?_⟩
        by_cases hkl : k = l
        · subst hkl
          rw [hfut, Function.update_self]
          simp only [State.futexQueue, hact, if_true]
          exact ⟨trivial, haddr, List.mem_append_left _ hmem⟩
        · rw [hfut, Function.update_of_ne hkl]; exact ⟨hact, haddr, hmem⟩
    | popped l popped left hu hfind hsplit hfut hthreads =>
        refine ⟨k, ?_⟩
        by_cases hkl : k = l
        · subst hkl
          -- a popped thread would be Ready now
          have hnot : (m.sched.threads i).id ∉ popped := by
            intro hpop
            have hready := hb.1
            rw [hthreads, wokenThreads_state, if_pos ⟨hb'.1, hpop⟩] at hready
            exact absurd hready (by simp)
          rw [hsplit] at hmem
          have hleft : (m.sched.threads i).id ∈ left := (List.mem_append.mp hmem).resolve_left hnot
          rw [hfut, Function.update_self]
          refine ⟨?_, haddr, hleft⟩
          cases left with
          | nil => simp at hleft
          | cons x xs => rfl
        · rw [hfut, Function.update_of_ne hkl]; exact ⟨hact, haddr, hmem⟩
  · obtain ⟨hact, haddr⟩ := appends_active m.sched (m.sched.threads i).id hslot
    refine ⟨k, ?_⟩
    rw [hfut, Function.update_self]
    exact ⟨hact, haddr, by simp⟩

/-! ## Safe steps -/

/-- The lists of the active queues are exact. -/
def QueuesExact (m : Machine) : Prop :=
  ∀ k, (m.sched.futexes k).active = true → (m.sched.futexes k).waitingThreads.Nodup ∧
    ∀ t, t ∈ (m.sched.futexes k).waitingThreads ↔
      ∃ i, (m.sched.threads i).id = t ∧ m.BlockedIn i (m.sched.futexes k).address

/-- The steps that keep queues and blocked threads in agreement. -/
def FutexSafe (m : Machine) : Action → Prop
  | .call (.sendSignal id signal) => m.control = .user → signal < 32 →
      ∀ i address, m.sched.findThread id = some i → ¬ m.BlockedIn i address
  | .call (.terminateProcess pid _) => m.control = .user → m.sched.terminates pid ≠ none →
      ∀ i address, m.BlockedIn i address → (m.sched.threads i).processId ≠ pid
  | .call (.mutexUnlock id) => m.control = .user → ∀ c k j address,
      m.sched.currentThread = some c → m.sched.findMutex id = some k →
      (m.sched.mutexes k).ownerThreadId = (m.sched.threads c).id → Inherits m.sched id j →
      ¬ m.BlockedIn j address
  | .run => ∀ c caller address expected, m.sched.currentThread = some c →
      m.control = .resuming (.futexWait caller address expected) → (m.sched.threads c).state ≠ .blocked
  | _ => True

theorem not_blockedIn_user {address : UInt64} (hu : m.control = .user)
    (hcur : m.sched.currentThread = some i) : ¬ m.BlockedIn i address := by
  rintro ⟨-, caller, expected, hf⟩
  rw [frame_current hcur, hu] at hf; exact absurd hf (by simp [Control.rest])

/-- A safe step that is no `KernelFutexWake` keeps the threads blocked in `KernelFutexWait` there. -/
theorem FutexSafe.blockedIn {address : UInt64} (hsafe : FutexSafe m a) (he : Effect m a m')
    (h : m.BlockedIn i address) : m'.BlockedIn i address ∨
      ∃ k popped left, (m.sched.futexes k).waitingThreads = popped ++ left ∧
        (m'.sched.futexes k).waitingThreads = left ∧ (m.sched.threads i).id ∈ popped := by
  rcases he.blockedIn_after h with hb | hun | ⟨caller, expected, rfl, hcur, hc⟩
  · exact Or.inl hb
  · cases hun with
    | signal hu hsignal hfind => exact absurd h (hsafe hu hsignal i address hfind)
    | terminate hu hterm hp => exact absurd hp (hsafe hu hterm i address h)
    | unlock hu hcur hfind howner hnext =>
        exact absurd h (hsafe hu _ _ i address hcur hfind howner hnext)
    | wake hu hsplit hleft hmem => exact Or.inr ⟨_, _, _, hsplit, hleft, hmem⟩
    | own hu hcur => exact absurd h (not_blockedIn_user hu hcur)
    | leave hu hcur => exact absurd h (not_blockedIn_user hu hcur)
  · exact absurd h.1 (hsafe i caller address expected hcur hc)

theorem blockedIn_address {address address' : UInt64} (h : m.BlockedIn i address)
    (h' : m.BlockedIn i address') : address = address' := by
  obtain ⟨-, caller, expected, hf⟩ := h
  obtain ⟨-, caller', expected', hf'⟩ := h'
  rw [hf] at hf'; cases hf'; rfl

theorem BlockedIn.live {address : UInt64} (h : m.BlockedIn i address) : Live m.sched i :=
  Or.inl (by simp [h.1])

theorem appends_changes {address : UInt64} (h : Appends m m' i address) :
    m'.sched.futexes ≠ m.sched.futexes := by
  obtain ⟨k, hslot, hfut⟩ := h
  intro heq
  have hk := congrFun (heq.symm.trans hfut) k
  rw [Function.update_self] at hk
  have hlen := congrArg (fun q => q.waitingThreads.length) hk
  have hact := congrArg FutexWaitQueue.active hk
  rw [(appends_active m.sched _ hslot).1] at hact
  simp [State.futexQueue, hact] at hlen

/-- A step that leaves the queues alone. -/
theorem QueuesExact.same (h : QueuesExact m) (he : Effect m a m') (hsafe : FutexSafe m a)
    (hfut : m'.sched.futexes = m.sched.futexes) : QueuesExact m' := by
  intro k hk
  rw [hfut] at hk ⊢
  obtain ⟨hnodup, hmem⟩ := h k hk
  refine ⟨hnodup, fun t => (hmem t).trans ⟨?_, ?_⟩⟩
  · rintro ⟨i, hid, hb⟩
    refine ⟨i, (he.id_stays (by simp [hb.1])).trans hid, ?_⟩
    rcases hsafe.blockedIn he hb with hb' | ⟨l, popped, left, hsplit, hleft, hpop⟩
    · exact hb'
    · -- nothing was popped
      rw [hfut, hsplit] at hleft
      obtain rfl : popped = [] := by simpa using hleft
      exact absurd hpop (by simp)
  · rintro ⟨i, hid, hb⟩
    obtain ⟨hid', hbefore⟩ := he.blockedIn_before hb
    rcases hbefore with hb' | ⟨-, -, -, happ⟩
    · exact ⟨i, hid'.symm.trans hid, hb'⟩
    · exact absurd hfut (appends_changes happ)

/-- The current thread, outside the scheduler, is on no queue. -/
theorem QueuesExact.current_not_mem (hw : Wf m) (h : QueuesExact m) (hu : m.control = .user)
    {c : Fin kMaxThreads} (hcur : m.sched.currentThread = some c) {k : Fin kMaxFutexes}
    (hk : (m.sched.futexes k).active = true) :
    (m.sched.threads c).id ∉ (m.sched.futexes k).waitingThreads := by
  intro hmem
  obtain ⟨i, hid, hb⟩ := ((h k hk).2 _).mp hmem
  obtain rfl : i = c := hw.distinct i c (BlockedIn.live hb) (Or.inr hcur) hid
  exact not_blockedIn_user hu hcur hb

/-- The current thread goes to the end of a queue. -/
theorem QueuesExact.queued (hw : Wf m) (hq : Queued m) (ho : OneQueue m.sched) (h : QueuesExact m)
    {address : UInt64} {expected : UInt32} {c : Fin kMaxThreads} {k : Fin kMaxFutexes}
    (he : Effect m (.call (.futexWait address expected expected)) m') (hu : m.control = .user)
    (hcur : m.sched.currentThread = some c) (hslot : findFutexSlot m.sched address = some k)
    (hfut : m'.sched.futexes = Function.update m.sched.futexes k { m.sched.futexQueue k address with
      waitingThreads := (m.sched.futexQueue k address).waitingThreads ++ [(m.sched.threads c).id] })
    (hc : m'.BlockedIn c address) : QueuesExact m' := by
  have hafter : ∀ i a, m.BlockedIn i a → m'.BlockedIn i a := by
    intro i a hb
    rcases he.blockedIn_after hb with hb' | hun | ⟨_, _, ha, -⟩
    · exact hb'
    · cases hun with
      | own hu hcur' => exact absurd hb (not_blockedIn_user hu hcur')
    · exact absurd ha (by simp)
  have hbefore : ∀ i a, m'.BlockedIn i a → (m'.sched.threads i).id = (m.sched.threads i).id ∧
      (m.BlockedIn i a ∨ (i = c ∧ a = address)) := by
    intro i a hb
    obtain ⟨hid, hb' | ⟨⟨expected', ha⟩, -, hcur', -⟩⟩ := he.blockedIn_before hb
    · exact ⟨hid, Or.inl hb'⟩
    · exact ⟨hid, Or.inr ⟨Option.some.inj (hcur'.symm.trans hcur), by cases ha; rfl⟩⟩
  have hid : ∀ i a, m.BlockedIn i a → (m'.sched.threads i).id = (m.sched.threads i).id :=
    fun i a hb => he.id_stays (by simp [hb.1])
  obtain ⟨-, haddr⟩ := appends_active m.sched (m.sched.threads c).id hslot
  intro l hl
  by_cases hlk : l = k
  · subst hlk
    rw [hfut, Function.update_self] at hl ⊢
    simp only [haddr]
    rcases findFutexSlot_some hslot with ⟨hact, haddr'⟩ | ⟨hfree, hno⟩
    · -- an existing queue of the address
      obtain ⟨hnodup, hmem⟩ := h l hact
      have hnot := h.current_not_mem hw hu hcur hact
      simp only [State.futexQueue, hact, if_true]
      refine ⟨?_, fun t => ⟨fun ht => ?_, ?_⟩⟩
      · exact List.nodup_append.mpr ⟨hnodup, by simp, by
          intro x hx y hy heq; simp only [List.mem_singleton] at hy; exact hnot (hy ▸ heq ▸ hx)⟩
      · rcases List.mem_append.mp ht with ht | ht
        · obtain ⟨i, hidt, hb⟩ := (hmem t).mp ht
          rw [haddr'] at hb
          exact ⟨i, (hid i _ hb).trans hidt, hafter i _ hb⟩
        · obtain rfl : t = (m.sched.threads c).id := by simpa using ht
          exact ⟨c, (hbefore c _ hc).1, hc⟩
      · rintro ⟨i, hidt, hb⟩
        obtain ⟨hidi, hb' | ⟨rfl, -⟩⟩ := hbefore i _ hb
        · exact List.mem_append_left _ ((hmem t).mpr ⟨i, hidi.symm.trans hidt, haddr' ▸ hb'⟩)
        · exact List.mem_append_right _ (by simp [← hidt, hidi])
    · -- a new queue: nobody was blocked on the address
      simp only [State.futexQueue, hfree, Bool.false_eq_true, if_false, List.nil_append]
      refine ⟨by simp, fun t => ⟨fun ht => ?_, ?_⟩⟩
      · obtain rfl : t = (m.sched.threads c).id := by simpa using ht
        exact ⟨c, (hbefore c _ hc).1, hc⟩
      · rintro ⟨i, hidt, hb⟩
        obtain ⟨hidi, hb' | ⟨rfl, -⟩⟩ := hbefore i _ hb
        · obtain ⟨j, hj, hja, -⟩ := hq i _ hb'
          exact absurd ⟨hj, hja⟩ (hno j)
        · simp [← hidt, hidi]
  · -- the other queues are of other addresses
    rw [hfut, Function.update_of_ne hlk] at hl ⊢
    have hne : (m.sched.futexes l).address ≠ address := by
      intro heq
      rcases findFutexSlot_some hslot with ⟨hact, haddr'⟩ | ⟨-, hno⟩
      · exact hlk (ho l k hl hact (heq.trans haddr'.symm))
      · exact hno l ⟨hl, heq⟩
    obtain ⟨hnodup, hmem⟩ := h l hl
    refine ⟨hnodup, fun t => (hmem t).trans ⟨?_, ?_⟩⟩
    · rintro ⟨i, hidt, hb⟩
      exact ⟨i, (hid i _ hb).trans hidt, hafter i _ hb⟩
    · rintro ⟨i, hidt, hb⟩
      obtain ⟨hidi, hb' | ⟨-, ha⟩⟩ := hbefore i _ hb
      · exact ⟨i, hidi.symm.trans hidt, hb'⟩
      · exact absurd ha hne

/-- `KernelFutexWake` pops a prefix of a queue and readies exactly the threads on it. -/
theorem QueuesExact.popped (hw : Wf m) (ho : OneQueue m.sched) (h : QueuesExact m)
    {address : UInt64} {count : UInt32} {k : Fin kMaxFutexes} {popped left : List UInt64}
    (he : Effect m (.call (.futexWake address count)) m')
    (hfind : findFutex m.sched address = some k)
    (hsplit : (m.sched.futexes k).waitingThreads = popped ++ left)
    (hfut : m'.sched.futexes = Function.update m.sched.futexes k
      { m.sched.futexes k with waitingThreads := left, active := !left.isEmpty })
    (hthreads : m'.sched.threads = m.sched.wokenThreads popped) : QueuesExact m' := by
  have hk : (m.sched.futexes k).active = true := by
    have hk' := Lib.firstSlot_true hfind
    simp only [Bool.and_eq_true] at hk'; exact hk'.1
  obtain ⟨hnodupk, hmemk⟩ := h k hk
  -- the blocked threads afterwards are the ones that were not popped
  have hafter : ∀ i a, m.BlockedIn i a → (m.sched.threads i).id ∉ popped → m'.BlockedIn i a := by
    rintro i a ⟨hstate, caller, expected, hf⟩ hnot
    refine ⟨?_, caller, expected, ?_⟩
    · rw [hthreads, wokenThreads_state, if_neg (fun hp => hnot hp.2), hstate]
    · rcases he.frame_stays (by simp [hstate]) hf with hf' | ⟨-, -, ha⟩
      · exact hf'
      · exact absurd ha (by simp)
  have hbefore : ∀ i a, m'.BlockedIn i a →
      m.BlockedIn i a ∧ (m.sched.threads i).id ∉ popped := by
    intro i a hb
    have hb' : m.BlockedIn i a := by
      obtain ⟨-, hb' | ⟨⟨expected', ha⟩, -⟩⟩ := he.blockedIn_before hb
      · exact hb'
      · exact absurd ha (by simp)
    refine ⟨hb', fun hpop => ?_⟩
    have hstate := hb.1
    rw [hthreads, wokenThreads_state, if_pos ⟨hb'.1, hpop⟩] at hstate
    exact absurd hstate (by simp)
  have hid : ∀ i, (m'.sched.threads i).id = (m.sched.threads i).id := by
    intro i; rw [hthreads, wokenThreads_id]
  intro l hl
  by_cases hlk : l = k
  · subst hlk
    rw [hfut, Function.update_self]
    simp only
    rw [hsplit] at hnodupk hmemk
    obtain ⟨-, hleft, hdisj⟩ := List.nodup_append.mp hnodupk
    refine ⟨hleft, fun t => ⟨fun ht => ?_, ?_⟩⟩
    · obtain ⟨i, hidt, hb⟩ := (hmemk t).mp (List.mem_append_right _ ht)
      refine ⟨i, (hid i).trans hidt, hafter i _ hb fun hpop => ?_⟩
      exact hdisj _ hpop t ht hidt
    · rintro ⟨i, hidt, hb⟩
      obtain ⟨hb', hnot⟩ := hbefore i _ hb
      rw [hid] at hidt
      have hall := (hmemk t).mpr ⟨i, hidt, hb'⟩
      rw [hidt] at hnot
      exact (List.mem_append.mp hall).resolve_left hnot
  · rw [hfut, Function.update_of_ne hlk] at hl ⊢
    obtain ⟨hnodup, hmem⟩ := h l hl
    refine ⟨hnodup, fun t => (hmem t).trans ⟨?_, ?_⟩⟩
    · rintro ⟨i, hidt, hb⟩
      refine ⟨i, (hid i).trans hidt, hafter i _ hb fun hpop => ?_⟩
      -- a popped thread is blocked on the other address
      obtain ⟨j, hidj, hbj⟩ := (hmemk (m.sched.threads i).id).mp (by rw [hsplit]; simp [hpop])
      obtain rfl : j = i := hw.distinct j i (BlockedIn.live hbj) (BlockedIn.live hb) hidj
      exact hlk (ho l k hl hk (blockedIn_address hb hbj))
    · rintro ⟨i, hidt, hb⟩
      exact ⟨i, (hid i).symm.trans hidt, (hbefore i _ hb).1⟩

theorem QueuesExact.next (hw : Wf m) (hq : Queued m) (ho : OneQueue m.sched) (h : QueuesExact m)
    (he : Effect m a m') (hsafe : FutexSafe m a) : QueuesExact m' := by
  cases he.futexView with
  | same hfut => exact h.same he hsafe hfut
  | @queued _ address expected c k hu hcur hslot hfut hthreads hcur' hrest =>
      refine h.queued hw hq ho he hu hcur hslot hfut
        ⟨by simp [hthreads], (m.sched.threads c).id, expected, ?_⟩
      rw [frame_current hcur', hrest]
  | popped k popped left hu hfind hsplit hfut hthreads =>
      exact h.popped hw ho he hfind hsplit hfut hthreads

/-! ## The agreement, from the lists -/

/-- `KernelFutexWake` on a thread: it leaves it alone, or pops a prefix of the queue of the address. -/
theorem futexWake_threads {s : State} (hd : IdsDistinct s) (address : UInt64) (count : UInt32) :
    (kernelFutexWake s address count).2.threads = s.threads ∨
      ∃ k popped left, findFutex s address = some k ∧
        (s.futexes k).waitingThreads = popped ++ left ∧
        (kernelFutexWake s address count).2.threads = s.wokenThreads popped := by
  unfold kernelFutexWake
  split
  · exact Or.inl rfl
  · split
    · exact Or.inl rfl
    · rename_i k hfind
      obtain ⟨popped, hsplit, hs⟩ :=
        futexWakeLoop_spec count (s.futexes k).waitingThreads 0 s hd
      exact Or.inr ⟨k, popped, _, hfind, hsplit, (congrArg State.threads hs :)⟩

theorem QueuesExact.wakes (hw : Wf m) (h : QueuesExact m) (address : UInt64) (count : UInt32)
    (hi : (m.sched.threads i).state = .blocked)
    (hready : ((kernelFutexWake m.sched address count).2.threads i).state = .ready) :
    m.BlockedIn i address := by
  rcases futexWake_threads hw.distinct address count with hsame | ⟨k, popped, left, hfind, hsplit, hpop⟩
  · rw [hsame, hi] at hready; exact absurd hready (by simp)
  · have hk := Lib.firstSlot_true hfind
    simp only [Bool.and_eq_true, beq_iff_eq] at hk
    have hmem : (m.sched.threads i).id ∈ popped := by
      by_contra hnot
      rw [hpop, wokenThreads_state, if_neg (fun hp => hnot hp.2), hi] at hready
      exact absurd hready (by simp)
    obtain ⟨j, hid, hb⟩ := ((h k hk.1).2 _).mp (by rw [hsplit]; exact List.mem_append_left _ hmem)
    obtain rfl : j = i := hw.distinct j i (BlockedIn.live hb) (Or.inl (by simp [hi])) hid
    exact hk.2 ▸ hb

theorem futexAgreement_iff (hw : Wf m) (ho : OneQueue m.sched) : FutexAgreement m ↔ QueuesExact m :=
  ⟨fun h k hk => ⟨h.nodup k hk, h.members k hk⟩, fun h =>
    { one := ho, nodup := fun k hk => (h k hk).1, members := fun k hk => (h k hk).2,
      wakes := fun address count _ => h.wakes hw address count }⟩

end Step

/-! ## Unsafe steps -/

section Unsafe

variable {m : Machine} {a : Action}

/-- A step that leaves the queues alone and exact leaves the blocked threads blocked. -/
theorem QueuesExact.still_blocked (hw : Wf m) (hq : Queued m) (h' : QueuesExact (m.step a))
    (hfut : (m.step a).sched.futexes = m.sched.futexes) {i : Fin kMaxThreads} {address : UInt64}
    (hb : m.BlockedIn i address) : (m.step a).BlockedIn i address := by
  obtain ⟨k, hk, haddr, hmem⟩ := hq i address hb
  obtain ⟨j, hid, hbj⟩ := ((h' k (by rw [hfut]; exact hk)).2 _).mp (by rw [hfut]; exact hmem)
  rw [hfut, haddr] at hbj
  obtain ⟨hidj, hbj' | ⟨-, -, -, happ⟩⟩ := (hw.effect a).blockedIn_before hbj
  · obtain rfl : j = i :=
      hw.distinct j i (BlockedIn.live hbj') (BlockedIn.live hb) (hidj.symm.trans hid)
    exact hbj
  · exact absurd hfut (appends_changes happ)

theorem signal_safe (hw : Wf m) (hq : Queued m) {id : UInt64} {signal : UInt32}
    (h' : QueuesExact (m.step (.call (.sendSignal id signal)))) :
    FutexSafe m (.call (.sendSignal id signal)) := by
  intro hu hsignal i address hfind hb
  have hstep : m.step (.call (.sendSignal id signal)) = m.returns (.sendSignal id signal) (.bool true)
      (m.sched.setThread i ((m.sched.threads i).signalled signal)) := by
    rw [step_call hu]
    simp only [Machine.call, kernelSendSignal, hfind, ge_iff_le, UInt32.not_le.mpr hsignal, if_false]
  have hb' := h'.still_blocked hw hq (by rw [hstep]; rfl) hb
  have hstate := hb'.1
  rw [hstep] at hstate
  simp [signalled_state, hb.1] at hstate

theorem terminate_futex_safe (hw : Wf m) (hq : Queued m) {pid : UInt64} {code : Int32}
    (h' : QueuesExact (m.step (.call (.terminateProcess pid code)))) :
    FutexSafe m (.call (.terminateProcess pid code)) := by
  intro hu hterm i address hb hp
  obtain ⟨proc, hproc⟩ := Option.ne_none_iff_exists'.mp hterm
  have hthreads : (m.step (.call (.terminateProcess pid code))).sched.threads
      = m.sched.survivors pid := by
    rw [step_call hu]; simp only [Machine.call, kernelTerminateProcess, hproc]; rfl
  have hfut : (m.step (.call (.terminateProcess pid code))).sched.futexes = m.sched.futexes := by
    rw [step_call hu]; simp only [Machine.call, kernelTerminateProcess, hproc]; rfl
  have hstate := (h'.still_blocked hw hq hfut hb).1
  rw [hthreads, survivors_state, if_pos hp] at hstate
  exact absurd hstate (by simp)

theorem unlock_futex_safe (hw : Wf m) (hq : Queued m) {id : UInt64}
    (h' : QueuesExact (m.step (.call (.mutexUnlock id)))) : FutexSafe m (.call (.mutexUnlock id)) := by
  intro hu c k j address hcur hi howner hinh hb
  have hstep := step_unlock_passes hu hcur hi howner hinh
  have hb' := h'.still_blocked hw hq (by rw [hstep]; rfl) hb
  have hstate := hb'.1
  rw [hstep] at hstate
  simp at hstate

theorem return_futex_safe (hw : Wf m) (hq : Queued m) (h' : QueuesExact (m.step .run)) :
    FutexSafe m .run := by
  intro c caller address expected hcur hc hblocked
  have hstep : m.step .run =
      m.returns (.futexWait address expected expected) (.bool true) m.sched := by
    simp [Machine.step, hc, Machine.resume]
  have hb : m.BlockedIn c address := ⟨hblocked, caller, expected, by rw [frame_current hcur, hc]; rfl⟩
  have hb' := h'.still_blocked hw hq (by rw [hstep]; rfl) hb
  rw [hstep] at hb'
  exact not_blockedIn_user (m := m.returns _ _ m.sched) rfl hcur hb'

end Unsafe

/-! ## Exactness -/

/-- What holds of the queues in every reachable state. -/
structure FutexBase (m : Machine) : Prop where
  wf     : Wf m
  one    : OneQueue m.sched
  queued : Queued m

theorem FutexBase.step {m : Machine} (h : FutexBase m) (a : Action) : FutexBase (m.step a) :=
  ⟨h.wf.step a, h.one.next (h.wf.effect a).futexView, h.queued.next (h.wf.effect a)⟩

theorem futexBase_boot (heap : { h : KernelHeap // h.InBlock }) : FutexBase (Machine.boot heap) := by
  refine ⟨wf_boot heap, fun k l hk => ?_, fun i address hb => ?_⟩
  · exact absurd hk (by simp [Machine.boot, kernelSchedulerInit])
  · obtain ⟨-, caller, expected, hf⟩ := hb
    exact absurd (boot_frame hf) (by simp)

/-- The step lemma: exactly the safe steps keep the agreement. -/
theorem futexAgreement_step_iff {m : Machine} (a : Action) (hb : FutexBase m) (h : FutexAgreement m) :
    FutexAgreement (m.step a) ↔ FutexSafe m a := by
  have hb' := hb.step a
  rw [futexAgreement_iff hb'.wf hb'.one]
  rw [futexAgreement_iff hb.wf hb.one] at h
  refine ⟨fun h' => ?_, h.next hb.wf hb.queued hb.one (hb.wf.effect a)⟩
  cases a with
  | run => exact return_futex_safe hb.wf hb.queued h'
  | call c =>
      cases c with
      | sendSignal id signal => exact signal_safe hb.wf hb.queued h'
      | terminateProcess pid code => exact terminate_futex_safe hb.wf hb.queued h'
      | mutexUnlock id => exact unlock_futex_safe hb.wf hb.queued h'
      | _ => trivial
  | _ => trivial

/-- **Queues and blocked threads agree throughout a run exactly when every step of it is safe.** -/
theorem futex_agreement_iff (heap : { h : KernelHeap // h.InBlock }) (as : List Action) :
    Lib.Throughout Machine.step FutexAgreement (Machine.boot heap) as ↔
      Lib.Along Machine.step FutexSafe (Machine.boot heap) as := by
  refine Lib.throughout_iff_along (B := FutexBase) (fun _ a h => h.step a)
    (fun _ a hb h => futexAgreement_step_iff a hb h) (futexBase_boot heap) ?_ as
  refine (futexAgreement_iff (wf_boot heap) (futexBase_boot heap).one).mpr fun k hk => ?_
  exact absurd hk (by simp [Machine.boot, kernelSchedulerInit])

/-- Thread 2 waits on a futex and is sent a signal. -/
def signalRun : List Action :=
  [.call (.createThread 1 none 5 0), .call .schedulerYield, .run, .run, .call (.futexWait 64 7 7),
    .run, .run, .call (.sendSignal 2 3)]

/-- Thread 2 is Ready and still on the queue. -/
theorem signalled_waiter_queued : ¬ FutexAgreement (reached heapAt2MiB signalRun) := by
  intro h
  obtain ⟨i, hid, hb⟩ := (h.members 0 (by decide +kernel) 2).mp (by decide +kernel)
  have hall : ∀ i, ((reached heapAt2MiB signalRun).sched.threads i).id = 2 →
      ((reached heapAt2MiB signalRun).sched.threads i).state = .ready := by decide +kernel
  exact absurd hb.1 (by rw [hall i hid]; simp)

end Scheduler
end UefiBoot
