import UefiBoot.Scheduler.Sync

/-!
# `Scheduler.Wake` — what `KernelFutexWake` takes off a queue

The loop of `KernelFutexWake` pops an id on every turn, but counts only the turns that find a Blocked thread. So the
number of turns depends on what the queue holds, and a queue may hold anything: ids of threads that are gone, finished
or awake, and the same id twice. `futexWake_exact` says what is popped for every thread table and every queue: the
shortest prefix with as many Blocked threads as the call may wake.

`blockedAmong` counts threads and not entries of the queue. Once a thread has been made Ready, a second entry of it is
as stale as any other, which is what `blockedAmong_ready` carries through the loop.
-/

namespace UefiBoot
namespace Scheduler

/-- The Blocked threads that `FindThread` finds under the ids of a list. -/
def State.blockedAmong (s : State) (ids : List UInt64) : Finset (Fin kMaxThreads) :=
  {j | (s.threads j).state = .blocked ∧ ∃ id ∈ ids, s.findThread id = some j}

variable {s t : State} {ids popped : List UInt64} {id : UInt64} {i j : Fin kMaxThreads} {count woken : UInt32}

theorem mem_blockedAmong :
    j ∈ s.blockedAmong ids ↔ (s.threads j).state = .blocked ∧ ∃ id ∈ ids, s.findThread id = some j := by
  unfold State.blockedAmong
  rw [Finset.mem_filter]
  exact and_iff_right (Finset.mem_univ j)

@[simp] theorem blockedAmong_nil (s : State) : s.blockedAmong [] = ∅ := by
  ext j
  rw [mem_blockedAmong]
  simp

theorem blockedAmong_mono {l : List UInt64} (h : ∀ id ∈ ids, id ∈ l) : s.blockedAmong ids ⊆ s.blockedAmong l := by
  intro j hj
  obtain ⟨hblocked, id, hid, hfind⟩ := mem_blockedAmong.mp hj
  exact mem_blockedAmong.mpr ⟨hblocked, id, h id hid, hfind⟩

/-- An id that leads to no Blocked thread adds none. -/
theorem blockedAmong_stale (h : ∀ j, s.findThread id = some j → (s.threads j).state ≠ .blocked) (ids : List UInt64) :
    s.blockedAmong (id :: ids) = s.blockedAmong ids := by
  ext j
  rw [mem_blockedAmong, mem_blockedAmong]
  constructor
  · rintro ⟨hblocked, id', hid', hfind⟩
    rcases List.mem_cons.mp hid' with rfl | hid'
    · exact absurd hblocked (h j hfind)
    · exact ⟨hblocked, id', hid', hfind⟩
  · rintro ⟨hblocked, id', hid', hfind⟩
    exact ⟨hblocked, id', List.mem_cons_of_mem _ hid', hfind⟩

/-- A Blocked thread made Ready is found as before. -/
theorem findThread_ready (hj : (s.threads j).state = .blocked) (id : UInt64) :
    (s.setThread j { s.threads j with state := .ready }).findThread id = s.findThread id := by
  unfold State.findThread
  congr 1
  funext k
  rw [State.setThread_threads]
  by_cases hk : k = j
  · rw [hk, Function.update_self, hj]
    rfl
  · rw [Function.update_of_ne hk]

/-- Making a Blocked thread Ready takes it out, and no other. -/
theorem blockedAmong_ready (hj : (s.threads j).state = .blocked) (ids : List UInt64) :
    (s.setThread j { s.threads j with state := .ready }).blockedAmong ids = (s.blockedAmong ids).erase j := by
  ext k
  rw [Finset.mem_erase, mem_blockedAmong, mem_blockedAmong]
  simp only [findThread_ready hj, State.setThread_threads]
  by_cases hk : k = j
  · rw [hk, Function.update_self]
    simp
  · rw [Function.update_of_ne hk]
    simp [hk]

/-- The head of the queue is Blocked: it is one thread more than those behind it, itself left out. -/
theorem card_blockedAmong_cons (hfind : s.findThread id = some j) (hj : (s.threads j).state = .blocked)
    (ids : List UInt64) :
    (s.blockedAmong (id :: ids)).card =
      ((s.setThread j { s.threads j with state := .ready }).blockedAmong ids).card + 1 := by
  have hmem : j ∈ s.blockedAmong (id :: ids) := mem_blockedAmong.mpr ⟨hj, id, List.mem_cons_self, hfind⟩
  have herase : (s.blockedAmong (id :: ids)).erase j = (s.blockedAmong ids).erase j := by
    ext k
    rw [Finset.mem_erase, Finset.mem_erase, mem_blockedAmong, mem_blockedAmong]
    constructor
    · rintro ⟨hk, hblocked, id', hid', hfind'⟩
      rcases List.mem_cons.mp hid' with rfl | hid'
      · exact absurd (Option.some.inj (hfind'.symm.trans hfind)) hk
      · exact ⟨hk, hblocked, id', hid', hfind'⟩
    · rintro ⟨hk, hblocked, id', hid', hfind'⟩
      exact ⟨hk, hblocked, id', List.mem_cons_of_mem _ hid', hfind'⟩
  rw [blockedAmong_ready hj, ← herase, Finset.card_erase_of_mem hmem]
  have hpos : 0 < (s.blockedAmong (id :: ids)).card := Finset.card_pos.mpr ⟨j, hmem⟩
  omega

/-- `s` with the Blocked threads of a list made Ready. -/
def State.readied (s : State) (ids : List UInt64) : State :=
  { s with threads := fun j =>
      if j ∈ s.blockedAmong ids then { s.threads j with state := .ready } else s.threads j }

theorem readied_cons (hfind : s.findThread id = some j) (hj : (s.threads j).state = .blocked) (ids : List UInt64) :
    (s.setThread j { s.threads j with state := .ready }).readied ids = s.readied (id :: ids) := by
  unfold State.readied
  rw [blockedAmong_ready hj]
  congr 1
  funext k
  rw [State.setThread_threads]
  by_cases hk : k = j
  · have hmem : j ∈ s.blockedAmong (id :: ids) := mem_blockedAmong.mpr ⟨hj, id, List.mem_cons_self, hfind⟩
    rw [hk, Function.update_self, if_neg (Finset.notMem_erase j _), if_pos hmem]
  · rw [Function.update_of_ne hk]
    have hiff : k ∈ (s.blockedAmong ids).erase j ↔ k ∈ s.blockedAmong (id :: ids) := by
      rw [Finset.mem_erase, mem_blockedAmong, mem_blockedAmong]
      constructor
      · rintro ⟨-, hblocked, id', hid', hfind'⟩
        exact ⟨hblocked, id', List.mem_cons_of_mem _ hid', hfind'⟩
      · rintro ⟨hblocked, id', hid', hfind'⟩
        rcases List.mem_cons.mp hid' with rfl | hid'
        · exact absurd (Option.some.inj (hfind'.symm.trans hfind)) hk
        · exact ⟨hk, hblocked, id', hid', hfind'⟩
    by_cases hmem : k ∈ s.blockedAmong (id :: ids)
    · rw [if_pos (hiff.mpr hmem), if_pos hmem]
    · rw [if_neg fun h => hmem (hiff.mp h), if_neg hmem]

/-- What the loop has done when it stops: `popped` is gone from the front of `ids`, `left` is what remains. -/
structure Woke (count woken : UInt32) (ids : List UInt64) (s : State) (popped : List UInt64)
    (r : (UInt32 × List UInt64) × State) : Prop where
  split   : ids = popped ++ r.1.2
  number  : r.1.1.toNat = woken.toNat + (s.blockedAmong popped).card
  most    : r.1.1 ≤ count
  /-- It stops early only when it has woken as many as it may. -/
  stopped : r.1.2 ≠ [] → r.1.1 = count
  /-- On the way it had woken fewer. -/
  before  : ∀ m < popped.length, woken.toNat + (s.blockedAmong (popped.take m)).card < count.toNat
  state   : r.2 = s.readied popped

/-- The loop stops at once. -/
theorem Woke.stop (hmost : woken ≤ count) (hstopped : ids ≠ [] → woken = count) :
    Woke count woken ids s [] ((woken, ids), s) := by
  constructor
  · rfl
  · rw [blockedAmong_nil, Finset.card_empty, Nat.add_zero]
  · exact hmost
  · exact hstopped
  · intro m hm
    exact absurd hm (Nat.not_lt_zero m)
  · unfold State.readied
    simp only [blockedAmong_nil, Finset.notMem_empty, if_false]

/-- A turn that finds nobody to wake. -/
theorem Woke.skip {r} (hlt : woken < count) (hstale : ∀ j, s.findThread id = some j → (s.threads j).state ≠ .blocked)
    (h : Woke count woken ids s popped r) : Woke count woken (id :: ids) s (id :: popped) r := by
  constructor
  · rw [List.cons_append, ← h.split]
  · rw [blockedAmong_stale hstale]
    exact h.number
  · exact h.most
  · exact h.stopped
  · intro m hm
    cases m with
    | zero =>
        rw [List.take_zero, blockedAmong_nil, Finset.card_empty, Nat.add_zero]
        exact UInt32.lt_iff_toNat_lt.mp hlt
    | succ m =>
        rw [List.take_succ_cons, blockedAmong_stale hstale]
        exact h.before m (Nat.lt_of_succ_lt_succ hm)
  · rw [h.state]
    unfold State.readied
    rw [blockedAmong_stale hstale]

/-- A turn that wakes a thread. -/
theorem Woke.wake {r} (hlt : woken < count) (hfind : s.findThread id = some j) (hj : (s.threads j).state = .blocked)
    (h : Woke count (woken + 1) ids (s.setThread j { s.threads j with state := .ready }) popped r) :
    Woke count woken (id :: ids) s (id :: popped) r := by
  have hone : (1 : UInt32).toNat = 1 := rfl
  have hsucc : (woken + 1).toNat = woken.toNat + 1 := by
    have hw := UInt32.lt_iff_toNat_lt.mp hlt
    have hc := count.toNat_lt
    rw [UInt32.toNat_add, hone]
    omega
  constructor
  · rw [List.cons_append, ← h.split]
  · rw [h.number, card_blockedAmong_cons hfind hj, hsucc]
    omega
  · exact h.most
  · exact h.stopped
  · intro m hm
    cases m with
    | zero =>
        rw [List.take_zero, blockedAmong_nil, Finset.card_empty, Nat.add_zero]
        exact UInt32.lt_iff_toNat_lt.mp hlt
    | succ m =>
        have hbefore := h.before m (Nat.lt_of_succ_lt_succ hm)
        rw [List.take_succ_cons, card_blockedAmong_cons hfind hj]
        omega
  · rw [h.state, readied_cons hfind hj]

/-- **The wake loop**, for any thread table and any queue. -/
theorem futexWakeLoop_woke (count : UInt32) (ids : List UInt64) (woken : UInt32) (s : State) (hmost : woken ≤ count) :
    ∃ popped, Woke count woken ids s popped (futexWakeLoop count ids woken s) := by
  fun_induction futexWakeLoop count ids woken s with
  | case1 woken s => exact ⟨[], .stop hmost fun hne => absurd rfl hne⟩
  | case2 id rest woken s hlt j hfind hblocked ih =>
      have hle : woken + 1 ≤ count := by
        have hone : (1 : UInt32).toNat = 1 := rfl
        have hw := UInt32.lt_iff_toNat_lt.mp hlt
        rw [UInt32.le_iff_toNat_le, UInt32.toNat_add, hone]
        omega
      obtain ⟨popped, h⟩ := ih hle
      exact ⟨id :: popped, h.wake hlt hfind hblocked⟩
  | case3 id rest woken s hlt j hfind hnot ih =>
      obtain ⟨popped, h⟩ := ih hmost
      refine ⟨id :: popped, h.skip hlt fun k hk => ?_⟩
      rw [← Option.some.inj (hfind.symm.trans hk)]
      exact hnot
  | case4 id rest woken s hlt hfind ih =>
      obtain ⟨popped, h⟩ := ih hmost
      refine ⟨id :: popped, h.skip hlt fun k hk => ?_⟩
      rw [hfind] at hk
      exact absurd hk (by simp)
  | case5 id rest woken s hlt =>
      exact ⟨[], .stop hmost fun _ => UInt32.le_antisymm hmost (UInt32.not_lt.mp hlt)⟩

/-- **What `KernelFutexWake` does to the queue of an address.** It may wake as many Blocked threads as the queue has,
    `count` at most. It pops the shortest prefix that has that many of them (everything, when the queue has fewer than
    `count`), makes them Ready and changes no other thread, and returns their number. -/
theorem futexWake_exact (s : State) (address : UInt64) (count : UInt32) (k : Fin kMaxFutexes) (haddress : address ≠ 0)
    (hcount : count ≠ 0) (hqueue : findFutex s address = some k) :
    let queue := (s.futexes k).waitingThreads
    let wakes := min count.toNat (s.blockedAmong queue).card
    let r := kernelFutexWake s address count
    ∃ n ≤ queue.length,
      (if (s.blockedAmong queue).card < count.toNat then n = queue.length
        else IsLeast {m | wakes ≤ (s.blockedAmong (queue.take m)).card} n) ∧
      (s.blockedAmong (queue.take n)).card = wakes ∧
      r.1.toNat = wakes ∧
      r.2 = { s with
        threads := fun j => if j ∈ s.blockedAmong (queue.take n) then { s.threads j with state := .ready }
          else s.threads j
        futexes := Function.update s.futexes k { s.futexes k with
          waitingThreads := queue.drop n, active := decide (queue.drop n ≠ []) } } := by
  intro queue wakes r
  obtain ⟨popped, h⟩ := futexWakeLoop_woke count queue 0 s (UInt32.le_iff_toNat_le.mpr (Nat.zero_le _))
  generalize hloop : futexWakeLoop count queue 0 s = loop at h
  obtain ⟨⟨woken, left⟩, t⟩ := loop
  obtain ⟨hsplit, hnumber, hmost, hstopped, hbefore, hstate⟩ := h
  have hzero : (0 : UInt32).toNat = 0 := rfl
  dsimp only at hsplit hnumber hmost hstopped hstate
  rw [hzero, Nat.zero_add] at hnumber
  rw [UInt32.le_iff_toNat_le] at hmost
  have htake : queue.take popped.length = popped := by rw [hsplit, List.take_left]
  have hdrop : queue.drop popped.length = left := by rw [hsplit, List.drop_left]
  have hpart : (s.blockedAmong popped).card ≤ (s.blockedAmong queue).card := by
    refine Finset.card_le_card (blockedAmong_mono fun id hid => ?_)
    rw [hsplit]
    exact List.mem_append_left _ hid
  -- a queue with fewer Blocked threads than `count` is popped to its end
  have hall : (s.blockedAmong queue).card < count.toNat → left = [] := by
    intro hfew
    by_contra hne
    have hfull := congrArg UInt32.toNat (hstopped hne)
    omega
  have hwakes : (s.blockedAmong popped).card = wakes := by
    show _ = min count.toNat (s.blockedAmong queue).card
    by_cases hleft : left = []
    · have hwhole : queue = popped := by rw [hsplit, hleft, List.append_nil]
      rw [← hnumber, hwhole, ← hnumber]
      omega
    · have hfull := congrArg UInt32.toNat (hstopped hleft)
      omega
  refine ⟨popped.length, ?_, ?_, ?_, ?_, ?_⟩
  · rw [hsplit, List.length_append]
    exact Nat.le_add_right _ _
  · split
    · rename_i hfew
      rw [hsplit, hall hfew, List.append_nil]
    · rename_i hmany
      refine ⟨?_, fun m hm => ?_⟩
      · show wakes ≤ (s.blockedAmong (queue.take popped.length)).card
        rw [htake, hwakes]
      · -- a shorter prefix has fewer than `count`
        by_contra hlt
        have hless := hbefore m (Nat.not_le.mp hlt)
        have hfirst : queue.take m = popped.take m := by
          rw [hsplit, List.take_append_of_le_length (by omega)]
        have hm' : wakes ≤ (s.blockedAmong (queue.take m)).card := hm
        rw [hfirst] at hm'
        rw [hzero, Nat.zero_add] at hless
        have hmin : wakes = min count.toNat (s.blockedAmong queue).card := rfl
        omega
  · rw [htake]
    exact hwakes
  · have hr : r.1 = woken := by
      show (kernelFutexWake s address count).1 = _
      unfold kernelFutexWake
      rw [if_neg (not_or.mpr ⟨haddress, hcount⟩), hqueue]
      dsimp only
      rw [hloop]
    rw [hr, hnumber, hwakes]
  · show (kernelFutexWake s address count).2 = _
    unfold kernelFutexWake
    rw [if_neg (not_or.mpr ⟨haddress, hcount⟩), hqueue, htake, hdrop]
    dsimp only
    rw [hloop]
    dsimp only
    rw [hstate]
    have hactive : (!left.isEmpty) = decide (left ≠ []) := by cases left <;> rfl
    rw [hactive]
    rfl

/-- A queue with an id that no thread has, a thread twice, and a finished thread. -/
def crowdedQueue : State :=
  { threads := fun j =>
      if j = 1 then { id := 5, state := .blocked }
      else if j = 2 then { id := 6, state := .finished }
      else if j = 3 then { id := 7, state := .blocked }
      else {}
    futexes := fun k =>
      if k = 0 then { address := 0x1000, waitingThreads := [9, 5, 5, 6, 7, 5], active := true } else {} }

theorem futexWake_exact_crowded :
    ∃ n ≤ 6, (crowdedQueue.blockedAmong ([9, 5, 5, 6, 7, 5].take n)).card =
        min 2 (crowdedQueue.blockedAmong [9, 5, 5, 6, 7, 5]).card ∧
      (kernelFutexWake crowdedQueue 0x1000 2).1.toNat = min 2 (crowdedQueue.blockedAmong [9, 5, 5, 6, 7, 5]).card := by
  obtain ⟨n, hn, -, hcard, hnumber, -⟩ :=
    futexWake_exact crowdedQueue 0x1000 2 0 (by decide) (by decide) (by decide +kernel)
  exact ⟨n, hn, hcard, hnumber⟩

end Scheduler
end UefiBoot
