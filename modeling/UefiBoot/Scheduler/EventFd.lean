import UefiBoot.Lib.Accounts
import UefiBoot.Scheduler.EventTable

/-!
# `Scheduler.EventFd` — the counters of eventfds are accounts

An eventfd is opened with an initial value, written to and read. `Event.entry` reads the log of a run as a
journal of the calls that succeeded, and the invariant `Books` says that the journal leads to exactly the
balances in the table, in numbers that do not wrap. Conservation is then the law of `Lib.Accounts`.
-/

namespace UefiBoot
namespace Scheduler

/-! ## The log as a journal -/

/-- What a log entry says about the accounts: a `KernelEventFd` that did not return -1 opens one, a
    `KernelEventFdWrite` that returned true adds to one, a `KernelEventFdRead` that returned true takes. -/
def Event.entry : Event → Option (Lib.Entry Int32 Nat)
  | .returned _ (.eventFd v) (.fd fd)               => if fd = -1 then none else some (.opened fd v.toNat)
  | .returned _ (.eventFdWrite fd v) (.bool true)   => some (.added fd v.toNat)
  | .returned _ (.eventFdRead fd) (.value (some v)) => some (.taken fd v.toNat)
  | _                                               => none

def journal (log : List Event) : List (Lib.Entry Int32 Nat) := log.filterMap Event.entry

section Journal

variable {m : Machine}

theorem entry_other {c : Call} (hc : c.onEvents = false) (t : UInt64) (r : Result) :
    (Event.returned t c r).entry = none := by
  cases c with
  | eventFd | eventFdWrite | eventFdRead => exact absurd hc (by simp [Call.onEvents])
  | _ => rfl

/-- A returning call adds its own entry and perhaps a creation. -/
theorem returns_log (c : Call) (r : Result) (s : State) :
    ∃ l, (m.returns c r s).log = .returned m.sched.currentId c r :: (l ++ m.log) ∧ ∀ e ∈ l, ∃ t, e = .created t := by
  refine ⟨Machine.creation m.sched s, rfl, fun e he => ?_⟩
  unfold Machine.creation at he
  split at he
  · exact absurd he List.not_mem_nil
  · exact ⟨_, List.mem_singleton.mp he⟩

/-- A returning call adds its own entry; a creation is none. -/
theorem journal_returns (c : Call) (r : Result) (s : State) :
    journal (m.returns c r s).log
      = (Event.returned m.sched.currentId c r).entry.toList ++ journal m.log := by
  obtain ⟨l, hlog, hcreated⟩ := returns_log (m := m) c r s
  have hnone : l.filterMap Event.entry = [] := by
    rw [List.filterMap_eq_nil_iff]
    intro e he
    obtain ⟨t, rfl⟩ := hcreated e he
    rfl
  rw [hlog]
  unfold journal
  rw [List.filterMap_cons, List.filterMap_append, hnone, List.nil_append]
  cases (Event.returned m.sched.currentId c r).entry with
  | none => rfl
  | some e => rfl

/-- An entry that tells nothing about event objects. -/
def Event.Aside : Event → Prop
  | .returned _ c _ => c.onEvents = false
  | _               => True

/-- The log has grown by entries that tell nothing about event objects. -/
def AddsAside (m m' : Machine) : Prop := ∃ l, m'.log = l ++ m.log ∧ ∀ e ∈ l, e.Aside

theorem AddsAside.nothing {m' : Machine} (h : m'.log = m.log) : AddsAside m m' :=
  ⟨[], h, fun _ he => absurd he List.not_mem_nil⟩

theorem AddsAside.journal {m' : Machine} (h : AddsAside m m') : journal m'.log = Scheduler.journal m.log := by
  obtain ⟨l, hlog, haside⟩ := h
  have hnone : l.filterMap Event.entry = [] := by
    rw [List.filterMap_eq_nil_iff]
    intro e he
    have hcall := haside e he
    cases e with
    | returned t c r => exact entry_other hcall t r
    | created t => rfl
    | panicked t => rfl
  rw [hlog]
  unfold Scheduler.journal
  rw [List.filterMap_append, hnone, List.nil_append]

theorem addsAside_returns {c : Call} (hc : c.onEvents = false) (r : Result) (s : State) :
    AddsAside m (m.returns c r s) := by
  obtain ⟨l, hlog, hcreated⟩ := returns_log (m := m) c r s
  refine ⟨.returned m.sched.currentId c r :: l, hlog, fun e he => ?_⟩
  rcases List.mem_cons.mp he with rfl | he
  · exact hc
  · obtain ⟨t, rfl⟩ := hcreated e he
    trivial

theorem addsAside_reply {ρ : Type} {c : Call} (hc : c.onEvents = false) (result : ρ → Result)
    (r : Reply ρ × State) : AddsAside m (m.reply c result r) := by
  obtain ⟨r, s⟩ := r
  cases r with
  | done r => exact addsAside_returns hc _ _
  | yields rest => exact .nothing rfl

theorem addsAside_call {c : Call} (hc : c.onEvents = false) : AddsAside m (m.call c) := by
  cases c with
  | pthreadJoin | futexWait | threadSleep | mutexLock => exact addsAside_reply hc _ _
  | schedulerYield => exact .nothing rfl
  | _ => exact addsAside_returns hc _ _

theorem addsAside_resume (rest : Continuation) : AddsAside m (m.resume rest) := by
  cases rest with
  | trampoline =>
      unfold Machine.resume
      dsimp only
      split
      · exact .nothing rfl
      · split
        · exact .nothing rfl
        · exact .nothing rfl
  | pthreadJoin caller id i => exact addsAside_reply rfl _ _
  | exited caller => exact ⟨[.panicked caller], rfl, fun e he => List.mem_singleton.mp he ▸ trivial⟩
  | _ => exact addsAside_returns rfl _ _

theorem addsAside_exit : AddsAside m m.exit := by
  unfold Machine.exit
  split
  · exact .nothing rfl
  · split
    · exact .nothing rfl
    · exact .nothing rfl

/-- **A step works on event objects by a call, or it leaves them and what the log tells of them alone.** -/
theorem step_onEvents (a : Action) :
    (∃ c, m.control = .user ∧ a = .call c ∧ c.onEvents = true ∧ m.step a = m.call c) ∨
      (SameEvents m.sched (m.step a).sched ∧ AddsAside m (m.step a)) := by
  unfold Machine.step
  split
  · exact Or.inr ⟨SameEvents.refl _, .nothing rfl⟩
  · exact Or.inr ⟨(aside_timerTick _).toSameEvents, .nothing rfl⟩
  · rename_i c hu
    cases hc : c.onEvents with
    | true => exact Or.inl ⟨c, hu, rfl, hc, rfl⟩
    | false => exact Or.inr ⟨call_events c hc, addsAside_call hc⟩
  · exact Or.inr ⟨aside_exit.toSameEvents, addsAside_exit⟩
  · exact Or.inr ⟨(aside_schedulerYield _ _).toSameEvents, .nothing rfl⟩
  · exact Or.inr ⟨(aside_resume _).toSameEvents, addsAside_resume _⟩
  · exact Or.inr ⟨SameEvents.refl _, .nothing rfl⟩

/-- **A step works on event objects by a call, or it moves no account.** -/
theorem step_other (a : Action) :
    (∃ c, m.control = .user ∧ a = .call c ∧ c.onEvents = true ∧ m.step a = m.call c) ∨
      (SameEvents m.sched (m.step a).sched ∧ journal (m.step a).log = journal m.log) :=
  (step_onEvents a).imp_right fun h => ⟨h.1, h.2.journal⟩

end Journal

/-! ## The invariant -/

/-- **The books are right**: the journal of the run leads to the counters in the table. -/
structure Books (m : Machine) : Prop where
  table  : EventTable m.sched
  posted : Lib.Posted (journal m.log) (counters m.sched)

section Invariant

variable {m : Machine} {s : State} {i : Fin kMaxEventObjects}

theorem SameEvents.table {s s' : State} (h : SameEvents s s') (ht : EventTable s) : EventTable s' :=
  ht.congr h.nextEventFd fun i => by rw [h.eventObjects]; exact ⟨rfl, rfl⟩

theorem SameEvents.counters {s s' : State} (h : SameEvents s s') : counters s' = counters s :=
  counters_congr fun i => by rw [h.eventObjects]; exact ⟨rfl, rfl, rfl⟩

theorem Polls.table {s s' : State} (h : Polls s s') (ht : EventTable s) : EventTable s' :=
  ht.congr h.next fun i => ⟨(h.obj i).1, (h.obj i).2.1⟩

theorem Polls.counters {s s' : State} (h : Polls s s') : counters s' = counters s :=
  counters_congr fun i => ⟨(h.obj i).1, (h.obj i).2.1, (h.obj i).counter⟩

/-- A call without an entry of its own. -/
theorem Books.returns_other (h : Books m) {c : Call} {r : Result} (ht : EventTable s)
    (hc : counters s = counters m.sched) (he : (Event.returned m.sched.currentId c r).entry = none) :
    Books (m.returns c r s) := by
  refine ⟨ht, ?_⟩
  rw [journal_returns, he]
  show Lib.Posted (journal m.log) (counters s)
  rw [hc]
  exact h.posted

/-- A call that posts an entry. -/
theorem Books.returns_posts (h : Books m) {c : Call} {r : Result} {e : Lib.Entry Int32 Nat}
    (ht : EventTable s) (he : (Event.returned m.sched.currentId c r).entry = some e)
    (hp : Lib.Posts (counters m.sched) e (counters s)) : Books (m.returns c r s) := by
  refine ⟨ht, ?_⟩
  rw [journal_returns, he]
  exact .post h.posted hp

/-- The write of an object that keeps its type and descriptor. -/
theorem EventTable.setEventObject (h : EventTable s) {o : EventObject}
    (htype : o.type = (s.eventObjects i).type) (hfd : o.fd = (s.eventObjects i).fd) :
    EventTable (s.setEventObject i o) := by
  refine h.congr rfl fun j => ?_
  show (Function.update s.eventObjects i o j).type = _ ∧ (Function.update s.eventObjects i o j).fd = _
  by_cases hji : j = i
  · rw [hji, Function.update_self]
    exact ⟨htype, hfd⟩
  · rw [Function.update_of_ne hji]
    exact ⟨rfl, rfl⟩

/-- ... and its counter. -/
theorem counters_setEventObject {o : EventObject} (htype : o.type = (s.eventObjects i).type)
    (hfd : o.fd = (s.eventObjects i).fd) (hcounter : o.counter = (s.eventObjects i).counter) :
    counters (s.setEventObject i o) = counters s := by
  refine counters_congr fun j => ?_
  show (Function.update s.eventObjects i o j).type = _ ∧ (Function.update s.eventObjects i o j).fd = _ ∧
    (Function.update s.eventObjects i o j).counter = _
  by_cases hji : j = i
  · rw [hji, Function.update_self]
    exact ⟨htype, hfd, hcounter⟩
  · rw [Function.update_of_ne hji]
    exact ⟨rfl, rfl, rfl⟩

/-- A new object that is no eventfd has no account. -/
theorem counters_withEventObject (h : EventTable s) (hfree : s.freeEventObject = some i) {o : EventObject}
    (htype : o.type ≠ .empty) (hfd : o.fd = s.nextEventFd) :
    counters (s.withEventObject i o) = Function.update (counters s) s.nextEventFd o.counter := by
  have hempty := freeEventObject_empty hfree
  rw [← hfd]
  exact counters_update h (h.withEventObject hfree htype hfd) rfl htype fun hne => absurd hempty hne

theorem books_epollCreate (h : Books m) : Books (m.call .epollCreate) := by
  unfold Machine.call
  dsimp only
  rcases epollCreate_cases m.sched with hcall | ⟨i, hfree, hcall⟩
  · rw [hcall]
    exact h.returns_other h.table rfl rfl
  · rw [hcall]
    have htype : EventObjectType.epoll ≠ .empty := by decide
    have hother : EventObjectType.epoll ≠ .event := by decide
    refine h.returns_other (h.table.withEventObject hfree htype rfl) ?_ rfl
    rw [counters_withEventObject h.table hfree htype rfl, counter_other hother,
      ← h.table.counters_next, Function.update_eq_self]

theorem books_timerFd (h : Books m) (initial interval : UInt64) :
    Books (m.call (.timerFd initial interval)) := by
  unfold Machine.call
  dsimp only
  rcases timerFd_cases m.sched initial interval with hcall | ⟨i, hfree, hcall⟩
  · rw [hcall]
    exact h.returns_other h.table rfl rfl
  · rw [hcall]
    have htype : EventObjectType.timer ≠ .empty := by decide
    have hother : EventObjectType.timer ≠ .event := by decide
    refine h.returns_other (h.table.withEventObject hfree htype rfl) ?_ rfl
    rw [counters_withEventObject h.table hfree htype rfl, counter_other hother,
      ← h.table.counters_next, Function.update_eq_self]

theorem books_eventFd (h : Books m) (v : UInt64) : Books (m.call (.eventFd v)) := by
  unfold Machine.call
  dsimp only
  rcases eventFd_cases m.sched v with hcall | ⟨i, hfree, hcall⟩
  · -- the table is full
    rw [hcall]
    exact h.returns_other h.table rfl rfl
  · rw [hcall]
    have htype : EventObjectType.event ≠ .empty := by decide
    have hne := h.table.next_ne
    refine h.returns_posts (e := .opened m.sched.nextEventFd v.toNat)
      (h.table.withEventObject hfree htype rfl) ?_ ?_
    · show (if m.sched.nextEventFd = -1 then none else some _) = _
      rw [if_neg hne]
    · rw [counters_withEventObject h.table hfree htype rfl, counter_event rfl]
      exact .opened _ _ h.table.counters_next

/-- The write of an object in use moves its account only. -/
theorem counters_set (h : EventTable s) {o : EventObject} (hused : (s.eventObjects i).type ≠ .empty)
    (htype : o.type = (s.eventObjects i).type) (hfd : o.fd = (s.eventObjects i).fd) :
    counters (s.setEventObject i o) = Function.update (counters s) o.fd o.counter :=
  counters_update h (h.setEventObject htype hfd) rfl (htype ▸ hused) fun _ => hfd.symm

/-- The account of an eventfd before and after its value is written. -/
theorem counters_setValue (h : EventTable s) {fd : Int32} (hfind : s.findEventObject fd = some i)
    (htype : (s.eventObjects i).type = .event) (v : UInt64) :
    counters s fd = some (s.eventObjects i).value.toNat ∧
      counters (s.setEventObject i { s.eventObjects i with value := v })
        = Function.update (counters s) fd (some v.toNat) := by
  obtain ⟨hused, rfl⟩ := findEventObject_some hfind
  constructor
  · rw [h.counters hused, counter_event htype]
  · have hcounter : ({ s.eventObjects i with value := v } : EventObject).counter = some v.toNat :=
      counter_event htype
    rw [counters_set (o := { s.eventObjects i with value := v }) h hused rfl rfl, hcounter]

theorem books_eventFdWrite (h : Books m) (fd : Int32) (v : UInt64) :
    Books (m.call (.eventFdWrite fd v)) := by
  unfold Machine.call
  dsimp only
  rcases eventFdWrite_cases m.sched fd v with hcall | ⟨i, hfind, htype, hsum, hcall⟩
  · rw [hcall]
    exact h.returns_other h.table rfl rfl
  · rw [hcall]
    obtain ⟨hbefore, hafter⟩ := counters_setValue h.table hfind htype ((m.sched.eventObjects i).value + v)
    refine h.returns_posts (h.table.setEventObject rfl rfl) rfl ?_
    rw [hafter, hsum]
    exact .added _ _ _ hbefore

theorem books_eventFdRead (h : Books m) (fd : Int32) : Books (m.call (.eventFdRead fd)) := by
  unfold Machine.call
  dsimp only
  rcases eventFdRead_cases m.sched fd with hcall | ⟨i, hfind, htype, hcall⟩
  · rw [hcall]
    exact h.returns_other h.table rfl rfl
  · rw [hcall]
    obtain ⟨hbefore, hafter⟩ := counters_setValue h.table hfind htype 0
    refine h.returns_posts (h.table.setEventObject rfl rfl) rfl ?_
    rw [hafter]
    refine .taken _ _ 0 ?_
    rw [hbefore, Nat.zero_add]

theorem books_timerFdRead (h : Books m) (fd : Int32) : Books (m.call (.timerFdRead fd)) := by
  unfold Machine.call
  dsimp only
  have hentry : ∀ v, (Event.returned m.sched.currentId (.timerFdRead fd) (.value v)).entry = none :=
    fun v => rfl
  rcases timerFdRead_cases m.sched fd with hcall | ⟨i, o, -, -, hpolled, hcall⟩
  · rw [hcall]
    exact h.returns_other h.table rfl (hentry _)
  · rw [hcall]
    exact h.returns_other (h.table.setEventObject hpolled.1 hpolled.2.1)
      (counters_setEventObject hpolled.1 hpolled.2.1 hpolled.counter) (hentry _)

theorem books_epollAdd (h : Books m) (fd watched : Int32) : Books (m.call (.epollAdd fd watched)) := by
  unfold Machine.call
  dsimp only
  rcases epollAdd_cases m.sched fd watched with hcall | ⟨i, -, htype, hcall⟩
  · rw [hcall]
    exact h.returns_other h.table rfl rfl
  · rw [hcall]
    exact h.returns_other (h.table.setEventObject rfl rfl) (counters_setEventObject rfl rfl rfl) rfl

theorem books_step (h : Books m) (a : Action) : Books (m.step a) := by
  rcases step_other (m := m) a with ⟨c, -, -, hc, hstep⟩ | ⟨hsame, hjournal⟩
  · rw [hstep]
    cases c with
    | epollCreate => exact books_epollCreate h
    | epollAdd fd watched => exact books_epollAdd h fd watched
    | epollWait fd buffer capacity =>
        have hpolls := polls_epollWait m.sched fd buffer capacity
        exact h.returns_other (hpolls.table h.table) hpolls.counters rfl
    | eventFd v => exact books_eventFd h v
    | eventFdWrite fd v => exact books_eventFdWrite h fd v
    | eventFdRead fd => exact books_eventFdRead h fd
    | timerFd initial interval => exact books_timerFd h initial interval
    | timerFdRead fd => exact books_timerFdRead h fd
    | _ => exact absurd hc (by simp [Call.onEvents])
  · refine ⟨hsame.table h.table, ?_⟩
    rw [hjournal, hsame.counters]
    exact h.posted

theorem books_boot (heap : { h : KernelHeap // h.InBlock }) : Books (Machine.boot heap) := by
  constructor
  · refine ⟨0, by decide, rfl, fun i => iff_of_true rfl (Nat.zero_le _), fun i hi => ?_⟩
    exact absurd hi (Nat.not_lt_zero _)
  · have hnone : counters (Machine.boot heap).sched = fun _ => none := by
      funext fd
      exact counters_none fun i hi => absurd rfl hi
    rw [hnone]
    exact .start

/-- **The books are right in every reachable state.** -/
theorem books_reached (heap : { h : KernelHeap // h.InBlock }) (as : List Action) :
    Books (reached heap as) :=
  Lib.run_invariant (I := Books) (fun _ a h => books_step h a) (books_boot heap) as

end Invariant

/-! ## One object at a time -/

/-- The calls that may write to an object: each writes to objects of one type, and all but a poll only to the
    object they name. -/
def Call.writes (o : EventObject) : Call → Prop
  | .eventFdWrite fd _ => o.type = .event ∧ o.fd = fd
  | .eventFdRead fd    => o.type = .event ∧ o.fd = fd
  | .epollAdd fd _     => o.type = .epoll ∧ o.fd = fd
  | .timerFdRead fd    => o.type = .timer ∧ o.fd = fd
  | .epollWait ..      => o.type = .timer
  | _                  => False

section Objects

variable {m : Machine} {i : Fin kMaxEventObjects}

/-- A new object does not touch those in use. -/
theorem withEventObject_used {s : State} {j : Fin kMaxEventObjects} (hfree : s.freeEventObject = some j)
    (o : EventObject) (hi : (s.eventObjects i).type ≠ .empty) :
    (s.withEventObject j o).eventObjects i = s.eventObjects i := by
  have hij : i ≠ j := by
    rintro rfl
    exact hi (freeEventObject_empty hfree)
  exact Function.update_of_ne hij ..

/-- A write to the slot a descriptor finds. -/
theorem setEventObject_found {s : State} {j : Fin kMaxEventObjects} {fd : Int32}
    (hfind : s.findEventObject fd = some j) (o : EventObject) :
    (s.setEventObject j o).eventObjects i = s.eventObjects i ∨ i = j ∧ (s.eventObjects i).fd = fd := by
  by_cases hij : i = j
  · rw [hij]
    exact Or.inr ⟨rfl, (findEventObject_some hfind).2⟩
  · exact Or.inl (Function.update_of_ne hij ..)

/-- **A step writes to an object in use only by a call on it.** -/
theorem step_object (a : Action) (hi : (m.sched.eventObjects i).type ≠ .empty) :
    (m.step a).sched.eventObjects i = m.sched.eventObjects i ∨
      ∃ c : Call, a = .call c ∧ c.writes (m.sched.eventObjects i) := by
  rcases step_other (m := m) a with ⟨c, -, rfl, hc, hstep⟩ | ⟨hsame, -⟩
  · rw [hstep]
    cases c with
    | epollCreate =>
        rcases epollCreate_cases m.sched with hcall | ⟨j, hfree, hcall⟩
        · exact Or.inl (by simp [Machine.call, hcall])
        · exact Or.inl (by simp [Machine.call, hcall, withEventObject_used hfree _ hi])
    | eventFd v =>
        rcases eventFd_cases m.sched v with hcall | ⟨j, hfree, hcall⟩
        · exact Or.inl (by simp [Machine.call, hcall])
        · exact Or.inl (by simp [Machine.call, hcall, withEventObject_used hfree _ hi])
    | timerFd initial interval =>
        rcases timerFd_cases m.sched initial interval with hcall | ⟨j, hfree, hcall⟩
        · exact Or.inl (by simp [Machine.call, hcall])
        · exact Or.inl (by simp [Machine.call, hcall, withEventObject_used hfree _ hi])
    | epollAdd fd watched =>
        rcases epollAdd_cases m.sched fd watched with hcall | ⟨j, hfind, htype, hcall⟩
        · exact Or.inl (by simp [Machine.call, hcall])
        · simp only [Machine.call, hcall, Machine.returns_sched]
          exact (setEventObject_found hfind _).imp_right fun ⟨hij, hfd⟩ => ⟨_, rfl, hij ▸ htype, hfd⟩
    | epollWait fd buffer capacity =>
        have hpolled := (polls_epollWait m.sched fd buffer capacity).obj i
        by_cases htimer : (m.sched.eventObjects i).type = .timer
        · exact Or.inr ⟨_, rfl, htimer⟩
        · exact Or.inl (hpolled.2.2 htimer)
    | eventFdWrite fd v =>
        rcases eventFdWrite_cases m.sched fd v with hcall | ⟨j, hfind, htype, -, hcall⟩
        · exact Or.inl (by simp [Machine.call, hcall])
        · simp only [Machine.call, hcall, Machine.returns_sched]
          exact (setEventObject_found hfind _).imp_right fun ⟨hij, hfd⟩ => ⟨_, rfl, hij ▸ htype, hfd⟩
    | eventFdRead fd =>
        rcases eventFdRead_cases m.sched fd with hcall | ⟨j, hfind, htype, hcall⟩
        · exact Or.inl (by simp [Machine.call, hcall])
        · simp only [Machine.call, hcall, Machine.returns_sched]
          exact (setEventObject_found hfind _).imp_right fun ⟨hij, hfd⟩ => ⟨_, rfl, hij ▸ htype, hfd⟩
    | timerFdRead fd =>
        rcases timerFdRead_cases m.sched fd with hcall | ⟨j, o, hfind, htype, -, hcall⟩
        · exact Or.inl (by simp [Machine.call, hcall])
        · simp only [Machine.call, hcall, Machine.returns_sched]
          exact (setEventObject_found hfind _).imp_right fun ⟨hij, hfd⟩ => ⟨_, rfl, hij ▸ htype, hfd⟩
    | _ => exact absurd hc (by simp [Call.onEvents])
  · exact Or.inl (by rw [hsame.eventObjects])

end Objects

/-! ## Conservation -/

/-- **Eventfds conserve what is written to them.** In every reachable state, a descriptor that `KernelEventFd`
    returned names an eventfd, and its initial value with the sum of the accepted writes is the sum of what
    reads returned with its counter. A write or read that is refused changes nothing; an accepted write adds
    its value without wrapping; and no step writes to an object but by a call that works on it. -/
theorem eventFd_conserved (heap : { h : KernelHeap // h.InBlock }) (as : List Action) :
    (∀ t v fd, Event.returned t (.eventFd v) (.fd fd) ∈ (reached heap as).log → fd ≠ -1 →
      ∃ i, (reached heap as).sched.findEventObject fd = some i ∧
        ((reached heap as).sched.eventObjects i).type = .event ∧
        v.toNat + Lib.addedTo fd (journal (reached heap as).log)
          = Lib.takenFrom fd (journal (reached heap as).log)
            + ((reached heap as).sched.eventObjects i).value.toNat) ∧
    (∀ fd v, (kernelEventFdWrite (reached heap as).sched fd v).1 = false →
      (kernelEventFdWrite (reached heap as).sched fd v).2 = (reached heap as).sched) ∧
    (∀ fd, (kernelEventFdRead (reached heap as).sched fd).1 = none →
      (kernelEventFdRead (reached heap as).sched fd).2 = (reached heap as).sched) ∧
    (∀ fd v, (kernelEventFdWrite (reached heap as).sched fd v).1 = true →
      ∃ i, (reached heap as).sched.findEventObject fd = some i ∧
        ((kernelEventFdWrite (reached heap as).sched fd v).2.eventObjects i).value.toNat
          = ((reached heap as).sched.eventObjects i).value.toNat + v.toNat) ∧
    (∀ a i, ((reached heap as).sched.eventObjects i).type ≠ .empty →
      ((reached heap as).step a).sched.eventObjects i = (reached heap as).sched.eventObjects i ∨
        ∃ c : Call, a = .call c ∧ c.writes ((reached heap as).sched.eventObjects i)) := by
  have hbooks := books_reached heap as
  generalize reached heap as = m at hbooks ⊢
  refine ⟨fun t v fd hlog hfd => ?_, fun fd v hw => ?_, fun fd hr => ?_, fun fd v hw => ?_,
    fun a i hi => step_object a hi⟩
  · -- the creation is an entry of the journal
    have hentry : Lib.Entry.opened fd v.toNat ∈ journal m.log := by
      refine List.mem_filterMap.mpr ⟨_, hlog, ?_⟩
      exact if_neg hfd
    obtain ⟨x, hx, hlaw⟩ := hbooks.posted.conserved hentry
    cases hfind : m.sched.findEventObject fd with
    | none => simp [counters, hfind] at hx
    | some i =>
        have hcounter : (m.sched.eventObjects i).counter = some x := by
          simpa [counters, hfind] using hx
        have htype : (m.sched.eventObjects i).type = .event := by
          by_contra hne
          rw [counter_other hne] at hcounter
          exact absurd hcounter (by simp)
        rw [counter_event htype, Option.some.injEq] at hcounter
        exact ⟨i, rfl, htype, by rw [hcounter]; exact hlaw⟩
  · rcases eventFdWrite_cases m.sched fd v with hcall | ⟨i, -, -, -, hcall⟩
    · rw [hcall]
    · rw [hcall] at hw
      exact absurd hw (by simp)
  · rcases eventFdRead_cases m.sched fd with hcall | ⟨i, -, -, hcall⟩
    · rw [hcall]
    · rw [hcall] at hr
      exact absurd hr (by simp)
  · rcases eventFdWrite_cases m.sched fd v with hcall | ⟨i, hfind, -, hsum, hcall⟩
    · rw [hcall] at hw
      exact absurd hw (by simp)
    · rw [hcall]
      refine ⟨i, hfind, ?_⟩
      show (Function.update m.sched.eventObjects i _ i).value.toNat = _
      rw [Function.update_self]
      exact hsum

/-- An eventfd opened with 5, written 3, read, and written 7: `5 + (3 + 7) = 8 + 7`. -/
theorem eventFd_conserved_example :
    let m := reached heapAt2MiB [.call (.eventFd 5), .call (.eventFdWrite 32 3), .call (.eventFdRead 32),
      .call (.eventFdWrite 32 7)]
    Lib.addedTo 32 (journal m.log) = 10 ∧ Lib.takenFrom 32 (journal m.log) = 8 ∧
      ∃ i, m.sched.findEventObject 32 = some i ∧ (m.sched.eventObjects i).type = .event ∧
        (5 : UInt64).toNat + Lib.addedTo 32 (journal m.log)
          = Lib.takenFrom 32 (journal m.log) + (m.sched.eventObjects i).value.toNat :=
  ⟨by decide +kernel, by decide +kernel,
    (eventFd_conserved heapAt2MiB _).1 1 5 32 (by decide +kernel) (by decide)⟩

end Scheduler
end UefiBoot
