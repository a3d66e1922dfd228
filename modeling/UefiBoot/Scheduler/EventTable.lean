import UefiBoot.Scheduler.Frame

/-!
# `Scheduler.EventTable` — the table of event objects

Objects are never freed, so the table is filled from the front and a descriptor names one slot for good
(`EventTable`). Each function of `Scheduler.Events` gets one lemma with the ways it can end: it fails and changes
nothing, it takes the first free slot, or it writes to the slot its descriptor finds. A poll writes to the
timers it watches and to nothing else (`Polls`).

`counters` reads the table as the balances of the eventfds; epolls and timers have none.
-/

namespace UefiBoot
namespace Scheduler

/-! ## Slots and descriptors -/

/-- The descriptor of the object in slot `n`: objects are never freed. -/
def descriptor (n : Nat) : Int32 := 32 + Int32.ofNat n

theorem descriptor_succ (n : Nat) : descriptor n + 1 = descriptor (n + 1) := by
  have hone : Int32.ofNat (n + 1) = Int32.ofNat n + 1 := Int32.ofNat_add n 1
  unfold descriptor
  rw [hone, Int32.add_assoc]

theorem descriptor_inj {n k : Nat} (hn : n ≤ kMaxEventObjects) (hk : k ≤ kMaxEventObjects)
    (h : descriptor n = descriptor k) : n = k := by
  have hall : ∀ a b : Fin (kMaxEventObjects + 1), descriptor a.val = descriptor b.val → a = b := by decide
  have hab := hall ⟨n, Nat.lt_succ_of_le hn⟩ ⟨k, Nat.lt_succ_of_le hk⟩ h
  exact Fin.mk.inj_iff.mp hab

theorem descriptor_ne {n : Nat} (hn : n ≤ kMaxEventObjects) : descriptor n ≠ -1 := by
  have hall : ∀ a : Fin (kMaxEventObjects + 1), descriptor a.val ≠ -1 := by decide
  exact hall ⟨n, Nat.lt_succ_of_le hn⟩

/-- The first `n` slots are in use, with the first `n` descriptors. -/
structure Filled (s : State) (n : Nat) : Prop where
  room  : n ≤ kMaxEventObjects
  next  : s.nextEventFd = descriptor n
  empty : ∀ i, (s.eventObjects i).type = .empty ↔ n ≤ i.val
  fd    : ∀ i, i.val < n → (s.eventObjects i).fd = descriptor i.val

/-- **The table of event objects** is filled from the front. -/
def EventTable (s : State) : Prop := ∃ n, Filled s n

section Table

variable {s s' : State} {i j : Fin kMaxEventObjects} {fd : Int32}

theorem Filled.lt {n : Nat} (h : Filled s n) (hi : (s.eventObjects i).type ≠ .empty) : i.val < n := by
  by_contra hle
  exact hi ((h.empty i).mpr (Nat.le_of_not_lt hle))

/-- No two objects have one descriptor. -/
theorem EventTable.fd_inj (h : EventTable s) (hi : (s.eventObjects i).type ≠ .empty)
    (hj : (s.eventObjects j).type ≠ .empty) (hfd : (s.eventObjects i).fd = (s.eventObjects j).fd) : i = j := by
  obtain ⟨n, h⟩ := h
  have hin := h.lt hi
  have hjn := h.lt hj
  have hroom := h.room
  rw [h.fd i hin, h.fd j hjn] at hfd
  exact Fin.ext (descriptor_inj (by omega) (by omega) hfd)

/-- The next descriptor is new. -/
theorem EventTable.fresh (h : EventTable s) (hi : (s.eventObjects i).type ≠ .empty) :
    (s.eventObjects i).fd ≠ s.nextEventFd := by
  obtain ⟨n, h⟩ := h
  have hin := h.lt hi
  have hroom := h.room
  rw [h.fd i hin, h.next]
  intro hfd
  have := descriptor_inj (by omega) hroom hfd
  omega

theorem EventTable.next_ne (h : EventTable s) : s.nextEventFd ≠ -1 := by
  obtain ⟨n, h⟩ := h
  rw [h.next]
  exact descriptor_ne h.room

theorem findEventObject_some (h : s.findEventObject fd = some i) :
    (s.eventObjects i).type ≠ .empty ∧ (s.eventObjects i).fd = fd := by
  simpa using Lib.firstSlot_true h

/-- A descriptor finds its object. -/
theorem EventTable.find (h : EventTable s) (hi : (s.eventObjects i).type ≠ .empty) :
    s.findEventObject (s.eventObjects i).fd = some i := by
  apply Lib.firstSlot_unique
  · simpa using hi
  · intro j hj
    simp only [Bool.and_eq_true, bne_iff_ne, ne_eq, beq_iff_eq] at hj
    exact h.fd_inj hj.1 hi hj.2

/-- Writes that keep type and descriptor of every object keep the table. -/
theorem EventTable.congr (h : EventTable s) (hnext : s'.nextEventFd = s.nextEventFd)
    (hobj : ∀ i, (s'.eventObjects i).type = (s.eventObjects i).type ∧
      (s'.eventObjects i).fd = (s.eventObjects i).fd) : EventTable s' := by
  obtain ⟨n, h⟩ := h
  refine ⟨n, h.room, hnext.trans h.next, fun i => ?_, fun i hi => ?_⟩
  · rw [(hobj i).1]
    exact h.empty i
  · rw [(hobj i).2]
    exact h.fd i hi

/-- A new object in slot `i`. -/
def State.withEventObject (s : State) (i : Fin kMaxEventObjects) (o : EventObject) : State :=
  { s.setEventObject i o with nextEventFd := s.nextEventFd + 1 }

/-- The slot `AllocateEventObject` takes. -/
def State.freeEventObject (s : State) : Option (Fin kMaxEventObjects) :=
  Lib.firstSlot fun i => (s.eventObjects i).type == .empty

theorem freeEventObject_empty (h : s.freeEventObject = some i) : (s.eventObjects i).type = .empty := by
  simpa using Lib.firstSlot_true h

theorem EventTable.withEventObject (h : EventTable s) (hfree : s.freeEventObject = some i)
    {o : EventObject} (htype : o.type ≠ .empty) (hfd : o.fd = s.nextEventFd) :
    EventTable (s.withEventObject i o) := by
  obtain ⟨n, h⟩ := h
  have hroom := h.room
  have hbelow := (h.empty i).mp (freeEventObject_empty hfree)
  -- the slot taken is slot `n`: all before it are in use
  have hin : i.val = n := by
    by_contra hne
    have hlt : n < i.val := by omega
    have hn : n < kMaxEventObjects := by omega
    have hused := (Lib.firstSlot_eq_some_iff.mp hfree).2 ⟨n, hn⟩ hlt
    have hempty := (h.empty ⟨n, hn⟩).mpr (Nat.le_refl n)
    rw [hempty] at hused
    simp at hused
  refine ⟨n + 1, by omega, ?_, fun j => ?_, fun j hj => ?_⟩
  · show s.nextEventFd + 1 = _
    rw [h.next, descriptor_succ]
  · show (Function.update s.eventObjects i o j).type = .empty ↔ _
    by_cases hji : j = i
    · rw [hji, Function.update_self]
      exact iff_of_false htype (by omega)
    · have hval : j.val ≠ i.val := fun hv => hji (Fin.ext hv)
      rw [Function.update_of_ne hji, h.empty j]
      omega
  · show (Function.update s.eventObjects i o j).fd = _
    by_cases hji : j = i
    · rw [hji, Function.update_self, hfd, h.next, hin]
    · have hval : j.val ≠ i.val := fun hv => hji (Fin.ext hv)
      rw [Function.update_of_ne hji]
      exact h.fd j (by omega)

end Table

/-! ## The table as accounts -/

/-- The counter of an eventfd, as a number; no other object has one. -/
def EventObject.counter (o : EventObject) : Option Nat :=
  if o.type = .event then some o.value.toNat else none

/-- The balance of each eventfd. -/
def counters (s : State) (fd : Int32) : Option Nat :=
  (s.findEventObject fd).bind fun i => (s.eventObjects i).counter

section Counters

variable {s s' : State} {i : Fin kMaxEventObjects} {o : EventObject} {fd : Int32}

theorem counter_event (h : o.type = .event) : o.counter = some o.value.toNat := if_pos h

theorem counter_other (h : o.type ≠ .event) : o.counter = none := if_neg h

theorem counters_none (h : ∀ i, (s.eventObjects i).type ≠ .empty → (s.eventObjects i).fd ≠ fd) :
    counters s fd = none := by
  have hfind : s.findEventObject fd = none := by
    rw [State.findEventObject, Lib.firstSlot_eq_none_iff]
    intro i
    have hi := h i
    simp only [Bool.and_eq_false_iff, bne_eq_false_iff_eq, beq_eq_false_iff_ne]
    by_cases hempty : (s.eventObjects i).type = .empty
    · exact Or.inl hempty
    · exact Or.inr (hi hempty)
  unfold counters
  rw [hfind]
  rfl

theorem EventTable.counters (h : EventTable s) (hi : (s.eventObjects i).type ≠ .empty) :
    counters s (s.eventObjects i).fd = (s.eventObjects i).counter := by
  unfold Scheduler.counters
  rw [h.find hi]
  rfl

/-- The next descriptor has no account yet. -/
theorem EventTable.counters_next (h : EventTable s) : Scheduler.counters s s.nextEventFd = none :=
  counters_none fun _ hi => h.fresh hi

/-- A write to one slot moves the account of its object and no other. -/
theorem counters_update (h : EventTable s) (h' : EventTable s')
    (hobj : s'.eventObjects = Function.update s.eventObjects i o) (ho : o.type ≠ .empty)
    (hold : (s.eventObjects i).type ≠ .empty → (s.eventObjects i).fd = o.fd) :
    counters s' = Function.update (counters s) o.fd o.counter := by
  have hself : s'.eventObjects i = o := by rw [hobj, Function.update_self]
  have hother : ∀ j ≠ i, s'.eventObjects j = s.eventObjects j := fun j hj => by
    rw [hobj, Function.update_of_ne hj]
  funext fd
  by_cases hfd : fd = o.fd
  · have hi := h'.counters (i := i) (by rw [hself]; exact ho)
    rw [hself] at hi
    rw [hfd, hi, Function.update_self]
  · rw [Function.update_of_ne hfd]
    by_cases hex : ∃ j, (s'.eventObjects j).type ≠ .empty ∧ (s'.eventObjects j).fd = fd
    · -- another object: it is the same in both tables
      obtain ⟨j, hj, rfl⟩ := hex
      have hji : j ≠ i := by
        rintro rfl
        exact hfd (congrArg EventObject.fd hself)
      rw [h'.counters hj]
      rw [hother j hji] at hj ⊢
      exact (h.counters hj).symm
    · push Not at hex
      rw [counters_none hex, counters_none]
      intro j hj heq
      by_cases hji : j = i
      · subst hji
        exact hfd (heq.symm.trans (hold hj))
      · exact hex j (by rwa [hother j hji]) (by rwa [hother j hji])

/-- Writes that keep type, descriptor and counter of every object keep the accounts. -/
theorem counters_congr (hobj : ∀ i, (s'.eventObjects i).type = (s.eventObjects i).type ∧
      (s'.eventObjects i).fd = (s.eventObjects i).fd ∧
      (s'.eventObjects i).counter = (s.eventObjects i).counter) : counters s' = counters s := by
  have hfind : ∀ fd, s'.findEventObject fd = s.findEventObject fd := by
    intro fd
    unfold State.findEventObject
    congr 1
    funext i
    rw [(hobj i).1, (hobj i).2.1]
  funext fd
  unfold counters
  rw [hfind]
  congr 1
  funext i
  exact (hobj i).2.2

end Counters

/-! ## What the functions do to the objects -/

/-- A poll may have written `o'` over `o`: only a timer changes, and it stays the timer it was. -/
def Polled (o o' : EventObject) : Prop :=
  o'.type = o.type ∧ o'.fd = o.fd ∧ (o.type ≠ .timer → o' = o)

theorem Polled.refl (o : EventObject) : Polled o o := ⟨rfl, rfl, fun _ => rfl⟩

theorem Polled.trans {o o' o'' : EventObject} (h : Polled o o') (h' : Polled o' o'') : Polled o o'' := by
  obtain ⟨htype, hfd, hsame⟩ := h
  obtain ⟨htype', hfd', hsame'⟩ := h'
  exact ⟨htype'.trans htype, hfd'.trans hfd, fun hne => (hsame' (htype ▸ hne)).trans (hsame hne)⟩

theorem polled_eventReady (o : EventObject) (tick : UInt64) : Polled o (o.eventReady tick).2 := by
  unfold EventObject.eventReady
  split
  · exact Polled.refl o
  · split
    · rename_i hdue
      exact ⟨rfl, rfl, fun hne => absurd hdue.1 hne⟩
    · exact Polled.refl o

theorem Polled.counter {o o' : EventObject} (h : Polled o o') : o'.counter = o.counter := by
  obtain ⟨htype, -, hsame⟩ := h
  by_cases htimer : o.type = .timer
  · rw [counter_other (htype.trans htimer ▸ by decide), counter_other (htimer ▸ by decide)]
  · rw [hsame htimer]

/-- Every object was polled at most, and the next descriptor is the same. -/
structure Polls (s s' : State) : Prop where
  next : s'.nextEventFd = s.nextEventFd
  obj  : ∀ i, Polled (s.eventObjects i) (s'.eventObjects i)

section Functions

variable {s s' : State} {i j : Fin kMaxEventObjects}

theorem Polls.refl (s : State) : Polls s s := ⟨rfl, fun _ => Polled.refl _⟩

theorem Polls.trans {t : State} (h : Polls s s') (h' : Polls s' t) : Polls s t :=
  ⟨h'.next.trans h.next, fun i => (h.obj i).trans (h'.obj i)⟩

section Polling

variable {R : EventObject → EventObject → Prop}

/-- What a poll does to an object, it does to the one object it polls. -/
theorem eventReady_objects (hrefl : ∀ o, R o o) (hpoll : ∀ o tick, R o (EventObject.eventReady o tick).2) (s : State)
    (i j : Fin kMaxEventObjects) : R (s.eventObjects j) ((eventReady s i).2.eventObjects j) := by
  show R _ (Function.update s.eventObjects i _ j)
  by_cases hji : j = i
  · rw [hji, Function.update_self]
    exact hpoll _ _
  · rw [Function.update_of_ne hji]
    exact hrefl _

theorem epollPoll_objects (hrefl : ∀ o, R o o) (hpoll : ∀ o tick, R o (EventObject.eventReady o tick).2)
    (capacity : Nat) (acc : List Int32 × State) (fd : Int32) :
    (epollPoll capacity acc fd).2.nextEventFd = acc.2.nextEventFd ∧
      ∀ j, R (acc.2.eventObjects j) ((epollPoll capacity acc fd).2.eventObjects j) := by
  unfold epollPoll
  split
  · exact ⟨rfl, fun j => hrefl _⟩
  · split
    · exact ⟨rfl, fun j => hrefl _⟩
    · exact ⟨rfl, fun j => eventReady_objects hrefl hpoll _ _ j⟩

/-- **`KernelEpollWait` polls**: a reflexive and transitive relation that holds over one poll holds over all. -/
theorem epollWait_objects (hrefl : ∀ o, R o o) (htrans : ∀ {o o' o''}, R o o' → R o' o'' → R o o'')
    (hpoll : ∀ o tick, R o (EventObject.eventReady o tick).2) (s : State) (fd : Int32) (buffer : Bool)
    (capacity : UInt32) :
    (kernelEpollWait s fd buffer capacity).2.nextEventFd = s.nextEventFd ∧
      ∀ j, R (s.eventObjects j) ((kernelEpollWait s fd buffer capacity).2.eventObjects j) := by
  have hpolls : ∀ (l : List Int32) (acc : List Int32 × State),
      (l.foldl (epollPoll capacity.toNat) acc).2.nextEventFd = acc.2.nextEventFd ∧
        ∀ j, R (acc.2.eventObjects j) ((l.foldl (epollPoll capacity.toNat) acc).2.eventObjects j) := by
    intro l
    induction l with
    | nil => exact fun acc => ⟨rfl, fun j => hrefl _⟩
    | cons fd l ih =>
        intro acc
        obtain ⟨hnext, hobj⟩ := epollPoll_objects hrefl hpoll capacity.toNat acc fd
        obtain ⟨hnext', hobj'⟩ := ih (epollPoll capacity.toNat acc fd)
        exact ⟨hnext'.trans hnext, fun j => htrans (hobj j) (hobj' j)⟩
  unfold kernelEpollWait
  split
  · exact ⟨rfl, fun j => hrefl _⟩
  · split
    · exact ⟨rfl, fun j => hrefl _⟩
    · exact hpolls _ ([], s)

end Polling

theorem polls_eventReady (s : State) (i : Fin kMaxEventObjects) : Polls s (eventReady s i).2 :=
  ⟨rfl, eventReady_objects Polled.refl polled_eventReady s i⟩

theorem polls_epollWait (s : State) (fd : Int32) (buffer : Bool) (capacity : UInt32) :
    Polls s (kernelEpollWait s fd buffer capacity).2 := by
  obtain ⟨hnext, hobj⟩ := epollWait_objects Polled.refl Polled.trans polled_eventReady s fd buffer capacity
  exact ⟨hnext, hobj⟩

/-- `AllocateEventObject` fails, or takes the first free slot. -/
theorem allocateEventObject_cases (s : State) (type : EventObjectType) :
    allocateEventObject s type = (none, s) ∨ ∃ i, s.freeEventObject = some i ∧
      allocateEventObject s type = (some i, s.withEventObject i { fd := s.nextEventFd, type := type }) := by
  unfold allocateEventObject
  split
  · exact Or.inl rfl
  · rename_i i hfree
    exact Or.inr ⟨i, hfree, rfl⟩

/-- A second write to an object replaces the first. -/
theorem setEventObject_set (s : State) (i : Fin kMaxEventObjects) (o o' : EventObject) :
    (s.setEventObject i o).setEventObject i o' = s.setEventObject i o' := by
  unfold State.setEventObject
  dsimp only
  rw [Function.update_idem]

theorem withEventObject_set (s : State) (i : Fin kMaxEventObjects) (o o' : EventObject) :
    (s.withEventObject i o).setEventObject i o' = s.withEventObject i o' := by
  unfold State.withEventObject State.setEventObject
  dsimp only
  rw [Function.update_idem]

theorem withEventObject_self (s : State) (i : Fin kMaxEventObjects) (o : EventObject) :
    (s.withEventObject i o).eventObjects i = o := Function.update_self ..

theorem epollCreate_cases (s : State) :
    kernelEpollCreate s = (-1, s) ∨ ∃ i, s.freeEventObject = some i ∧
      kernelEpollCreate s
        = (s.nextEventFd, s.withEventObject i { fd := s.nextEventFd, type := .epoll }) := by
  unfold kernelEpollCreate
  rcases allocateEventObject_cases s .epoll with h | ⟨i, hfree, h⟩
  · rw [h]
    exact Or.inl rfl
  · rw [h]
    refine Or.inr ⟨i, hfree, ?_⟩
    simp only [fdOf, withEventObject_self]

theorem eventFd_cases (s : State) (v : UInt64) :
    kernelEventFd s v = (-1, s) ∨ ∃ i, s.freeEventObject = some i ∧
      kernelEventFd s v
        = (s.nextEventFd, s.withEventObject i { fd := s.nextEventFd, type := .event, value := v }) := by
  unfold kernelEventFd
  rcases allocateEventObject_cases s .event with h | ⟨i, hfree, h⟩
  · rw [h]
    exact Or.inl rfl
  · rw [h]
    refine Or.inr ⟨i, hfree, ?_⟩
    simp only [fdOf, withEventObject_self, withEventObject_set]

theorem timerFd_cases (s : State) (initial interval : UInt64) :
    kernelTimerFd s initial interval = (-1, s) ∨ ∃ i, s.freeEventObject = some i ∧
      kernelTimerFd s initial interval = (s.nextEventFd, s.withEventObject i
        { fd := s.nextEventFd, type := .timer, deadline := s.schedulerTick + initial, interval := interval }) := by
  unfold kernelTimerFd
  split
  · exact Or.inl rfl
  · rcases allocateEventObject_cases s .timer with h | ⟨i, hfree, h⟩
    · rw [h]
      exact Or.inl rfl
    · rw [h]
      refine Or.inr ⟨i, hfree, ?_⟩
      simp only [fdOf, withEventObject_self, withEventObject_set]
      rfl

/-- **An accepted write** adds to the counter of an eventfd, and the sum fits in 64 bits. -/
theorem eventFdWrite_cases (s : State) (fd : Int32) (v : UInt64) :
    kernelEventFdWrite s fd v = (false, s) ∨ ∃ i, s.findEventObject fd = some i ∧
      (s.eventObjects i).type = .event ∧
      ((s.eventObjects i).value + v).toNat = (s.eventObjects i).value.toNat + v.toNat ∧
      kernelEventFdWrite s fd v
        = (true, s.setEventObject i { s.eventObjects i with value := (s.eventObjects i).value + v }) := by
  unfold kernelEventFdWrite
  split
  · exact Or.inl rfl
  · rename_i i hfind
    dsimp only
    split
    · exact Or.inl rfl
    · rename_i hok
      push Not at hok
      obtain ⟨htype, -, hroom⟩ := hok
      refine Or.inr ⟨i, hfind, htype, ?_, rfl⟩
      -- the guard leaves room below `UINT64_MAX`
      have hmax : (0xFFFFFFFFFFFFFFFF : UInt64).toNat = 2 ^ 64 - 1 := rfl
      have hval := (s.eventObjects i).value.toNat_lt
      have hle : (s.eventObjects i).value ≤ 0xFFFFFFFFFFFFFFFF := by
        rw [UInt64.le_iff_toNat_le, hmax]
        omega
      rw [UInt64.not_lt, UInt64.le_iff_toNat_le, UInt64.toNat_sub_of_le _ _ hle, hmax] at hroom
      rw [UInt64.toNat_add]
      exact Nat.mod_eq_of_lt (by omega)

/-- **A read** returns a counter that is not 0, and clears it. -/
theorem eventFdRead_cases (s : State) (fd : Int32) :
    kernelEventFdRead s fd = (none, s) ∨ ∃ i, s.findEventObject fd = some i ∧
      (s.eventObjects i).type = .event ∧
      kernelEventFdRead s fd
        = (some (s.eventObjects i).value, s.setEventObject i { s.eventObjects i with value := 0 }) := by
  unfold kernelEventFdRead
  split
  · exact Or.inl rfl
  · rename_i i hfind
    dsimp only
    split
    · exact Or.inl rfl
    · rename_i hok
      push Not at hok
      exact Or.inr ⟨i, hfind, hok.1, rfl⟩

theorem epollAdd_cases (s : State) (fd watched : Int32) :
    kernelEpollAdd s fd watched = (false, s) ∨ ∃ i, s.findEventObject fd = some i ∧
      (s.eventObjects i).type = .epoll ∧
      kernelEpollAdd s fd watched = (true, s.setEventObject i { s.eventObjects i with
        watches := (s.eventObjects i).watches ++ [watched] }) := by
  unfold kernelEpollAdd
  split
  · exact Or.inl rfl
  · rename_i i hfind
    split
    · exact Or.inl rfl
    · rename_i hok
      push Not at hok
      exact Or.inr ⟨i, hfind, hok.1, rfl⟩

/-- What `KernelTimerFdRead` leaves of a timer it returned the expirations of. -/
def EventObject.timerRead (o : EventObject) : EventObject :=
  { o with value := 0, deadline := if o.interval ≠ 0 then o.deadline + o.value * o.interval else 0 }

/-- `KernelTimerFdRead` writes to no object, or to the timer it names. -/
theorem timerFdRead_cases (s : State) (fd : Int32) :
    (kernelTimerFdRead s fd).2 = s ∨ ∃ i o, s.findEventObject fd = some i ∧
      (s.eventObjects i).type = .timer ∧ Polled (s.eventObjects i) o ∧
      (kernelTimerFdRead s fd).2 = s.setEventObject i o := by
  unfold kernelTimerFdRead
  split
  · exact Or.inl rfl
  · rename_i i hfind
    split
    · exact Or.inl rfl
    · rename_i htimer
      have htype : (s.eventObjects i).type = .timer := not_not.mp htimer
      generalize hpoll : ((s.eventObjects i).eventReady s.schedulerTick).2 = polled
      have hready : (eventReady s i).2 = s.setEventObject i polled := by rw [← hpoll]; rfl
      have hpolled : Polled (s.eventObjects i) polled := hpoll ▸ polled_eventReady _ _
      dsimp only
      split
      · exact Or.inr ⟨i, polled, hfind, htype, hpolled, hready⟩
      · -- the read clears the expirations of the polled timer
        have hread : Polled (s.eventObjects i) polled.timerRead :=
          ⟨hpolled.1, hpolled.2.1, fun hne => absurd htype hne⟩
        refine Or.inr ⟨i, polled.timerRead, hfind, htype, hread, ?_⟩
        have hself : (s.setEventObject i polled).eventObjects i = polled := Function.update_self ..
        rw [hready]
        show (s.setEventObject i polled).setEventObject i
          ((s.setEventObject i polled).eventObjects i).timerRead = _
        rw [hself, setEventObject_set]

end Functions

end Scheduler
end UefiBoot
