import UefiBoot.Scheduler.EventFd

/-!
# `Scheduler.Timers` — expirations are counted once

A timer keeps no count of its expirations: `EventReady` computes it from the deadline whenever somebody polls, and a
read returns the count and moves the deadline past the expirations it has returned. So the deadline is the account:
after expirations that add up to `n` it lies `n` intervals after the first one (`Ticking`), whatever was polled in
between, and the next read returns exactly what is missing at its tick.
-/

namespace UefiBoot
namespace Scheduler

/-- The expirations due at tick `T` of a timer whose first deadline is `first`. -/
def dueBy (first interval T : Nat) : Nat :=
  if T < first then 0 else if interval = 0 then 1 else (T - first) / interval + 1

/-- The expirations that a read of `fd` has returned. -/
def Event.expirations (fd : Int32) : Event → Nat
  | .returned _ (.timerFdRead fd') (.value (some v)) => if fd' = fd then v.toNat else 0
  | _ => 0

/-- What all the reads of `fd` have returned, together. -/
def expirations (fd : Int32) (log : List Event) : Nat := (log.map (Event.expirations fd)).sum

/-- The read that the action makes, if it does, leads to a deadline that fits in 64 bits. -/
def DeadlineFits (fd : Int32) (first interval : Nat) (m : Machine) (a : Action) : Prop :=
  m.control = .user → a = .call (.timerFdRead fd) →
    first + dueBy first interval m.sched.schedulerTick.toNat * interval < 2 ^ 64

instance (fd : Int32) (first interval : Nat) (m : Machine) (a : Action) : Decidable (DeadlineFits fd first interval m a) := by
  unfold DeadlineFits
  infer_instance

/-- **The account of a timer.** A read fails exactly before the first deadline or when all that is due has been
    returned; a read that succeeds returns the rest; and no other step changes the sum. -/
structure Accounted (fd : Int32) (first interval : Nat) (m : Machine) (a : Action) : Prop where
  fails    : m.control = .user → a = .call (.timerFdRead fd) →
    ((kernelTimerFdRead m.sched fd).1 = none ↔
      m.sched.schedulerTick.toNat < first ∨
        dueBy first interval m.sched.schedulerTick.toNat ≤ expirations fd m.log)
  succeeds : m.control = .user → a = .call (.timerFdRead fd) → (kernelTimerFdRead m.sched fd).1 ≠ none →
    expirations fd (m.step a).log = dueBy first interval m.sched.schedulerTick.toNat
  others   : ¬ (m.control = .user ∧ a = .call (.timerFdRead fd)) → expirations fd (m.step a).log = expirations fd m.log

variable {m : Machine} {s : State} {i j : Fin kMaxEventObjects} {fd : Int32} {first interval : Nat}

/-! ## The sum in the log -/

theorem expirations_append (l l' : List Event) : expirations fd (l ++ l') = expirations fd l + expirations fd l' := by
  unfold expirations
  rw [List.map_append, List.sum_append]

theorem expirations_cons (e : Event) (l : List Event) :
    expirations fd (e :: l) = e.expirations fd + expirations fd l := rfl

theorem expirations_zero {l : List Event} (h : ∀ e ∈ l, e.expirations fd = 0) : expirations fd l = 0 := by
  unfold expirations
  apply List.sum_eq_zero
  intro n hn
  obtain ⟨e, he, rfl⟩ := List.mem_map.mp hn
  exact h e he

/-- A returning call adds what it tells itself. -/
theorem expirations_returns (fd : Int32) (c : Call) (r : Result) (s : State) :
    expirations fd (m.returns c r s).log
      = (Event.returned m.sched.currentId c r).expirations fd + expirations fd m.log := by
  obtain ⟨l, hlog, hcreated⟩ := returns_log (m := m) c r s
  have hzero : expirations fd l = 0 := by
    apply expirations_zero
    intro e he
    obtain ⟨t, rfl⟩ := hcreated e he
    rfl
  rw [hlog, expirations_cons, expirations_append, hzero, Nat.zero_add]

theorem AddsAside.expirations {m' : Machine} (h : AddsAside m m') :
    expirations fd m'.log = Scheduler.expirations fd m.log := by
  obtain ⟨l, hlog, haside⟩ := h
  have hzero : Scheduler.expirations fd l = 0 := by
    apply expirations_zero
    intro e he
    have hcall := haside e he
    cases e with
    | returned t c r =>
        cases c with
        | timerFdRead fd' => exact absurd hcall (by simp [Event.Aside, Call.onEvents])
        | _ => rfl
    | created t => rfl
    | panicked t => rfl
  rw [hlog, expirations_append, hzero, Nat.zero_add]

/-- A read, when it is made. -/
theorem step_read (hu : m.control = .user) (fd : Int32) :
    m.step (.call (.timerFdRead fd)) = m.call (.timerFdRead fd) := by
  unfold Machine.step
  rw [hu]

/-- A read that succeeds adds what it returns to the sum of its descriptor. -/
theorem expirations_read (fd' : Int32) :
    expirations fd (m.call (.timerFdRead fd')).log
      = (if fd' = fd then ((kernelTimerFdRead m.sched fd').1.getD 0).toNat else 0) + expirations fd m.log := by
  have hlog := expirations_returns (m := m) fd (.timerFdRead fd') (.value (kernelTimerFdRead m.sched fd').1)
    (kernelTimerFdRead m.sched fd').2
  refine hlog.trans (congrArg (· + _) ?_)
  cases (kernelTimerFdRead m.sched fd').1 with
  | none => exact (ite_self 0).symm
  | some v => rfl

/-- Only a read of the timer that succeeds adds to the sum. -/
theorem expirations_step (fd : Int32) (a : Action) :
    expirations fd (m.step a).log = expirations fd m.log ∨
      ∃ v, m.control = .user ∧ a = .call (.timerFdRead fd) ∧ (kernelTimerFdRead m.sched fd).1 = some v ∧
        expirations fd (m.step a).log = v.toNat + expirations fd m.log := by
  rcases step_onEvents (m := m) a with ⟨c, hu, rfl, hc, hstep⟩ | ⟨-, haside⟩
  · rw [hstep]
    cases c with
    | timerFdRead fd' =>
        rw [expirations_read]
        by_cases hfd : fd' = fd
        · subst hfd
          rw [if_pos rfl]
          cases hr : (kernelTimerFdRead m.sched fd').1 with
          | none => exact Or.inl (Nat.zero_add _)
          | some v => exact Or.inr ⟨v, hu, rfl, rfl, rfl⟩
        · rw [if_neg hfd]
          exact Or.inl (Nat.zero_add _)
    | epollCreate | epollAdd | epollWait | eventFd | eventFdWrite | eventFdRead | timerFd =>
        exact Or.inl ((expirations_returns _ _ _ _).trans (Nat.zero_add _))
    | _ => exact absurd hc (by simp [Call.onEvents])
  · exact Or.inl haside.expirations

/-! ## A timer is left alone -/

/-- The timer is the same, whatever its count was set to. -/
structure SameTimer (o o' : EventObject) : Prop where
  type     : o'.type = o.type
  fd       : o'.fd = o.fd
  deadline : o'.deadline = o.deadline
  interval : o'.interval = o.interval

theorem SameTimer.refl (o : EventObject) : SameTimer o o := ⟨rfl, rfl, rfl, rfl⟩

theorem SameTimer.trans {o o' o'' : EventObject} (h : SameTimer o o') (h' : SameTimer o' o'') : SameTimer o o'' :=
  ⟨h'.type.trans h.type, h'.fd.trans h.fd, h'.deadline.trans h.deadline, h'.interval.trans h.interval⟩

/-- A poll computes the count anew. -/
theorem sameTimer_eventReady (o : EventObject) (tick : UInt64) : SameTimer o (o.eventReady tick).2 := by
  unfold EventObject.eventReady
  split
  · exact .refl o
  · split
    · exact ⟨rfl, rfl, rfl, rfl⟩
    · exact .refl o

/-- A call that is not made. -/
theorem step_call_idle (h : m.control ≠ .user) (c : Call) : m.step (.call c) = m := by
  unfold Machine.step
  cases hcontrol : m.control with
  | user => exact absurd hcontrol h
  | _ => rfl

/-- **No step changes a timer but a read of it.** -/
theorem step_timer (a : Action) (hi : (m.sched.eventObjects i).type = .timer) :
    SameTimer (m.sched.eventObjects i) ((m.step a).sched.eventObjects i) ∨
      m.control = .user ∧ a = .call (.timerFdRead (m.sched.eventObjects i).fd) := by
  rcases step_object (m := m) (i := i) a (by rw [hi]; decide) with hsame | ⟨c, rfl, hwrites⟩
  · rw [hsame]
    exact Or.inl (.refl _)
  · by_cases hu : m.control = .user
    · cases c with
      | timerFdRead fd => exact Or.inr ⟨hu, by rw [hwrites.2]⟩
      | epollWait fd buffer capacity =>
          left
          have hstep : m.step (.call (.epollWait fd buffer capacity)) = m.call (.epollWait fd buffer capacity) := by
            unfold Machine.step
            rw [hu]
          rw [hstep]
          exact (epollWait_objects SameTimer.refl SameTimer.trans sameTimer_eventReady m.sched fd buffer capacity).2 i
      | eventFdWrite | eventFdRead | epollAdd =>
          exact absurd (hi.symm.trans hwrites.1) (by decide)
      | _ => exact absurd hwrites id
    · rw [step_call_idle hu]
      exact Or.inl (.refl _)

/-! ## A read -/

/-- What a read finds: a due timer's count, and the deadline past it. -/
theorem timerFdRead_timer (hfind : s.findEventObject fd = some i) (htype : (s.eventObjects i).type = .timer) :
    (¬ ((s.eventObjects i).deadline ≠ 0 ∧ (s.eventObjects i).deadline ≤ s.schedulerTick) ∧
        (kernelTimerFdRead s fd).1 = none ∧ (kernelTimerFdRead s fd).2.eventObjects i = s.eventObjects i) ∨
      (((s.eventObjects i).deadline ≠ 0 ∧ (s.eventObjects i).deadline ≤ s.schedulerTick) ∧
        ∃ v, v = 1 + (if (s.eventObjects i).interval ≠ 0 then
            (s.schedulerTick - (s.eventObjects i).deadline) / (s.eventObjects i).interval else 0) ∧
          (kernelTimerFdRead s fd).1 = some v ∧
          (kernelTimerFdRead s fd).2.eventObjects i = { s.eventObjects i with
            value := 0
            deadline := if (s.eventObjects i).interval ≠ 0 then
              (s.eventObjects i).deadline + v * (s.eventObjects i).interval else 0 }) := by
  have hevent : ¬ (s.eventObjects i).type = .event := by
    rw [htype]
    decide
  unfold kernelTimerFdRead
  rw [hfind]
  dsimp only
  rw [if_neg (by simp [htype])]
  by_cases hdue : (s.eventObjects i).deadline ≠ 0 ∧ (s.eventObjects i).deadline ≤ s.schedulerTick
  · right
    have hpoll : (s.eventObjects i).eventReady s.schedulerTick = (true, { s.eventObjects i with
        value := 1 + (if (s.eventObjects i).interval ≠ 0 then
          (s.schedulerTick - (s.eventObjects i).deadline) / (s.eventObjects i).interval else 0) }) := by
      unfold EventObject.eventReady
      rw [if_neg hevent, if_pos ⟨htype, hdue⟩]
    generalize 1 + (if (s.eventObjects i).interval ≠ 0 then
      (s.schedulerTick - (s.eventObjects i).deadline) / (s.eventObjects i).interval else 0) = v at hpoll ⊢
    unfold eventReady
    rw [hpoll]
    dsimp only
    rw [if_neg (show ¬ true = false by simp)]
    simp only [State.setEventObject_eventObjects, Function.update_self]
    exact ⟨hdue, v, rfl, rfl, rfl⟩
  · left
    have hpoll : (s.eventObjects i).eventReady s.schedulerTick = (false, s.eventObjects i) := by
      unfold EventObject.eventReady
      rw [if_neg hevent, if_neg fun h => hdue h.2]
    unfold eventReady
    rw [hpoll]
    refine ⟨hdue, rfl, ?_⟩
    exact Function.update_self ..

/-! ## The deadline is the account -/

/-- After expirations that add up to `n`, the deadline is `n` intervals after the first; a one-shot timer that has
    expired has none. -/
def Due (o : EventObject) (first interval n : Nat) : Prop :=
  o.interval.toNat = interval ∧
    if interval = 0 then n = 0 ∧ o.deadline.toNat = first ∨ n = 1 ∧ o.deadline = 0
    else o.deadline.toNat = first + n * interval

section Account

variable {o : EventObject} {n : Nat} {tick : UInt64}

theorem SameTimer.due {o' : EventObject} (h : SameTimer o o') (hdue : Due o first interval n) :
    Due o' first interval n := by
  unfold Due
  rw [h.interval, h.deadline]
  exact hdue

/-- What is due at a tick from the deadline on. -/
theorem dueBy_periodic {T : Nat} (hpos : 0 < interval) (hle : first + n * interval ≤ T) :
    dueBy first interval T = n + ((T - (first + n * interval)) / interval + 1) := by
  have hsub : T - (first + n * interval) = T - first - interval * n := by
    rw [Nat.mul_comm interval n]
    omega
  have hdiv : n ≤ (T - first) / interval := by
    rw [Nat.le_div_iff_mul_le hpos]
    omega
  unfold dueBy
  rw [if_neg (by omega), if_neg (by omega), hsub, Nat.sub_mul_div]
  omega

/-- **A timer is due** exactly when something is due that has not been returned. -/
theorem due_iff (tick : UInt64) (h : Due o first interval n) (hfirst : 0 < first) :
    (o.deadline ≠ 0 ∧ o.deadline ≤ tick) ↔ n < dueBy first interval tick.toNat := by
  obtain ⟨-, h⟩ := h
  have hzero : o.deadline ≠ 0 ↔ o.deadline.toNat ≠ 0 := not_congr UInt64.toNat_inj.symm
  rw [hzero, UInt64.le_iff_toNat_le]
  by_cases hk : interval = 0
  · rw [if_pos hk] at h
    unfold dueBy
    rw [if_pos hk]
    rcases h with ⟨hn, hdeadline⟩ | ⟨hn, hdeadline⟩
    · split <;> omega
    · have hnone : o.deadline.toNat = 0 := by rw [hdeadline]; rfl
      split <;> omega
  · rw [if_neg hk] at h
    have hpos : 0 < interval := Nat.pos_of_ne_zero hk
    constructor
    · rintro ⟨-, hle⟩
      rw [dueBy_periodic hpos (h ▸ hle)]
      exact Nat.lt_add_of_pos_right (Nat.succ_pos _)
    · intro hlt
      refine ⟨by omega, ?_⟩
      unfold dueBy at hlt
      split at hlt
      · exact absurd hlt (Nat.not_lt_zero n)
      · rw [Nat.lt_succ_iff, Nat.le_div_iff_mul_le hpos] at hlt
        omega

/-- The count that a read returns is what was missing. -/
theorem due_count (h : Due o first interval n) (hfirst : 0 < first) (hdue : o.deadline ≠ 0 ∧ o.deadline ≤ tick) :
    (1 + (if o.interval ≠ 0 then (tick - o.deadline) / o.interval else 0)).toNat + n
      = dueBy first interval tick.toNat := by
  have hone : (1 : UInt64).toNat = 1 := rfl
  have hlt := tick.toNat_lt
  have hle := UInt64.le_iff_toNat_le.mp hdue.2
  obtain ⟨hinterval, h⟩ := h
  have hzero : o.interval ≠ 0 ↔ interval ≠ 0 := by
    rw [← hinterval]
    exact not_congr UInt64.toNat_inj.symm
  by_cases hk : interval = 0
  · rw [if_pos hk] at h
    rw [if_neg fun hne => hzero.mp hne hk]
    rcases h with ⟨hn, hdeadline⟩ | ⟨-, hdeadline⟩
    · unfold dueBy
      rw [if_neg (by omega), if_pos hk, hn]
      rfl
    · exact absurd hdeadline hdue.1
  · rw [if_neg hk] at h
    rw [if_pos (hzero.mpr hk), UInt64.toNat_add, UInt64.toNat_div, UInt64.toNat_sub_of_le _ _ hdue.2, hinterval, hone,
      dueBy_periodic (Nat.pos_of_ne_zero hk) (h ▸ hle), ← h]
    have hdiv := Nat.div_le_self (tick.toNat - o.deadline.toNat) interval
    rw [Nat.mod_eq_of_lt (by omega)]
    omega

/-- The deadline that a read leaves. -/
theorem Due.read (h : Due o first interval n) (hfirst : 0 < first)
    (hdue : o.deadline ≠ 0 ∧ o.deadline ≤ tick) {v : UInt64}
    (hv : v = 1 + (if o.interval ≠ 0 then (tick - o.deadline) / o.interval else 0))
    (hfits : first + dueBy first interval tick.toNat * interval < 2 ^ 64) :
    Due { o with value := 0, deadline := if o.interval ≠ 0 then o.deadline + v * o.interval else 0 } first interval
      (dueBy first interval tick.toNat) := by
  have hcount := due_count h hfirst hdue
  rw [← hv] at hcount
  have hlt := (due_iff tick h hfirst).mp hdue
  obtain ⟨hinterval, h⟩ := h
  refine ⟨hinterval, ?_⟩
  have hzero : o.interval ≠ 0 ↔ interval ≠ 0 := by
    rw [← hinterval]
    exact not_congr UInt64.toNat_inj.symm
  by_cases hk : interval = 0
  · rw [if_pos hk]
    right
    refine ⟨?_, if_neg fun hne => hzero.mp hne hk⟩
    unfold dueBy at hlt ⊢
    split
    · rename_i hbefore
      rw [if_pos hbefore] at hlt
      exact absurd hlt (Nat.not_lt_zero n)
    · rfl
  · rw [if_neg hk] at h ⊢
    dsimp only
    rw [if_pos (hzero.mpr hk)]
    have hsum : first + dueBy first interval tick.toNat * interval = o.deadline.toNat + v.toNat * interval := by
      rw [h, ← hcount, Nat.add_mul]
      omega
    rw [hsum] at hfits ⊢
    rw [UInt64.toNat_add, UInt64.toNat_mul, hinterval, Nat.mod_eq_of_lt (a := v.toNat * interval) (by omega)]
    exact Nat.mod_eq_of_lt (by omega)

end Account

/-! ## Runs -/

/-- Whatever a log tells of reads, it tells of timers. -/
structure Recorded (m : Machine) : Prop where
  books : Books m
  named : ∀ fd, expirations fd m.log ≠ 0 → ∃ i, (m.sched.eventObjects i).type = .timer ∧
    (m.sched.eventObjects i).fd = fd

/-- The timer `fd` and what the log tells of it. -/
structure Ticking (fd : Int32) (first interval : Nat) (m : Machine) : Prop where
  books    : Books m
  positive : 0 < first
  timer    : ∃ i, (m.sched.eventObjects i).type = .timer ∧ (m.sched.eventObjects i).fd = fd ∧
    Due (m.sched.eventObjects i) first interval (expirations fd m.log)

/-- A timer stays where it is. -/
theorem step_named (h : Books m) (a : Action) (htype : (m.sched.eventObjects i).type = .timer) :
    ((m.step a).sched.eventObjects i).type = .timer ∧
      ((m.step a).sched.eventObjects i).fd = (m.sched.eventObjects i).fd := by
  rcases step_timer a htype with hsame | ⟨hu, rfl⟩
  · exact ⟨hsame.type.trans htype, hsame.fd⟩
  · have hfind := h.table.find (i := i) (by rw [htype]; decide)
    rw [step_read hu]
    show ((kernelTimerFdRead m.sched _).2.eventObjects i).type = _ ∧
      ((kernelTimerFdRead m.sched _).2.eventObjects i).fd = _
    rcases timerFdRead_timer hfind htype with ⟨-, -, hobj⟩ | ⟨-, v, -, -, hobj⟩
    · rw [hobj]
      exact ⟨htype, rfl⟩
    · rw [hobj]
      exact ⟨htype, rfl⟩

theorem Recorded.step (h : Recorded m) (a : Action) : Recorded (m.step a) := by
  refine ⟨books_step h.books a, fun fd hne => ?_⟩
  have hold : ∃ i, (m.sched.eventObjects i).type = .timer ∧ (m.sched.eventObjects i).fd = fd := by
    rcases expirations_step (m := m) fd a with hsame | ⟨v, -, -, hread, -⟩
    · exact h.named fd (hsame ▸ hne)
    · -- a read that succeeds finds a timer
      unfold kernelTimerFdRead at hread
      split at hread
      · exact absurd hread (by simp)
      · rename_i i hfind
        split at hread
        · exact absurd hread (by simp)
        · rename_i htype
          exact ⟨i, not_not.mp htype, (findEventObject_some hfind).2⟩
  obtain ⟨i, htype, rfl⟩ := hold
  obtain ⟨htype', hfd'⟩ := step_named h.books a htype
  exact ⟨i, htype', hfd'⟩

theorem recorded_reached (heap : { h : KernelHeap // h.InBlock }) (as : List Action) : Recorded (reached heap as) := by
  refine Lib.run_invariant (I := Recorded) (fun _ a h => h.step a) ⟨books_boot heap, fun fd hne => ?_⟩ as
  exact absurd rfl hne

/-- **A new timer** has returned nothing. -/
theorem Recorded.created (h : Recorded m) (hu : m.control = .user) {initial interval : UInt64}
    (hcreated : (kernelTimerFd m.sched initial interval).1 = fd) (hfd : fd ≠ -1)
    (hfits : m.sched.schedulerTick.toNat + initial.toNat < 2 ^ 64) :
    Ticking fd (m.sched.schedulerTick.toNat + initial.toNat) interval.toNat
      (m.step (.call (.timerFd initial interval))) := by
  have hstep : m.step (.call (.timerFd initial interval)) = m.call (.timerFd initial interval) := by
    unfold Machine.step
    rw [hu]
  have hpos : initial ≠ 0 := by
    rintro rfl
    exact hfd hcreated.symm
  have hnat : initial.toNat ≠ 0 := fun hz => hpos (UInt64.toNat_inj.mp hz)
  have hsum : (m.sched.schedulerTick + initial).toNat = m.sched.schedulerTick.toNat + initial.toNat := by
    rw [UInt64.toNat_add]
    exact Nat.mod_eq_of_lt hfits
  refine ⟨books_step h.books _, by omega, ?_⟩
  rcases timerFd_cases m.sched initial interval with hcall | ⟨i, hfree, hcall⟩
  · rw [hcall] at hcreated
    exact absurd hcreated.symm hfd
  · obtain rfl : m.sched.nextEventFd = fd := by
      rw [hcall] at hcreated
      exact hcreated
    have hzero : expirations m.sched.nextEventFd m.log = 0 := by
      by_contra hne
      obtain ⟨j, htype, hname⟩ := h.named _ hne
      exact h.books.table.fresh (by rw [htype]; decide) hname
    have hlog : expirations m.sched.nextEventFd (m.call (.timerFd initial interval)).log = 0 :=
      ((expirations_returns _ _ _ _).trans (Nat.zero_add _)).trans hzero
    have hobj : (m.call (.timerFd initial interval)).sched.eventObjects i =
        { fd := m.sched.nextEventFd, type := .timer, deadline := m.sched.schedulerTick + initial, interval } := by
      show (kernelTimerFd m.sched initial interval).2.eventObjects i = _
      rw [hcall]
      exact withEventObject_self ..
    rw [hstep]
    refine ⟨i, ?_⟩
    rw [hobj, hlog]
    refine ⟨rfl, rfl, rfl, ?_⟩
    split
    · exact Or.inl ⟨rfl, hsum⟩
    · rw [Nat.zero_mul]
      exact hsum

/-- **Step lemma.** -/
theorem Ticking.step (h : Ticking fd first interval m) {a : Action} (hfits : DeadlineFits fd first interval m a) :
    Ticking fd first interval (m.step a) ∧ Accounted fd first interval m a := by
  obtain ⟨i, htype, rfl, hdue⟩ := h.timer
  have hfind := h.books.table.find (i := i) (by rw [htype]; decide)
  obtain ⟨htype', hfd'⟩ := step_named h.books a htype
  have hsum := expirations_step (m := m) (m.sched.eventObjects i).fd a
  by_cases hread : m.control = .user ∧ a = .call (.timerFdRead (m.sched.eventObjects i).fd)
  · obtain ⟨hu, rfl⟩ := hread
    have hbefore : m.sched.schedulerTick.toNat < first →
        dueBy first interval m.sched.schedulerTick.toNat = 0 := fun hlt => if_pos hlt
    have hobj' : ((m.step (.call (.timerFdRead (m.sched.eventObjects i).fd))).sched.eventObjects i) =
        (kernelTimerFdRead m.sched (m.sched.eventObjects i).fd).2.eventObjects i := by
      rw [step_read hu]
      rfl
    rcases timerFdRead_timer hfind htype with ⟨hnot, hnone, hobj⟩ | ⟨hready, v, hv, hsome, hobj⟩
    · -- nothing is missing
      have hreached := fun hlt => hnot ((due_iff m.sched.schedulerTick hdue h.positive).mpr hlt)
      have hkept : expirations (m.sched.eventObjects i).fd
          (m.step (.call (.timerFdRead (m.sched.eventObjects i).fd))).log
            = expirations (m.sched.eventObjects i).fd m.log := by
        rcases hsum with hsame | ⟨v, -, -, hsome, -⟩
        · exact hsame
        · rw [hnone] at hsome
          exact absurd hsome (by simp)
      refine ⟨⟨books_step h.books _, h.positive, i, htype', hfd', ?_⟩, ⟨fun _ _ => ?_, fun _ _ hne => ?_, ?_⟩⟩
      · rw [hobj', hobj, hkept]
        exact hdue
      · exact iff_of_true hnone (Or.inr (Nat.le_of_not_lt hreached))
      · exact absurd hnone hne
      · exact fun hno => absurd ⟨hu, rfl⟩ hno
    · -- the read returns what is missing
      have hlt := (due_iff m.sched.schedulerTick hdue h.positive).mp hready
      have hall : expirations (m.sched.eventObjects i).fd
          (m.step (.call (.timerFdRead (m.sched.eventObjects i).fd))).log
            = dueBy first interval m.sched.schedulerTick.toNat := by
        rw [step_read hu, expirations_read, if_pos rfl, hsome, hv]
        exact due_count hdue h.positive hready
      refine ⟨⟨books_step h.books _, h.positive, i, htype', hfd', ?_⟩, ⟨fun _ _ => ?_, fun _ _ _ => hall, ?_⟩⟩
      · rw [hobj', hobj, hall]
        exact hdue.read h.positive hready hv (hfits hu rfl)
      · refine iff_of_false (by rw [hsome]; simp) ?_
        rintro (hearly | hreached)
        · rw [hbefore hearly] at hlt
          exact absurd hlt (Nat.not_lt_zero _)
        · exact absurd hlt (Nat.not_lt.mpr hreached)
      · exact fun hno => absurd ⟨hu, rfl⟩ hno
  · have hkept : expirations (m.sched.eventObjects i).fd (m.step a).log
        = expirations (m.sched.eventObjects i).fd m.log := by
      rcases hsum with hsame | ⟨v, hu, ha, -⟩
      · exact hsame
      · exact absurd ⟨hu, ha⟩ hread
    have hsame : SameTimer (m.sched.eventObjects i) ((m.step a).sched.eventObjects i) :=
      (step_timer a htype).resolve_right hread
    refine ⟨⟨books_step h.books _, h.positive, i, htype', hfd', ?_⟩,
      ⟨fun hu ha => absurd ⟨hu, ha⟩ hread, fun hu ha => absurd ⟨hu, ha⟩ hread, fun _ => hkept⟩⟩
    rw [hkept]
    exact hsame.due hdue

/-- **No expiry is lost or counted twice.** A timer was created at tick `t`, so its first deadline is `t + initial`.
    Whatever is done, as long as the deadlines that reads lead to fit in 64 bits, a read that succeeds at tick `T` has
    returned, with the reads before it, all that is due by `T`, and a read fails exactly before the first deadline and
    when all that is due has been returned. -/
theorem timer_accounted (heap : { h : KernelHeap // h.InBlock }) (before : List Action) (initial interval : UInt64)
    (hu : (reached heap before).control = .user)
    (hcreated : (kernelTimerFd (reached heap before).sched initial interval).1 = fd) (hfd : fd ≠ -1)
    (hfits : (reached heap before).sched.schedulerTick.toNat + initial.toNat < 2 ^ 64) (as : List Action)
    (hdeadlines : Lib.Along Machine.step
      (DeadlineFits fd ((reached heap before).sched.schedulerTick.toNat + initial.toNat) interval.toNat)
      ((reached heap before).step (.call (.timerFd initial interval))) as) :
    Lib.Along Machine.step
      (Accounted fd ((reached heap before).sched.schedulerTick.toNat + initial.toNat) interval.toNat)
      ((reached heap before).step (.call (.timerFd initial interval))) as :=
  Lib.Along.of_invariant (I := Ticking fd _ _) (fun _ _ h hsafe => (h.step hsafe).1) (fun _ _ h hsafe => (h.step hsafe).2)
    ((recorded_reached heap before).created hu hcreated hfd hfits) hdeadlines

/-- A timer with its first deadline at tick 3 and an interval of 2: the read at tick 3 returns 1, the epoll polls, and
    the read at tick 8 returns the two expirations at 5 and 7. -/
theorem timer_accounted_example :
    let m := (reached heapAt2MiB []).step (.call (.timerFd 3 2))
    let as := [.call .epollCreate, .call (.epollAdd 33 32), .tick, .tick, .tick, .call (.timerFdRead 32), .tick, .tick,
      .tick, .call (.epollWait 33 true 1), .tick, .tick, .call (.timerFdRead 32)]
    expirations 32 (Lib.run Machine.step m as).log = 3 ∧ Lib.Along Machine.step (Accounted 32 3 2) m as :=
  ⟨by decide +kernel,
    timer_accounted heapAt2MiB [] 3 2 (by decide +kernel) (by decide +kernel) (by decide)
      (by decide +kernel) _ (by decide +kernel)⟩

end Scheduler
end UefiBoot
