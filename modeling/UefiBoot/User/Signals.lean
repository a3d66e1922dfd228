import UefiBoot.User.Frame

/-!
# `User.Signals` — what is delivered

`RegisterSignalHandler` writes to the first slot that is neither pending nor delivered, but it sets neither flag, and
nothing else sets `pending`. So the slot stays free for the next registration until a delivery marks it: of the
registrations since then only the last one is left (`Handlers`). `DeliverUserSignal` on the other hand looks at
the process and the signal of every slot, taken or not.

`deliver_iff` says exactly when the two agree with the history.
-/

namespace UefiBoot
namespace Userspace

/-! ## Histories -/

/-- The registrations that have returned true, newest first. -/
def registrations (calls : List (SignalOp × Result)) : List (UInt64 × UInt32) :=
  calls.filterMap fun
    | (.registerSignalHandler processId signal, .bool true) => some (processId, signal)
    | _                                                     => none

/-- The deliveries that have returned true, newest first. -/
def deliveries (calls : List (SignalOp × Result)) : List (UInt64 × UInt32) :=
  calls.filterMap fun
    | (.deliverUserSignal processId _ signal, .bool true) => some (processId, signal)
    | _                                                   => none

/-- The process and the signal of a slot. -/
def UserSignalHandler.pair (h : UserSignalHandler) : UInt64 × UInt32 := (h.processId, h.signal)

/-! ## How a call about signals can end -/

section Cases

variable (s : State)

theorem registerSignalHandler_cases (processId : UInt64) (signal : UInt32) :
    s.registerSignalHandler processId signal = (false, s) ∨
    ∃ i, processId ≠ 0 ∧ (s.signalHandlers i).pending = false ∧ (s.signalHandlers i).delivered = false ∧
      (∀ j < i, (s.signalHandlers j).pending = true ∨ (s.signalHandlers j).delivered = true) ∧
      s.registerSignalHandler processId signal =
        (true, s.setSignalHandler i { s.signalHandlers i with processId := processId, signal := signal }) := by
  unfold State.registerSignalHandler
  by_cases harg : processId = 0 ∨ signal ≥ 32
  · exact .inl (if_pos harg)
  · rw [if_neg harg]
    rw [not_or] at harg
    cases hfree : Lib.firstSlot fun i => !(s.signalHandlers i).pending && !(s.signalHandlers i).delivered with
    | none => exact .inl rfl
    | some i =>
      obtain ⟨hi, hbefore⟩ := Lib.firstSlot_eq_some_iff.mp hfree
      rw [Bool.and_eq_true, Bool.not_eq_true', Bool.not_eq_true'] at hi
      refine .inr ⟨i, harg.1, hi.1, hi.2, fun j hj => ?_, rfl⟩
      have hused := hbefore j hj
      rw [Bool.and_eq_false_iff, Bool.not_eq_false', Bool.not_eq_false'] at hused
      exact hused

theorem findSignalHandler_some {processId : UInt64} {signal : UInt32} {i : Fin kMaxSignalHandlers}
    (h : s.findSignalHandler processId signal = some i) : (s.signalHandlers i).pair = (processId, signal) := by
  have hfound := Lib.firstSlot_true h
  rw [Bool.and_eq_true, beq_iff_eq, beq_iff_eq] at hfound
  exact Prod.ext hfound.1 hfound.2

theorem findSignalHandler_none {processId : UInt64} {signal : UInt32}
    (h : s.findSignalHandler processId signal = none) (i : Fin kMaxSignalHandlers) :
    (s.signalHandlers i).pair ≠ (processId, signal) := by
  intro hpair
  have hmiss := Lib.firstSlot_eq_none_iff.mp h i
  have hprocess : (s.signalHandlers i).processId = processId := congrArg Prod.fst hpair
  have hsignal : (s.signalHandlers i).signal = signal := congrArg Prod.snd hpair
  rw [hprocess, hsignal] at hmiss
  simp at hmiss

end Cases

/-! ## The invariant -/

/-- **The table of handlers** against the history. -/
structure Handlers (table : Fin kMaxSignalHandlers → UserSignalHandler) (calls : List (SignalOp × Result)) : Prop where
  idle      : ∀ i, (table i).pending = false
  /-- A slot that is not delivered is empty, unless it is the first such slot: then it may hold the last
      registration. -/
  fresh     : ∀ i, (table i).delivered = false → (table i).pair ≠ (0, 0) →
    (∀ j < i, (table j).delivered = true) ∧ (registrations calls).head? = some (table i).pair
  delivered : ∀ i, (table i).delivered = true → (table i).pair ∈ deliveries calls
  last      : ∀ r, (registrations calls).head? = some r → ∃ i, (table i).pair = r
  kept      : ∀ r ∈ deliveries calls, ∃ i, (table i).pair = r ∧ (table i).delivered = true
  known     : ∀ i, (table i).pair ≠ (0, 0) → (table i).pair ∈ registrations calls
  valid     : ∀ r ∈ registrations calls, r ≠ (0, 0)

section Step

variable {table : Fin kMaxSignalHandlers → UserSignalHandler} {calls : List (SignalOp × Result)}
  {c : SignalOp × Result}

/-- A call that returned false changes no history. -/
theorem Handlers.other (h : Handlers table calls) (hr : registrations (c :: calls) = registrations calls)
    (hd : deliveries (c :: calls) = deliveries calls) : Handlers table (c :: calls) := by
  refine ⟨h.idle, ?_, ?_, ?_, ?_, ?_, ?_⟩
  · rw [hr]
    exact h.fresh
  · rw [hd]
    exact h.delivered
  · rw [hr]
    exact h.last
  · rw [hd]
    exact h.kept
  · rw [hr]
    exact h.known
  · rw [hr]
    exact h.valid

/-- **A registration** takes the place of whatever the first free slot held. -/
theorem Handlers.register (h : Handlers table calls) {i : Fin kMaxSignalHandlers} {r : UInt64 × UInt32}
    (hr : r ≠ (0, 0)) (hi : (table i).delivered = false) (hfirst : ∀ j < i, (table j).delivered = true)
    (hreg : registrations (c :: calls) = r :: registrations calls) (hdel : deliveries (c :: calls) = deliveries calls) :
    Handlers (Function.update table i { table i with processId := r.1, signal := r.2 }) (c :: calls) := by
  have hself : Function.update table i { table i with processId := r.1, signal := r.2 } i =
      { table i with processId := r.1, signal := r.2 } := Function.update_self _ _ _
  have hother : ∀ {j}, j ≠ i →
      Function.update table i { table i with processId := r.1, signal := r.2 } j = table j :=
    fun hj => Function.update_of_ne hj _ _
  have hkept : ∀ {j}, (table j).delivered = true → j ≠ i := by
    rintro j hj rfl
    rw [hi] at hj
    exact absurd hj (by simp)
  refine ⟨fun j => ?_, fun j hj hpair => ?_, fun j hj => ?_, fun q hq => ⟨i, ?_⟩, fun q hq => ?_, fun j hpair => ?_, ?_⟩
  · by_cases hji : j = i
    · rw [hji, hself]
      exact h.idle i
    · rw [hother hji]
      exact h.idle j
  · by_cases hji : j = i
    · rw [hji, hself, hreg]
      refine ⟨fun k hk => ?_, rfl⟩
      rw [hother (ne_of_lt hk)]
      exact hfirst k hk
    · -- another slot that holds something is after no free slot, and `i` is free
      rw [hother hji] at hj hpair
      obtain ⟨hbefore, -⟩ := h.fresh j hj hpair
      rcases lt_or_gt_of_ne hji with hlt | hgt
      · rw [hfirst j hlt] at hj
        exact absurd hj (by simp)
      · rw [hbefore i hgt] at hi
        exact absurd hi (by simp)
  · have hji : j ≠ i := by
      rintro rfl
      rw [hself] at hj
      exact absurd hi (by rw [hj]; simp)
    rw [hother hji] at hj ⊢
    rw [hdel]
    exact h.delivered j hj
  · rw [hreg] at hq
    rw [hself]
    exact Option.some.inj hq
  · rw [hdel] at hq
    obtain ⟨j, hj, hdelivered⟩ := h.kept q hq
    refine ⟨j, ?_⟩
    rw [hother (hkept hdelivered)]
    exact ⟨hj, hdelivered⟩
  · rw [hreg]
    by_cases hji : j = i
    · rw [hji, hself]
      exact List.mem_cons_self
    · rw [hother hji] at hpair ⊢
      exact List.mem_cons_of_mem _ (h.known j hpair)
  · rw [hreg]
    intro q hq
    rcases List.mem_cons.mp hq with rfl | hq
    · exact hr
    · exact h.valid q hq

/-- **A delivery** takes its slot for good. -/
theorem Handlers.deliver (h : Handlers table calls) (i : Fin kMaxSignalHandlers)
    (hreg : registrations (c :: calls) = registrations calls)
    (hdel : deliveries (c :: calls) = (table i).pair :: deliveries calls) :
    Handlers (Function.update table i { table i with pending := false, delivered := true }) (c :: calls) := by
  have hself : Function.update table i { table i with pending := false, delivered := true } i =
      { table i with pending := false, delivered := true } := Function.update_self _ _ _
  have hother : ∀ {j}, j ≠ i →
      Function.update table i { table i with pending := false, delivered := true } j = table j :=
    fun hj => Function.update_of_ne hj _ _
  have hpairs : ∀ j,
      (Function.update table i { table i with pending := false, delivered := true } j).pair = (table j).pair := by
    intro j
    by_cases hji : j = i
    · rw [hji, hself]
      rfl
    · rw [hother hji]
  have hmarked : ∀ {j}, (table j).delivered = true →
      (Function.update table i { table i with pending := false, delivered := true } j).delivered = true := by
    intro j hj
    by_cases hji : j = i
    · rw [hji, hself]
    · rw [hother hji]
      exact hj
  refine ⟨fun j => ?_, fun j hj hpair => ?_, fun j hj => ?_, fun q hq => ?_, fun q hq => ?_, fun j hpair => ?_, ?_⟩
  · by_cases hji : j = i
    · rw [hji, hself]
    · rw [hother hji]
      exact h.idle j
  · have hji : j ≠ i := by
      rintro rfl
      rw [hself] at hj
      exact absurd hj (by simp)
    rw [hpairs] at hpair ⊢
    rw [hother hji] at hj
    obtain ⟨hbefore, hlast⟩ := h.fresh j hj hpair
    rw [hreg]
    exact ⟨fun k hk => hmarked (hbefore k hk), hlast⟩
  · rw [hpairs, hdel]
    by_cases hji : j = i
    · rw [hji]
      exact List.mem_cons_self
    · rw [hother hji] at hj
      exact List.mem_cons_of_mem _ (h.delivered j hj)
  · rw [hreg] at hq
    obtain ⟨j, hj⟩ := h.last q hq
    exact ⟨j, (hpairs j).trans hj⟩
  · rw [hdel] at hq
    rcases List.mem_cons.mp hq with rfl | hq
    · refine ⟨i, hpairs i, ?_⟩
      rw [hself]
    · obtain ⟨j, hj, hdelivered⟩ := h.kept q hq
      exact ⟨j, (hpairs j).trans hj, hmarked hdelivered⟩
  · rw [hpairs] at hpair ⊢
    rw [hreg]
    exact h.known j hpair
  · rw [hreg]
    exact h.valid

/-- **Every call about signals** keeps the invariant. -/
theorem Handlers.signal {s : System} (h : Handlers s.user.signalHandlers calls) (op : SignalOp) :
    Handlers (s.signal op).2.user.signalHandlers ((op, (s.signal op).1) :: calls) := by
  cases op with
  | registerSignalHandler pid sig =>
    show Handlers (s.user.registerSignalHandler pid sig).2.signalHandlers
      ((_, .bool (s.user.registerSignalHandler pid sig).1) :: calls)
    rcases registerSignalHandler_cases s.user pid sig with hop | ⟨i, hpid, -, hfree, hbefore, hop⟩ <;> rw [hop]
    · exact h.other rfl rfl
    · have hfirst : ∀ j < i, (s.user.signalHandlers j).delivered = true := by
        intro j hj
        rcases hbefore j hj with hpending | hdelivered
        · rw [h.idle j] at hpending
          exact absurd hpending (by simp)
        · exact hdelivered
      exact h.register (r := (pid, sig)) (fun hz => hpid (congrArg Prod.fst hz)) hfree hfirst rfl rfl
  | deliverUserSignal pid tid sig =>
    show Handlers (s.deliverUserSignal pid tid sig).2.user.signalHandlers
      ((_, .bool (s.deliverUserSignal pid tid sig).1) :: calls)
    rcases s.deliver_cases pid tid sig with ⟨-, hop⟩ | ⟨i, hfind, ⟨-, hop⟩ | ⟨-, hop⟩⟩ <;> rw [hop]
    · exact h.other rfl rfl
    · exact h.other rfl rfl
    · refine h.deliver i rfl ?_
      rw [findSignalHandler_some s.user hfind]
      rfl

end Step

theorem handlers_reset : Handlers State.initialised.signalHandlers [] := by
  have htable : State.initialised.signalHandlers = fun _ => {} := rfl
  rw [htable]
  refine ⟨fun _ => rfl, fun _ _ hpair => absurd rfl hpair, fun _ hi => absurd hi (by simp), ?_, ?_,
    fun _ hpair => absurd rfl hpair, ?_⟩
  · intro r hr
    exact absurd hr (by simp [registrations])
  · intro r hr
    exact absurd hr (by simp [deliveries])
  · intro r hr
    exact absurd hr (by simp [registrations])

theorem handlers (e : Entries) (heap : { h : KernelHeap // h.InBlock }) (as : List System.Action) :
    Handlers (reached e heap as).user.signalHandlers (signalCalls (reached e heap as).log) := by
  have hstep : ∀ (s : System) a, Handlers s.user.signalHandlers (signalCalls s.log) →
      Handlers (s.step e a).user.signalHandlers (signalCalls (s.step e a).log) := by
    intro s a h
    rcases s.step_cases e a with hstep | ⟨op, -, -, hstep⟩ | ⟨b, -, -, hstep⟩ <;> rw [hstep]
    · exact h
    · cases op with
      | file op =>
        show Handlers (s.user.file op).2.signalHandlers (signalCalls s.log)
        rw [(frame_file s.user op).2]
        exact h
      | process op =>
        show Handlers (s.process e op).2.user.signalHandlers (signalCalls s.log)
        rw [(s.sameTables_process e op).signals]
        exact h
      | signal op => exact h.signal op
    · dsimp only
      split
      · rw [(s.sameTables_entered e).signals]
        exact h
      · exact h
  exact Lib.run_invariant hstep handlers_reset as

/-! ## What is delivered -/

section Deliver

variable {s : System} {calls : List (SignalOp × Result)} {processId threadId : UInt64} {signal : UInt32}

/-- A delivery succeeds for a pair that some slot holds. -/
theorem deliver_true : (s.deliverUserSignal processId threadId signal).1 = true ↔
    (∃ i, (s.user.signalHandlers i).pair = (processId, signal)) ∧
      (Scheduler.kernelSendSignal s.kernel.sched threadId signal).1 = true := by
  rcases s.deliver_cases processId threadId signal with ⟨hnone, hop⟩ | ⟨i, hsome, ⟨hsent, hop⟩ | ⟨hsent, hop⟩⟩ <;> rw [hop]
  · refine iff_of_false (by simp) ?_
    rintro ⟨⟨i, hi⟩, -⟩
    exact findSignalHandler_none s.user hnone i hi
  · refine iff_of_false (by simp) ?_
    rintro ⟨-, hsent'⟩
    exact absurd (hsent.symm.trans hsent') (by simp)
  · exact iff_of_true rfl ⟨⟨i, findSignalHandler_some s.user hsome⟩, hsent⟩

/-- **The pairs that the slots hold**: of the registered ones, the last and those that have been delivered. -/
theorem Handlers.holds (h : Handlers s.user.signalHandlers calls) {r : UInt64 × UInt32} (hr : r ≠ (0, 0)) :
    (∃ i, (s.user.signalHandlers i).pair = r) ↔
      r ∈ registrations calls ∧ ((registrations calls).head? = some r ∨ r ∈ deliveries calls) := by
  constructor
  · rintro ⟨i, rfl⟩
    refine ⟨h.known i hr, ?_⟩
    by_cases hdelivered : (s.user.signalHandlers i).delivered = true
    · exact .inr (h.delivered i hdelivered)
    · exact .inl (h.fresh i (by simpa using hdelivered) hr).2
  · rintro ⟨-, hlast | hdelivered⟩
    · exact h.last r hlast
    · obtain ⟨i, hi, -⟩ := h.kept r hdelivered
      exact ⟨i, hi⟩

end Deliver

/-- **When a delivery agrees with the history.** In every state of every run, `DeliverUserSignal` returns true for
    exactly the registered pairs whose signal can be sent if and only if the signal cannot be sent, or the pair, if
    it was registered, was the last to be registered or has been delivered before, and, if it is the pair of zeros,
    no slot holds zeros. -/
theorem deliver_iff (e : Entries) (heap : { h : KernelHeap // h.InBlock }) (as : List System.Action)
    (processId threadId : UInt64) (signal : UInt32) :
    let s := reached e heap as
    let calls := signalCalls s.log
    let sent := (Scheduler.kernelSendSignal s.kernel.sched threadId signal).1
    (((s.deliverUserSignal processId threadId signal).1 = true ↔
        (processId, signal) ∈ registrations calls ∧ sent = true) ↔
      (sent = true →
        ((processId, signal) ∈ registrations calls →
          (registrations calls).head? = some (processId, signal) ∨ (processId, signal) ∈ deliveries calls) ∧
        ((processId, signal) = (0, 0) →
          ∀ i, (s.user.signalHandlers i).processId ≠ 0 ∨ (s.user.signalHandlers i).signal ≠ 0))) := by
  intro s calls sent
  have h : Handlers s.user.signalHandlers calls := handlers e heap as
  rw [deliver_true]
  by_cases hsent : sent = true
  · have hzero : (∀ i, (s.user.signalHandlers i).processId ≠ 0 ∨ (s.user.signalHandlers i).signal ≠ 0) ↔
        ¬ ∃ i, (s.user.signalHandlers i).pair = (0, 0) := by
      rw [not_exists]
      refine forall_congr' fun i => ?_
      show _ ↔ ¬ (((s.user.signalHandlers i).processId, (s.user.signalHandlers i).signal) = (0, 0))
      rw [Prod.mk.injEq, not_and_or]
    by_cases hr : (processId, signal) = (0, 0)
    · -- the pair of zeros is never registered
      have hnever : (0, 0) ∉ registrations calls := fun hmem => h.valid _ hmem rfl
      rw [hr, hzero]
      constructor
      · intro hiff _
        refine ⟨fun hmem => absurd hmem hnever, fun _ hex => ?_⟩
        exact hnever (hiff.mp ⟨hex, hsent⟩).1
      · intro hcond
        refine iff_of_false (fun hex => ?_) (fun hmem => hnever hmem.1)
        exact (hcond hsent).2 rfl hex.1
    · rw [h.holds hr]
      constructor
      · intro hiff _
        exact ⟨fun hmem => (hiff.mpr ⟨hmem, hsent⟩).1.2, fun hz => absurd hz hr⟩
      · intro hcond
        refine ⟨fun hex => ⟨hex.1.1, hsent⟩, fun hmem => ⟨⟨hmem.1, ?_⟩, hsent⟩⟩
        exact (hcond hsent).1 hmem.1
  · refine iff_of_true (iff_of_false (fun hex => hsent hex.2) fun hmem => hsent hmem.2) fun htrue => ?_
    exact absurd htrue hsent

/-- Two handlers of one process. -/
def handlersRun : List System.Action :=
  [.call (.signal (.registerSignalHandler 1 2)), .call (.signal (.registerSignalHandler 1 3))]

/-- Both registrations have returned true and the signal can be sent, but the first handler is gone. -/
theorem first_handler_lost :
    let s := reached entriesAt1MiB Scheduler.heapAt2MiB handlersRun
    (1, 2) ∈ registrations (signalCalls s.log) ∧ (1, 3) ∈ registrations (signalCalls s.log) ∧
    (Scheduler.kernelSendSignal s.kernel.sched 1 2).1 = true ∧ (s.deliverUserSignal 1 1 2).1 = false := by
  decide +kernel

end Userspace
end UefiBoot
