import UefiBoot.Lib.Ring
import UefiBoot.Lib.Run

/-!
# `Gui.EventQueue` — the event queue between the interrupt handlers and the desktop

`KernelGuiPollEvent` runs with interrupts enabled, and a handler that posts an event may interrupt it between any
two statements. A poll is therefore a program counter over the statements of the source, and a step of `Polling` is
one statement of the poll in progress or a whole `KernelGuiPostEvent`.

The queue behaves as a FIFO of 64 places whose contents are `pending`: an event enters it with the post that
returns true and leaves it with the statement that lowers `g_EventCount`, although the read index has moved on one
statement earlier and the mirror in `g_Status` follows one statement later. What carries the proof is `Inv`, which
says at each place of the poll how far the three indices have come apart.
-/

namespace UefiBoot
namespace Gui

inductive GuiEventType where
  | none
  | mouseMove
  | mouseDown
  | mouseUp
  | mouseWheel
  | click
  | doubleClick
  | hover
  | drag
  | keyDown
  | keyUp
  | gamepad
  | paint
  | resize
  | close
  deriving DecidableEq

structure GuiEvent where
  type   : GuiEventType := .none
  x      : Int32 := 0
  y      : Int32 := 0
  button : UInt32 := 0
  key    : UInt32 := 0
  deriving DecidableEq

abbrev kEventQueueCapacity : Nat := 64

local instance : NeZero kEventQueueCapacity := ⟨by decide⟩

/-- `g_EventQueue` with its indices, and the two fields of `g_Status` that belong to it. -/
structure EventQueue where
  eventQueueReady : Bool := false
  events          : Fin kEventQueueCapacity → GuiEvent := fun _ => {}
  eventReadIndex  : Nat := 0
  eventWriteIndex : Nat := 0
  eventCount      : Nat := 0
  queuedEvents    : Nat := 0

namespace EventQueue

/-- What `KernelGuiInit` does to the queue: `ResetGuiStatus` empties it without touching the array, and once the
    framebuffer is accepted the queue is ready. -/
def init (q : EventQueue) : EventQueue :=
  { q with
    eventQueueReady := true
    eventReadIndex := 0
    eventWriteIndex := 0
    eventCount := 0
    queuedEvents := 0 }

def kernelGuiPostEvent (q : EventQueue) (event : GuiEvent) : Bool × EventQueue :=
  if !q.eventQueueReady ∨ q.eventCount ≥ kEventQueueCapacity then (false, q)
  else
    (true, { q with
      events := fun k => if k.val = q.eventWriteIndex then event else q.events k
      eventWriteIndex := (q.eventWriteIndex + 1) % kEventQueueCapacity
      eventCount := q.eventCount + 1
      queuedEvents := q.eventCount + 1 })

/-- `KernelGuiPollEvent` when nothing interrupts it. -/
def kernelGuiPollEvent (q : EventQueue) : Option GuiEvent × EventQueue :=
  if !q.eventQueueReady ∨ q.eventCount = 0 then (none, q)
  else
    (some (q.events (Fin.ofNat _ q.eventReadIndex)), { q with
      eventReadIndex := (q.eventReadIndex + 1) % kEventQueueCapacity
      eventCount := q.eventCount - 1
      queuedEvents := q.eventCount - 1 })

end EventQueue

/-! ## A poll statement by statement -/

/-- The statement of `KernelGuiPollEvent` that comes next, with the event that has been copied. -/
inductive PollAt where
  /-- No poll is in progress; the next statement is the test at the beginning of one. -/
  | test
  | copy
  | advanceRead (event : GuiEvent)
  | lowerCount (event : GuiEvent)
  | mirrorCount (event : GuiEvent)
  | return (event : GuiEvent)
  deriving DecidableEq

/-- The queue, the poll in progress, and what was accepted and delivered so far. No step reads the two lists. -/
structure Polling where
  queue     : EventQueue
  poll      : PollAt := .test
  accepted  : List GuiEvent := []
  delivered : List GuiEvent := []

namespace Polling

/-- One statement of the poll. A poll that finds nothing returns false at once. -/
def statement (s : Polling) : Polling :=
  match s.poll with
  | .test =>
    if !s.queue.eventQueueReady ∨ s.queue.eventCount = 0 then s else { s with poll := .copy }
  | .copy => { s with poll := .advanceRead (s.queue.events (Fin.ofNat _ s.queue.eventReadIndex)) }
  | .advanceRead event =>
    { s with
      queue := { s.queue with eventReadIndex := (s.queue.eventReadIndex + 1) % kEventQueueCapacity }
      poll := .lowerCount event }
  | .lowerCount event =>
    { s with queue := { s.queue with eventCount := s.queue.eventCount - 1 }, poll := .mirrorCount event }
  | .mirrorCount event =>
    { s with queue := { s.queue with queuedEvents := s.queue.eventCount }, poll := .return event }
  | .return event => { s with poll := .test, delivered := s.delivered ++ [event] }

/-- A handler posts an event and returns. -/
def post (s : Polling) (event : GuiEvent) : Polling :=
  let (ok, queue) := s.queue.kernelGuiPostEvent event
  { s with queue := queue, accepted := if ok then s.accepted ++ [event] else s.accepted }

inductive Action where
  | statement
  | post (event : GuiEvent)

def step (s : Polling) : Action → Polling
  | .statement  => s.statement
  | .post event => s.post event

/-- The queue as `KernelGuiInit` leaves it, with no poll in progress. -/
def start (q : EventQueue) : Polling := { queue := q.init }

/-! ## The queue as a FIFO -/

/-- The events in the ring from the read index on, `count` of them. -/
def ring (s : Polling) (count : Nat) : List GuiEvent :=
  Lib.ringContents s.queue.events s.queue.eventReadIndex count

/-- **The contents of the FIFO.** Between the statement that moves the read index on and the one that lowers the
    count, the oldest event is in the hands of the poll only. -/
def pending (s : Polling) : List GuiEvent :=
  match s.poll with
  | .lowerCount event => event :: s.ring (s.queue.eventCount - 1)
  | _                 => s.ring s.queue.eventCount

/-- The event that has left the FIFO and that the poll in progress will return. -/
def removed (s : Polling) : List GuiEvent :=
  match s.poll with
  | .mirrorCount event => [event]
  | .return event      => [event]
  | _                  => []

/-- The read index, the write index and a count, taken together. -/
def RingOk (s : Polling) (count : Nat) : Prop :=
  Lib.RingOk kEventQueueCapacity s.queue.eventReadIndex s.queue.eventWriteIndex count

/-- How the indices stand to each other at each place of the poll. -/
def IndicesOk (s : Polling) : Prop :=
  match s.poll with
  | .test              => s.RingOk s.queue.eventCount ∧ s.queue.queuedEvents = s.queue.eventCount
  | .copy              => s.RingOk s.queue.eventCount ∧ s.queue.queuedEvents = s.queue.eventCount ∧
                            s.queue.eventCount ≠ 0
  | .advanceRead event => s.RingOk s.queue.eventCount ∧ s.queue.queuedEvents = s.queue.eventCount ∧
                            (s.ring s.queue.eventCount).head? = some event
  | .lowerCount _      => s.RingOk (s.queue.eventCount - 1) ∧ s.queue.queuedEvents = s.queue.eventCount ∧
                            s.queue.eventCount ≠ 0 ∧ s.queue.eventCount ≤ kEventQueueCapacity
  | .mirrorCount _     => s.RingOk s.queue.eventCount
  | .return _          => s.RingOk s.queue.eventCount ∧ s.queue.queuedEvents = s.queue.eventCount

structure Inv (s : Polling) : Prop where
  ready    : s.queue.eventQueueReady = true
  indices  : s.IndicesOk
  conserve : s.accepted = s.delivered ++ s.removed ++ s.pending

variable {s : Polling} {e : GuiEvent} {count : Nat}

/-- Six statements with nothing between them are `KernelGuiPollEvent`, and a poll that finds nothing is one. -/
theorem statements_eq_poll (htest : s.poll = .test) :
    match s.queue.kernelGuiPollEvent with
    | (none, queue)       => s.statement = s ∧ queue = s.queue
    | (some event, queue) => Lib.run step s (List.replicate 6 .statement) =
        { s with queue := queue, delivered := s.delivered ++ [event] } := by
  obtain ⟨queue, poll, accepted, delivered⟩ := s
  obtain rfl : poll = .test := htest
  unfold EventQueue.kernelGuiPollEvent
  by_cases h : (!queue.eventQueueReady) = true ∨ queue.eventCount = 0
  · rw [if_pos h]
    exact ⟨if_pos h, rfl⟩
  · rw [if_neg h]
    have hfirst : Polling.statement ⟨queue, .test, accepted, delivered⟩ = ⟨queue, .copy, accepted, delivered⟩ :=
      if_neg h
    show Lib.run step (Polling.statement ⟨queue, .test, accepted, delivered⟩) (List.replicate 5 .statement) = _
    rw [hfirst]
    rfl

/-! ### What a post does -/

theorem post_refused (hfull : kEventQueueCapacity ≤ s.queue.eventCount) :
    (s.queue.kernelGuiPostEvent e).1 = false ∧ s.post e = s := by
  have hpost : s.queue.kernelGuiPostEvent e = (false, s.queue) := if_pos (.inr hfull)
  unfold post
  rw [hpost]
  exact ⟨rfl, rfl⟩

theorem post_accepted (hready : s.queue.eventQueueReady = true) (hroom : s.queue.eventCount < kEventQueueCapacity) :
    (s.queue.kernelGuiPostEvent e).1 = true ∧
    s.post e = { s with
      queue := { s.queue with
        events := fun k => if k.val = s.queue.eventWriteIndex then e else s.queue.events k
        eventWriteIndex := (s.queue.eventWriteIndex + 1) % kEventQueueCapacity
        eventCount := s.queue.eventCount + 1
        queuedEvents := s.queue.eventCount + 1 }
      accepted := s.accepted ++ [e] } := by
  have hno : ¬ ((!s.queue.eventQueueReady) = true ∨ s.queue.eventCount ≥ kEventQueueCapacity) := by
    rw [hready]
    simpa using hroom
  unfold post EventQueue.kernelGuiPostEvent
  rw [if_neg hno]
  exact ⟨rfl, rfl⟩

/-- An accepted event is written behind the events that are in the ring. -/
theorem ring_post (hready : s.queue.eventQueueReady = true) (hroom : s.queue.eventCount < kEventQueueCapacity)
    (hring : s.RingOk count) (hcount : count < kEventQueueCapacity) :
    (s.post e).ring (count + 1) = s.ring count ++ [e] ∧ (s.post e).RingOk (count + 1) := by
  rw [(post_accepted hready hroom).2]
  exact ⟨Lib.ringContents_push hring hcount e, Lib.RingOk.push hring hcount⟩

/-- An accepted event goes to the end of the FIFO, wherever the poll is. -/
theorem Inv.pending_post (h : s.Inv) (hroom : s.queue.eventCount < kEventQueueCapacity) :
    (s.post e).pending = s.pending ++ [e] ∧ (s.post e).IndicesOk := by
  have heq := (post_accepted (e := e) h.ready hroom).2
  have hpoll : (s.post e).poll = s.poll := by rw [heq]
  have hcount : (s.post e).queue.eventCount = s.queue.eventCount + 1 := by rw [heq]
  have hmirror : (s.post e).queue.queuedEvents = s.queue.eventCount + 1 := by rw [heq]
  have hidx := h.indices
  unfold IndicesOk pending at *
  rw [hpoll, hcount, hmirror]
  cases hat : s.poll <;> simp only [hat] at hidx ⊢
  case lowerCount front =>
    -- the ring has one event less than the count says
    obtain ⟨hring, -, hne, -⟩ := hidx
    obtain ⟨hlow, hok⟩ := ring_post (e := e) h.ready hroom hring (by omega)
    rw [Nat.sub_add_cancel (Nat.one_le_iff_ne_zero.mpr hne)] at hlow hok
    rw [Nat.add_sub_cancel, hlow, List.cons_append]
    exact ⟨rfl, hok, trivial, Nat.succ_ne_zero _, hroom⟩
  case advanceRead front =>
    obtain ⟨hring, -, hhead⟩ := hidx
    obtain ⟨hpush, hok⟩ := ring_post (e := e) h.ready hroom hring hroom
    rw [hpush, List.head?_append, hhead]
    exact ⟨rfl, hok, trivial, rfl⟩
  case test =>
    obtain ⟨hpush, hok⟩ := ring_post (e := e) h.ready hroom hidx.1 hroom
    exact ⟨hpush, hok, trivial⟩
  case copy =>
    obtain ⟨hpush, hok⟩ := ring_post (e := e) h.ready hroom hidx.1 hroom
    exact ⟨hpush, hok, trivial, Nat.succ_ne_zero _⟩
  case mirrorCount front =>
    exact ring_post h.ready hroom hidx hroom
  case «return» front =>
    obtain ⟨hpush, hok⟩ := ring_post (e := e) h.ready hroom hidx.1 hroom
    exact ⟨hpush, hok, trivial⟩

theorem Inv.post (h : s.Inv) (event : GuiEvent) : (s.post event).Inv := by
  by_cases hroom : s.queue.eventCount < kEventQueueCapacity
  · have heq := (post_accepted (e := event) h.ready hroom).2
    obtain ⟨hpending, hindices⟩ := h.pending_post (e := event) hroom
    refine ⟨by rw [heq]; exact h.ready, hindices, ?_⟩
    have hremoved : (s.post event).removed = s.removed := by
      rw [heq]
      rfl
    rw [hpending, hremoved, heq]
    show s.accepted ++ [event] = s.delivered ++ s.removed ++ (s.pending ++ [event])
    rw [h.conserve, List.append_assoc]
  · rw [(post_refused (by omega)).2]
    exact h

/-! ### What a statement of the poll does -/

/-- The event that the next statement takes out of the FIFO. -/
def taken (s : Polling) : List GuiEvent :=
  match s.poll with
  | .lowerCount event => [event]
  | _                 => []

/-- One statement keeps the indices in order and takes nothing out of the FIFO but, when it lowers the count, its
    first event. -/
theorem Inv.statement_pending (h : s.Inv) :
    s.statement.IndicesOk ∧ s.pending = s.taken ++ s.statement.pending ∧
    s.statement.delivered ++ s.statement.removed = s.delivered ++ s.removed ++ s.taken := by
  have hidx := h.indices
  by_cases hempty : s.poll = .test ∧ s.queue.eventCount = 0
  · -- the poll returns false
    have hsame : s.statement = s := by
      unfold statement
      rw [hempty.1]
      exact if_pos (.inr hempty.2)
    have htaken : s.taken = [] := by
      unfold taken
      rw [hempty.1]
    rw [hsame, htaken, List.nil_append, List.append_nil]
    exact ⟨hidx, rfl, rfl⟩
  unfold IndicesOk at hidx
  unfold statement IndicesOk pending removed taken
  cases hat : s.poll <;> simp only [hat] at hidx ⊢
  case test =>
    have hzero : s.queue.eventCount ≠ 0 := fun hz => hempty ⟨hat, hz⟩
    rw [if_neg (by simp [h.ready, hzero])]
    exact ⟨⟨hidx.1, hidx.2, hzero⟩, (List.nil_append _).symm, (List.append_nil _).symm⟩
  case copy =>
    obtain ⟨hring, hmirror, hne⟩ := hidx
    have hhead : (s.ring s.queue.eventCount).head? = some (s.queue.events (Fin.ofNat _ s.queue.eventReadIndex)) := by
      unfold ring
      rw [Lib.ringContents_pop hne]
      rfl
    exact ⟨⟨hring, hmirror, hhead⟩, (List.nil_append _).symm, (List.append_nil _).symm⟩
  case advanceRead front =>
    obtain ⟨hring, hmirror, hhead⟩ := hidx
    have hne : s.queue.eventCount ≠ 0 := by
      intro hzero
      rw [hzero] at hhead
      exact absurd hhead (by simp [ring])
    have hpop : Lib.ringContents s.queue.events s.queue.eventReadIndex s.queue.eventCount = _ := Lib.ringContents_pop hne
    have hfront : s.queue.events (Fin.ofNat _ s.queue.eventReadIndex) = front := by
      unfold ring at hhead
      rw [hpop] at hhead
      exact Option.some.inj hhead
    refine ⟨⟨Lib.RingOk.pop hring hne, hmirror, hne, hring.capacity⟩, ?_, (List.append_nil _).symm⟩
    rw [List.nil_append, ← hfront]
    exact hpop
  case lowerCount front => exact ⟨hidx.1, rfl, by rw [List.append_nil]⟩
  case mirrorCount front => exact ⟨⟨hidx, trivial⟩, (List.nil_append _).symm, (List.append_nil _).symm⟩
  case «return» front => exact ⟨hidx, (List.nil_append _).symm, trivial⟩

/-- A statement of the poll accepts nothing and leaves the queue ready. -/
theorem statement_kept (s : Polling) :
    s.statement.accepted = s.accepted ∧ s.statement.queue.eventQueueReady = s.queue.eventQueueReady := by
  unfold statement
  cases s.poll
  case test =>
    dsimp only
    split <;> exact ⟨rfl, rfl⟩
  all_goals exact ⟨rfl, rfl⟩

theorem Inv.statement (h : s.Inv) : s.statement.Inv := by
  obtain ⟨hindices, hpending, hreturned⟩ := h.statement_pending
  refine ⟨(statement_kept s).2.trans h.ready, hindices, ?_⟩
  rw [(statement_kept s).1, hreturned, List.append_assoc, ← hpending]
  exact h.conserve

theorem Inv.step (h : s.Inv) (a : Action) : (s.step a).Inv := by
  cases a with
  | statement => exact h.statement
  | post event => exact h.post event

theorem inv_start (q : EventQueue) : (start q).Inv :=
  ⟨rfl, ⟨Lib.RingOk.empty kEventQueueCapacity, rfl⟩, rfl⟩

theorem inv_run (q : EventQueue) (as : List Action) : (Lib.run step (start q) as).Inv :=
  Lib.run_invariant (fun _ a h => h.step a) (inv_start q) as

/-! ### The length of the FIFO -/

theorem Inv.length_pending (h : s.Inv) : s.pending.length = s.queue.eventCount := by
  have hidx := h.indices
  unfold IndicesOk at hidx
  unfold pending ring
  cases hat : s.poll <;> simp only [hat] at hidx ⊢ <;> simp only [Lib.length_ringContents, List.length_cons]
  omega

/-! ### Polls come to an end -/

/-- How many statements it takes to deliver everything in the FIFO, the unsuccessful test at the end not counted. -/
def statementsLeft (s : Polling) : Nat :=
  match s.poll with
  | .test          => 6 * s.queue.eventCount
  | .copy          => 6 * s.queue.eventCount - 1
  | .advanceRead _ => 6 * s.queue.eventCount - 2
  | .lowerCount _  => 6 * s.queue.eventCount - 3
  | .mirrorCount _ => 6 * s.queue.eventCount + 2
  | .return _      => 6 * s.queue.eventCount + 1

/-- No poll is in progress and nothing is queued. -/
def Drained (s : Polling) : Prop := s.poll = .test ∧ s.queue.eventCount = 0

instance (s : Polling) : Decidable s.Drained := inferInstanceAs (Decidable (_ ∧ _))

theorem Inv.count_ne_zero (h : s.Inv) (hpoll : s.poll ≠ .test) (hleft : s.removed = []) : s.queue.eventCount ≠ 0 := by
  have hidx := h.indices
  unfold IndicesOk at hidx
  unfold removed at hleft
  cases hat : s.poll <;> simp only [hat] at hidx hleft
  case test => exact absurd hat hpoll
  case copy => exact hidx.2.2
  case advanceRead front =>
    intro hzero
    have hhead := hidx.2.2
    rw [hzero] at hhead
    exact absurd hhead (by simp [ring])
  case lowerCount front => exact hidx.2.2.1
  all_goals exact absurd hleft (List.cons_ne_nil _ _)

theorem Inv.drained_iff (h : s.Inv) : s.Drained ↔ s.statementsLeft = 0 := by
  have hne := h.count_ne_zero
  unfold Drained statementsLeft
  unfold removed at hne
  cases hat : s.poll <;> simp [hat] at hne ⊢ <;> omega

/-- A statement is one statement less to go. -/
theorem Inv.statementsLeft_statement (h : s.Inv) (hne : ¬ s.Drained) :
    s.statement.statementsLeft + 1 = s.statementsLeft := by
  have hcount := h.count_ne_zero
  unfold removed at hcount
  unfold Drained at hne
  unfold Polling.statement statementsLeft
  cases hat : s.poll <;> simp [hat] at hcount hne ⊢
  case test =>
    rw [if_neg (by simp [h.ready, hne])]
    dsimp only
    omega
  all_goals omega

theorem Inv.drains (h : s.Inv) :
    (Lib.run Polling.step s (List.replicate s.statementsLeft .statement)).Drained := by
  generalize hn : s.statementsLeft = n
  induction n generalizing s with
  | zero => exact h.drained_iff.mpr hn
  | succ n ih =>
      have hne : ¬ s.Drained := fun hd => by
        rw [h.drained_iff.mp hd] at hn
        exact absurd hn (Nat.succ_ne_zero n).symm
      have hleft := h.statementsLeft_statement hne
      rw [List.replicate_succ, Lib.run_cons]
      exact ih h.statement (by show s.statement.statementsLeft = n; omega)

/-- Statements alone accept nothing. -/
theorem accepted_statements (s : Polling) (n : Nat) :
    (Lib.run step s (List.replicate n .statement)).accepted = s.accepted := by
  induction n generalizing s with
  | zero => rfl
  | succ n ih =>
      rw [List.replicate_succ, Lib.run_cons, ih]
      exact (statement_kept s).1

theorem Inv.delivered_of_drained (h : s.Inv) (hd : s.Drained) : s.delivered = s.accepted := by
  have hpending : s.pending = [] := List.eq_nil_of_length_eq_zero (h.length_pending.trans hd.2)
  have hremoved : s.removed = [] := by
    unfold removed
    rw [hd.1]
  rw [h.conserve, hpending, hremoved, List.append_nil, List.append_nil]

/-- **The queue refines a FIFO of 64 places.** In every state that statements of polls and whole posts lead to from
    the queue that `KernelGuiInit` leaves, in whatever order:
    * what was accepted is what was delivered, then the event the poll in progress is about to return, then the
      contents of the FIFO, so events are delivered once each, in the order of acceptance and as they were posted;
    * a post is accepted, and goes to the end of the FIFO, exactly if it holds fewer than 64 events;
    * a statement leaves the FIFO as it is or takes its first event, and that event is the one delivered next;
    * a poll that begins finds nothing exactly if the FIFO is empty;
    * when no poll is in progress, `queued_events` is the number of undelivered events;
    * a consumer that goes on undisturbed has delivered everything after a bounded number of statements. -/
theorem refines_fifo (q : EventQueue) (as : List Action) :
    let s := Lib.run step (start q) as
    s.accepted = s.delivered ++ s.removed ++ s.pending ∧
    (∀ event, (s.queue.kernelGuiPostEvent event).1 = decide (s.pending.length < kEventQueueCapacity) ∧
      (s.post event).pending = if s.pending.length < kEventQueueCapacity then s.pending ++ [event] else s.pending) ∧
    (s.pending = s.taken ++ s.statement.pending ∧
      s.statement.delivered ++ s.statement.removed = s.delivered ++ s.removed ++ s.taken) ∧
    (s.poll = .test → (s.statement = s ↔ s.pending = []) ∧
      s.queue.queuedEvents = s.accepted.length - s.delivered.length) ∧
    ∃ n, (Lib.run step s (List.replicate n .statement)).delivered = s.accepted := by
  intro s
  have h : s.Inv := inv_run q as
  have hlength := h.length_pending
  refine ⟨h.conserve, fun event => ?_, h.statement_pending.2, fun htest => ⟨?_, ?_⟩, s.statementsLeft, ?_⟩
  · by_cases hroom : s.queue.eventCount < kEventQueueCapacity
    · rw [hlength, if_pos hroom, decide_eq_true hroom]
      exact ⟨(post_accepted h.ready hroom).1, (h.pending_post hroom).1⟩
    · obtain ⟨hfalse, hsame⟩ := post_refused (s := s) (e := event) (Nat.not_lt.mp hroom)
      rw [hlength, if_neg hroom, decide_eq_false hroom, hsame]
      exact ⟨hfalse, rfl⟩
  · have hempty : s.pending = [] ↔ s.Drained := by
      rw [← List.length_eq_zero_iff, hlength]
      exact ⟨fun hz => ⟨htest, hz⟩, fun hd => hd.2⟩
    rw [hempty]
    constructor
    · intro hsame
      by_contra hne
      have hleft := h.statementsLeft_statement hne
      rw [hsame] at hleft
      omega
    · intro hd
      unfold statement
      rw [htest]
      exact if_pos (.inr hd.2)
  · have hremoved : s.removed = [] := by
      unfold removed
      rw [htest]
    have hidx := h.indices
    unfold IndicesOk at hidx
    rw [htest] at hidx
    rw [h.conserve, hremoved, List.append_nil, List.length_append, hlength, hidx.2]
    omega
  · have hrun : (Lib.run step s (List.replicate s.statementsLeft .statement)).Inv :=
      Lib.run_invariant (fun _ a h => h.step a) h _
    rw [hrun.delivered_of_drained h.drains, accepted_statements]

end Polling
end Gui
end UefiBoot
