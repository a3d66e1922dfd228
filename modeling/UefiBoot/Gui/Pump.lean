import UefiBoot.Gui.Focus

/-!
# `Gui.Pump` — from the event queue to the pointer

The desktop keeps the pointer and the left button as the last events told it. `dispatchEvent_pointer` says what one
event makes of them, whatever else it does. `inFlight` are the events that have been posted and not dispatched: those
in the queue, and the one that a poll in progress is about to return.
-/

namespace UefiBoot
namespace Gui

/-! ## Events under way -/

/-- `KernelGuiPostEvent` without its result. -/
def EventQueue.post (queue : EventQueue) (event : GuiEvent) : EventQueue := (queue.kernelGuiPostEvent event).2

namespace Polling

variable {s : Polling} {event : GuiEvent}

/-- `Inv` without the log of what was accepted. -/
structure Sound (s : Polling) : Prop where
  ready   : s.queue.eventQueueReady = true
  indices : s.IndicesOk

def inFlight (s : Polling) : List GuiEvent := s.removed ++ s.pending

/-- The state with a log that fits. -/
def logged (s : Polling) : Polling := { s with accepted := s.delivered ++ s.removed ++ s.pending }

/-- The state without the log. -/
def bare (s : Polling) : Polling := { queue := s.queue, poll := s.poll }

theorem Sound.bare (h : s.Sound) : s.bare.Sound := ⟨h.ready, h.indices⟩

theorem inFlight_bare (s : Polling) : s.bare.inFlight = s.inFlight := rfl

theorem Sound.inv (h : s.Sound) : s.logged.Inv := ⟨h.ready, h.indices, rfl⟩

theorem Sound.post (h : s.Sound) (event : GuiEvent) : (s.post event).Sound := by
  have hinv := h.inv.post event
  exact ⟨hinv.ready, hinv.indices⟩

/-- An accepted event comes last. -/
theorem Sound.inFlight_post (h : s.Sound) (hroom : s.queue.eventCount < kEventQueueCapacity) :
    (s.post event).inFlight = s.inFlight ++ [event] := by
  have hpending : (s.post event).pending = s.pending ++ [event] := (h.inv.pending_post (e := event) hroom).1
  have hremoved : (s.post event).removed = s.removed := rfl
  unfold inFlight
  rw [hpending, hremoved, List.append_assoc]

theorem Sound.count_post (h : s.Sound) (hroom : s.queue.eventCount < kEventQueueCapacity) :
    (s.post event).queue.eventCount = s.queue.eventCount + 1 := by
  rw [(post_accepted h.ready hroom).2]

theorem post_full (hfull : ¬ s.queue.eventCount < kEventQueueCapacity) : s.post event = s :=
  (post_refused (Nat.not_lt.mp hfull)).2

theorem posts_kept (s : Polling) (events : List GuiEvent) :
    (events.foldl Polling.post s).queue = events.foldl EventQueue.post s.queue ∧ (events.foldl post s).poll = s.poll := by
  induction events generalizing s with
  | nil => exact ⟨rfl, rfl⟩
  | cons event events ih => exact ih (s.post event)

theorem Sound.posts (h : s.Sound) (events : List GuiEvent) : (events.foldl Polling.post s).Sound := by
  induction events generalizing s with
  | nil => exact h
  | cons event events ih => exact ih (h.post event)

/-- **Of several events** the queue takes the first ones, as many as there is room for. -/
theorem Sound.inFlight_posts (h : s.Sound) (events : List GuiEvent) :
    (events.foldl Polling.post s).inFlight = s.inFlight ++ events.take (kEventQueueCapacity - s.queue.eventCount) := by
  induction events generalizing s with
  | nil => rw [List.foldl_nil, List.take_nil, List.append_nil]
  | cons event events ih =>
      rw [List.foldl_cons, ih (h.post event)]
      by_cases hroom : s.queue.eventCount < kEventQueueCapacity
      · have hmore : kEventQueueCapacity - s.queue.eventCount = kEventQueueCapacity - (s.queue.eventCount + 1) + 1 := by
          omega
        rw [h.inFlight_post hroom, h.count_post hroom, hmore, List.take_succ_cons, List.append_assoc]
        rfl
      · have hnone : kEventQueueCapacity - s.queue.eventCount = 0 := by omega
        rw [post_full hroom, hnone, List.take_zero, List.take_zero]

/-- The log takes no part in a statement. -/
theorem logged_statement (s : Polling) :
    s.logged.statement.queue = s.statement.queue ∧ s.logged.statement.poll = s.statement.poll := by
  obtain ⟨queue, poll, accepted, delivered⟩ := s
  unfold Polling.statement logged
  cases poll
  case test =>
    dsimp only
    split <;> exact ⟨rfl, rfl⟩
  all_goals exact ⟨rfl, rfl⟩

theorem Sound.statement (h : s.Sound) : s.statement.Sound := by
  have hinv := h.inv.statement
  obtain ⟨hqueue, hpoll⟩ := logged_statement s
  refine ⟨hqueue ▸ hinv.ready, ?_⟩
  have hindices := hinv.indices
  unfold IndicesOk RingOk ring at hindices ⊢
  rw [hqueue, hpoll] at hindices
  exact hindices

/-- The event that the statement hands over. -/
def handed (s : Polling) : List GuiEvent :=
  match s.poll with
  | .return event => [event]
  | _             => []

/-- **A statement** hands over the first event under way, or leaves them as they are. -/
theorem Sound.inFlight_statement (h : s.Sound) : s.inFlight = s.handed ++ s.statement.inFlight := by
  obtain ⟨hqueue, hpoll⟩ := logged_statement s
  obtain ⟨-, hpending, hreturned⟩ := h.inv.statement_pending
  have htaken : s.logged.taken = s.taken := rfl
  have hsame : s.logged.pending = s.pending := rfl
  have hafter : s.logged.statement.pending = s.statement.pending := by
    unfold pending ring
    rw [hqueue, hpoll]
  rw [htaken, hsame, hafter] at hpending
  unfold inFlight
  rw [hpending, ← List.append_assoc, ← List.append_assoc]
  congr 1
  -- the event that has left the queue is the one taken, until it is handed over
  obtain ⟨queue, poll, accepted, delivered⟩ := s
  unfold removed taken handed Polling.statement
  cases poll
  case test =>
    dsimp only
    split_ifs <;> rfl
  all_goals rfl

theorem Sound.inFlight_drained (h : s.Sound) (hd : s.Drained) : s.inFlight = [] := by
  have hpending : s.pending = [] := List.eq_nil_of_length_eq_zero (h.inv.length_pending.trans hd.2)
  unfold inFlight removed
  rw [hpending, hd.1]
  rfl

theorem Sound.drained_iff (h : s.Sound) : s.Drained ↔ s.statementsLeft = 0 := h.inv.drained_iff

theorem Sound.statementsLeft_statement (h : s.Sound) (hne : ¬ s.Drained) :
    s.statement.statementsLeft + 1 = s.statementsLeft := by
  have hless : s.logged.statement.statementsLeft + 1 = s.statementsLeft := h.inv.statementsLeft_statement hne
  obtain ⟨hqueue, hpoll⟩ := logged_statement s
  rw [← hless]
  unfold statementsLeft
  rw [hqueue, hpoll]

/-! ### A whole poll -/

/-- A poll that nothing interrupts takes the first event, if there is one. -/
theorem Sound.poll {queue : EventQueue} (h : Sound { queue := queue }) :
    match queue.kernelGuiPollEvent with
    | (none, queue')       => queue.eventCount = 0 ∧ queue' = queue
    | (some event, queue') => queue'.eventCount + 1 = queue.eventCount ∧ Sound { queue := queue' } ∧
        inFlight { queue := queue } = event :: inFlight { queue := queue' } := by
  obtain ⟨hready, hring, hmirror⟩ := h
  unfold EventQueue.kernelGuiPollEvent
  by_cases hempty : queue.eventCount = 0
  · rw [if_pos (.inr hempty)]
    exact ⟨hempty, rfl⟩
  · rw [if_neg (by rintro (hno | hzero); exacts [absurd hready (by simpa using hno), hempty hzero])]
    refine ⟨Nat.sub_add_cancel (Nat.pos_of_ne_zero hempty), ⟨hready, Lib.RingOk.pop hring hempty, rfl⟩, ?_⟩
    exact Lib.ringContents_pop hempty

end Polling

theorem EventQueue.kernelGuiPollEvent_lt {queue queue' : EventQueue} {event : GuiEvent}
    (h : queue.kernelGuiPollEvent = (some event, queue')) : queue'.eventCount < queue.eventCount := by
  unfold kernelGuiPollEvent at h
  split_ifs at h with hempty
  · exact absurd (Prod.mk.inj h).1 (by simp)
  · obtain ⟨-, rfl⟩ := Prod.mk.inj h
    have hne : queue.eventCount ≠ 0 := fun hzero => hempty (.inr hzero)
    exact Nat.sub_lt (Nat.pos_of_ne_zero hne) Nat.one_pos

/-! ## The pointer -/

/-- What an event makes of the left button. -/
def GuiEvent.press (event : GuiEvent) (down : Bool) : Bool :=
  match event.type with
  | .mouseDown => event.button == 0
  | .mouseUp   => false
  | _          => down

namespace WindowManager

/-- The same screen, with the pointer at the same place and the button as it was. -/
structure SamePointer (wm wm' : WindowManager) : Prop where
  framebuffer    : wm'.framebuffer = wm.framebuffer
  mouseX         : wm'.mouseX = wm.mouseX
  mouseY         : wm'.mouseY = wm.mouseY
  leftButtonDown : wm'.leftButtonDown = wm.leftButtonDown

variable {wm wm' wm'' : WindowManager}

theorem SamePointer.refl (wm : WindowManager) : SamePointer wm wm := ⟨rfl, rfl, rfl, rfl⟩

theorem SamePointer.trans (h : SamePointer wm wm') (h' : SamePointer wm' wm'') : SamePointer wm wm'' :=
  ⟨h'.framebuffer.trans h.framebuffer, h'.mouseX.trans h.mouseX, h'.mouseY.trans h.mouseY,
    h'.leftButtonDown.trans h.leftButtonDown⟩

/-- Windows come and go under the pointer. -/
theorem SamePointer.change (h : Change wm wm') : SamePointer wm wm' := by
  cases h with
  | hold h => exact ⟨h.framebuffer, h.mouseX, h.mouseY, h.leftButtonDown⟩
  | edit => exact ⟨rfl, rfl, rfl, rfl⟩
  | refocus i f =>
      obtain ⟨hframebuffer, -, hx, hy, hleft⟩ := focusTopVisibleWindow_rest (wm.setWindow i f)
      exact ⟨hframebuffer, hx, hy, hleft⟩
  | switch desktop =>
      obtain ⟨hframebuffer, -, hx, hy, hleft⟩ := focusTopVisibleWindow_rest { wm with activeDesktop := desktop }
      exact ⟨hframebuffer, hx, hy, hleft⟩
  | focus i =>
      obtain ⟨hframebuffer, -, hx, hy, hleft⟩ := focusWindow_rest wm i
      exact ⟨hframebuffer, hx, hy, hleft⟩
  | add => exact ⟨rfl, rfl, rfl, rfl⟩

theorem SamePointer.works (h : Works wm wm') : SamePointer wm wm' :=
  h.keeps (P := SamePointer wm) (fun _ _ hchange hsame => hsame.trans (.change hchange)) (.refl wm)

end WindowManager

namespace Desktop

open WindowManager

variable {K : Type} {k : AppKernel K} {d : Desktop K}

/-- **An event moves the pointer and presses the button** as its type says, and nothing else does while the event is
    handled. -/
theorem dispatchEvent_pointer (k : AppKernel K) (d : Desktop K) (event : GuiEvent) :
    SamePointer { d.point event with leftButtonDown := event.press d.wm.leftButtonDown } (d.dispatchEvent k event).wm := by
  obtain ⟨wm, hbefore, hafter⟩ := dispatchEvent_works k d event
  have hpoint := SamePointer.works hbefore
  have hrelease := SamePointer.works hafter
  refine SamePointer.trans ?_ hrelease
  unfold release
  by_cases hup : event.type = .mouseUp
  · rw [if_pos hup]
    refine ⟨hpoint.framebuffer, hpoint.mouseX, hpoint.mouseY, ?_⟩
    unfold GuiEvent.press
    rw [hup]
  · rw [if_neg hup]
    refine ⟨hpoint.framebuffer, hpoint.mouseX, hpoint.mouseY, hpoint.leftButtonDown.trans ?_⟩
    -- the button goes down where the pointer is put
    unfold point GuiEvent.press
    cases htype : event.type
    case mouseUp => exact absurd htype hup
    case drag =>
      dsimp only
      split_ifs <;> rfl
    all_goals rfl

/-! ## The pump -/

/-- `KernelGuiPumpEvents` when nothing is posted meanwhile. -/
def kernelGuiPumpEvents (k : AppKernel K) (d : Desktop K) (queue : EventQueue) : Desktop K × EventQueue :=
  match h : queue.kernelGuiPollEvent with
  | (none, queue)       => (d, queue)
  | (some event, queue') => kernelGuiPumpEvents k (d.dispatchEvent k event) queue'
termination_by queue.eventCount
decreasing_by exact EventQueue.kernelGuiPollEvent_lt h

/-- **The pump** dispatches the events in the queue in order and leaves it empty. -/
theorem kernelGuiPumpEvents_spec (k : AppKernel K) (d : Desktop K) {queue : EventQueue}
    (h : Polling.Sound { queue := queue }) :
    (d.kernelGuiPumpEvents k queue).1 = (Polling.inFlight { queue := queue }).foldl (dispatchEvent k) d ∧
    Polling.Sound { queue := (d.kernelGuiPumpEvents k queue).2 } ∧ (d.kernelGuiPumpEvents k queue).2.eventCount = 0 := by
  generalize hcount : queue.eventCount = n
  induction n generalizing d queue with
  | zero =>
      have hpoll := h.poll
      rw [kernelGuiPumpEvents]
      split
      · next queue' heq =>
        rw [heq] at hpoll
        obtain ⟨-, rfl⟩ := hpoll
        rw [h.inFlight_drained ⟨rfl, hcount⟩]
        exact ⟨rfl, h, hcount⟩
      · next event queue' heq =>
        rw [heq] at hpoll
        exact absurd (hpoll.1.trans hcount) (Nat.succ_ne_zero _)
  | succ n ih =>
      have hpoll := h.poll
      rw [kernelGuiPumpEvents]
      split
      · next queue' heq =>
        rw [heq] at hpoll
        exact absurd (hcount.symm.trans hpoll.1) (Nat.succ_ne_zero _)
      · next event queue' heq =>
        rw [heq] at hpoll
        obtain ⟨hless, hsound, hflight⟩ := hpoll
        rw [hflight, List.foldl_cons]
        exact ih (d.dispatchEvent k event) hsound (Nat.succ.inj (hless.trans hcount))

end Desktop

end Gui
end UefiBoot
