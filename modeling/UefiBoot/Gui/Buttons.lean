import UefiBoot.Drivers.Pointing

/-!
# `Gui.Buttons` — the left button on both sides of the event queue

The driver and the desktop each keep whether the left button is down. The driver changes its copy and then posts the
change, and it does not look at whether the queue took the event, so a change that comes when the queue is full is
never told to the desktop. `Fits` says when there is room. The invariant is that the events under way turn the
desktop's copy into the driver's (`Inv.button`).

A handler reads and writes nothing of the desktop, so an event is dispatched in one step, with the statement that ends
its poll.
-/

namespace UefiBoot
namespace Gui

open Drivers (Mouse Input Gathering wheelOf Ps2MousePacket)

/-- What several events make of the left button. -/
def pressAll (events : List GuiEvent) (down : Bool) : Bool := events.foldl (fun down event => event.press down) down

theorem pressAll_append (events rest : List GuiEvent) (down : Bool) :
    pressAll (events ++ rest) down = pressAll rest (pressAll events down) := List.foldl_append

/-- The mouse driver, the queue and the poll of the desktop that is in progress, and the desktop. -/
structure Pointing (K : Type) where
  mouse   : Mouse
  queue   : EventQueue
  poll    : PollAt := .test
  desktop : Desktop K

namespace Pointing

variable {K : Type} {k : AppKernel K} {s : Pointing K}

inductive Action where
  /-- A statement of `KernelGuiPumpEvents`. -/
  | statement
  /-- Interrupt 12, with the byte that the mouse sends. -/
  | feedMouseByte (data : UInt8)
  | postGamepadReport (x y : Int32) (buttons : UInt32)

def polling (s : Pointing K) : Polling := { queue := s.queue, poll := s.poll }

def statement (k : AppKernel K) (s : Pointing K) : Pointing K :=
  { s with
    queue := s.polling.statement.queue
    poll := s.polling.statement.poll
    desktop := s.polling.handed.foldl (Desktop.dispatchEvent k) s.desktop }

def feed (s : Pointing K) (data : UInt8) : Pointing K :=
  let input := (({ mouse := s.mouse, queue := s.queue } : Input).feedMouseByte data).2
  { s with mouse := input.mouse, queue := input.queue }

def gamepadEvent (x y : Int32) (buttons : UInt32) : GuiEvent :=
  { type := .gamepad, x := x, y := y, button := buttons, key := 0 }

def step (k : AppKernel K) (s : Pointing K) : Action → Pointing K
  | .statement                     => s.statement k
  | .feedMouseByte data            => s.feed data
  | .postGamepadReport x y buttons => { s with queue := s.queue.post (gamepadEvent x y buttons) }

/-- When interrupts are enabled: the desktop has started, the queue is empty and no packet has begun. -/
def start (k : AppKernel K) (framebuffer : FramebufferInfo) (kernel : K) (queue : EventQueue) (hasWheel : Bool) :
    Pointing K :=
  { mouse := { packetSize := if hasWheel then 4 else 3 }
    queue := queue.init
    desktop := Desktop.start k framebuffer kernel }

/-- When the pump has found nothing left, both sides have the same button. -/
def Agree (s : Pointing K) : Prop := s.polling.Drained → s.desktop.wm.leftButtonDown = s.mouse.leftDown

/-- How many events a packet makes that changes the button and ends with this byte. -/
def changeEvents (m : Mouse) (data : UInt8) : Nat := if m.packetSize = 4 ∧ wheelOf data ≠ 0 then 3 else 2

/-- There is room for the change. -/
def Fits (s : Pointing K) : Action → Prop
  | .feedMouseByte data =>
    s.mouse.packetIndex + 1 = s.mouse.packetSize → s.mouse.packetLeft ≠ s.mouse.leftDown →
      s.queue.eventCount + changeEvents s.mouse data ≤ kEventQueueCapacity
  | _ => True

instance (s : Pointing K) : ∀ a, Decidable (Fits s a)
  | .feedMouseByte _         => inferInstanceAs (Decidable (_ → _ → _ ≤ _))
  | .statement               => isTrue trivial
  | .postGamepadReport _ _ _ => isTrue trivial

/-! ## A packet -/

/-- What a complete packet says of the button, and the events it makes. -/
theorem gather_complete {m : Mouse} {size : Nat} (hg : Gathering size m) (hsize : 2 ≤ size) (data : UInt8)
    (hlast : m.packetIndex + 1 = m.packetSize) :
    ∃ packet mouse, m.gather data = (.packet packet, mouse) ∧ packet.leftButton = m.packetLeft ∧
      mouse.leftDown = m.leftDown ∧ mouse.packetSize = m.packetSize ∧
      (m.packetSize = 4 → mouse.packetBytes 3 = data) := by
  have hidle : m.packetIndex ≠ 0 := by
    have := hg.sized
    omega
  -- the last byte is not the header
  have hzero : (m.withByte data).packetBytes 0 = m.packetBytes 0 := if_neg (fun h => hidle h.symm)
  have hheader := hg.header hidle
  have hgather := Mouse.gather_packet (fun h => absurd h hidle) (by omega) (hzero.symm ▸ hheader)
  refine ⟨_, _, hgather, ?_, rfl, rfl, fun hfour => ?_⟩
  · unfold Drivers.decodePs2MousePacket Mouse.packetLeft
    rw [hzero, hheader]
    rfl
  · exact if_pos (by show (3 : Nat) = m.packetIndex; omega)

theorem gather_incomplete {m : Mouse} {size : Nat} (hg : Gathering size m) (data : UInt8)
    (hmore : m.packetIndex + 1 ≠ m.packetSize) (packet : Ps2MousePacket) (mouse : Mouse) :
    m.gather data ≠ (.packet packet, mouse) := by
  intro hpacket
  have hlt : m.packetIndex + 1 < m.packetSize := by
    have := hg.index
    have := hg.sized
    omega
  by_cases hskip : m.packetIndex = 0 ∧ Drivers.isPs2MousePacketHeader data = false
  · rw [Mouse.gather_skipped hskip.1 hskip.2] at hpacket
    cases hpacket
  · rw [Mouse.gather_stored (fun hidle => by by_contra hno; exact hskip ⟨hidle, by simpa using hno⟩) hlt] at hpacket
    cases hpacket

/-- The events of a packet, as far as they press the button: they come to what the packet says, and the last of them
    does it. -/
theorem events_press (m : Mouse) (packet : Ps2MousePacket) :
    (packet.leftButton = m.leftDown → ∀ n down, pressAll ((m.events packet).take n) down = down) ∧
    (packet.leftButton ≠ m.leftDown → ∃ before last, m.events packet = before ++ [last] ∧
      (∀ n down, pressAll (before.take n) down = down) ∧ ∀ down, last.press down = packet.leftButton) := by
  have hquiet : ∀ n down, pressAll (((m.moved packet).eventAt .mouseMove 0 :: (m.moved packet).wheelEvents).take n) down =
      down := by
    intro n down
    unfold Mouse.wheelEvents
    split_ifs <;> rcases n with _ | _ | n <;> simp [pressAll, GuiEvent.press, Mouse.eventAt]
  have hleft : (m.moved packet).leftDown = m.leftDown := rfl
  unfold Mouse.events Mouse.buttonEvents
  rw [hleft]
  constructor
  · intro hsame
    rw [if_pos hsame, List.append_nil]
    exact hquiet
  · intro hchange
    rw [if_neg hchange]
    refine ⟨_, _, (List.cons_append ..).symm, hquiet, fun down => ?_⟩
    cases packet.leftButton <;> rfl

theorem length_events {m : Mouse} {packet : Ps2MousePacket} (hchange : packet.leftButton ≠ m.leftDown) :
    (m.events packet).length = if m.packetSize = 4 ∧ wheelOf (m.packetBytes 3) ≠ 0 then 3 else 2 := by
  have hmoved : (m.moved packet).packetSize = m.packetSize ∧ (m.moved packet).packetBytes = m.packetBytes ∧
      (m.moved packet).leftDown = m.leftDown := ⟨rfl, rfl, rfl⟩
  unfold Mouse.events Mouse.wheelEvents Mouse.buttonEvents
  rw [hmoved.1, hmoved.2.1, hmoved.2.2, if_neg hchange]
  split_ifs <;> rfl

/-! ## The invariant -/

structure Inv (size : Nat) (s : Pointing K) : Prop where
  sound  : s.polling.Sound
  stream : Gathering size s.mouse
  button : pressAll s.polling.inFlight s.desktop.wm.leftButtonDown = s.mouse.leftDown

theorem pressAll_dispatch (k : AppKernel K) (d : Desktop K) (events : List GuiEvent) :
    (events.foldl (Desktop.dispatchEvent k) d).wm.leftButtonDown = pressAll events d.wm.leftButtonDown := by
  induction events generalizing d with
  | nil => rfl
  | cons event events ih =>
      rw [List.foldl_cons, ih, (Desktop.dispatchEvent_pointer k d event).leftButtonDown]
      rfl

/-- A statement of the pump presses the button as the event says that it hands over. -/
theorem Inv.statement {size : Nat} (h : s.Inv size) (k : AppKernel K) : (s.statement k).Inv size := by
  have hpolling : (s.statement k).polling = s.polling.statement.bare := rfl
  refine ⟨hpolling ▸ h.sound.statement.bare, h.stream, ?_⟩
  show pressAll (s.statement k).polling.inFlight (s.polling.handed.foldl (Desktop.dispatchEvent k) s.desktop).wm.leftButtonDown = _
  rw [pressAll_dispatch, hpolling, Polling.inFlight_bare, ← pressAll_append, ← h.sound.inFlight_statement]
  exact h.button

/-- What posting events leaves of the invariant. -/
theorem Inv.posts {size : Nat} (h : s.Inv size) (s' : Pointing K) (events : List GuiEvent)
    (hqueue : s'.queue = events.foldl EventQueue.post s.queue) (hpoll : s'.poll = s.poll) :
    s'.polling.Sound ∧
    s'.polling.inFlight = s.polling.inFlight ++ events.take (kEventQueueCapacity - s.queue.eventCount) := by
  have hpolling : s'.polling = (events.foldl Polling.post s.polling).bare := by
    obtain ⟨hkept, hkeptPoll⟩ := Polling.posts_kept s.polling events
    show ({ queue := s'.queue, poll := s'.poll } : Polling) =
      { queue := (events.foldl Polling.post s.polling).queue, poll := (events.foldl Polling.post s.polling).poll }
    rw [hkept, hkeptPoll, hqueue, hpoll]
    rfl
  rw [hpolling, Polling.inFlight_bare]
  exact ⟨(h.sound.posts events).bare, h.sound.inFlight_posts events⟩

/-- A gamepad presses no button of the mouse. -/
theorem Inv.gamepad {size : Nat} (h : s.Inv size) (x y : Int32) (buttons : UInt32) :
    Inv size { s with queue := s.queue.post (gamepadEvent x y buttons) } := by
  obtain ⟨hsound, hflight⟩ := h.posts { s with queue := s.queue.post (gamepadEvent x y buttons) }
    [gamepadEvent x y buttons] rfl rfl
  refine ⟨hsound, h.stream, ?_⟩
  have hquiet : ∀ n down, pressAll ([gamepadEvent x y buttons].take n) down = down := by
    intro n down
    cases n <;> simp [pressAll, gamepadEvent, GuiEvent.press]
  rw [hflight, pressAll_append, hquiet]
  exact h.button

/-- A byte that completes no packet. -/
theorem feed_incomplete {size : Nat} (hg : Gathering size s.mouse) (data : UInt8)
    (hmore : s.mouse.packetIndex + 1 ≠ s.mouse.packetSize) :
    (s.feed data).queue = s.queue ∧ (s.feed data).mouse.leftDown = s.mouse.leftDown := by
  have hgather := gather_incomplete hg data hmore
  have hpointer := s.mouse.samePointer_gather data
  unfold feed Input.feedMouseByte
  dsimp only
  generalize s.mouse.gather data = gathered at hgather hpointer
  obtain ⟨gathered, mouse⟩ := gathered
  cases gathered with
  | packet packet => exact absurd rfl (hgather packet mouse)
  | _ => exact ⟨rfl, hpointer.leftDown⟩

/-- The last byte of a packet. -/
theorem feed_complete {size : Nat} (hg : Gathering size s.mouse) (hsize : 2 ≤ size) (data : UInt8)
    (hlast : s.mouse.packetIndex + 1 = s.mouse.packetSize) :
    ∃ (m : Mouse) (packet : Ps2MousePacket), packet.leftButton = s.mouse.packetLeft ∧ m.leftDown = s.mouse.leftDown ∧
      (packet.leftButton ≠ m.leftDown → (m.events packet).length = changeEvents s.mouse data) ∧
      (s.feed data).queue = (m.events packet).foldl EventQueue.post s.queue ∧
      (s.feed data).mouse.leftDown = packet.leftButton := by
  obtain ⟨packet, mouse, hgather, hleft, hdown, hsized, hfourth⟩ := gather_complete hg hsize data hlast
  refine ⟨mouse, packet, hleft, hdown, fun hchange => ?_, ?_⟩
  · rw [length_events hchange, hsized]
    unfold changeEvents
    by_cases hfour : s.mouse.packetSize = 4
    · rw [hfourth hfour]
    · rw [if_neg (fun h => hfour h.1), if_neg (fun h => hfour h.1)]
  · obtain ⟨hacted, -⟩ := Input.handlePacket_effect { mouse := mouse, queue := s.queue } packet
    unfold feed Input.feedMouseByte
    dsimp only
    rw [hgather]
    exact ⟨hacted.queue, hacted.leftDown⟩

/-- **A byte keeps the invariant** if there is room for the change that it completes, -/
theorem Inv.feed {size : Nat} (h : s.Inv size) (hsize : 2 ≤ size) {data : UInt8} (hfits : s.Fits (.feedMouseByte data)) :
    (s.feed data).Inv size := by
  have hstream : Gathering size (s.feed data).mouse := Input.gathering_feedMouseByte h.stream data
  by_cases hlast : s.mouse.packetIndex + 1 = s.mouse.packetSize
  · obtain ⟨m, packet, hleft, hdown, hlength, hqueue, hafter⟩ := feed_complete h.stream hsize data hlast
    obtain ⟨hsound, hflight⟩ := h.posts (s.feed data) _ hqueue rfl
    refine ⟨hsound, hstream, ?_⟩
    obtain ⟨hsame, hchanged⟩ := events_press m packet
    show pressAll (s.feed data).polling.inFlight s.desktop.wm.leftButtonDown = _
    rw [hflight, pressAll_append, h.button, hafter]
    by_cases hchange : packet.leftButton = m.leftDown
    · rw [hsame hchange, hchange, hdown]
    · obtain ⟨before, last, hevents, hbefore, hpress⟩ := hchanged hchange
      have hroom := hfits hlast (hleft ▸ hdown ▸ hchange)
      rw [List.take_of_length_le (by rw [hlength hchange]; omega), hevents, pressAll_append]
      exact hpress _
  · obtain ⟨hqueue, hdown⟩ := feed_incomplete h.stream data hlast
    obtain ⟨hsound, hflight⟩ := h.posts (s.feed data) [] hqueue rfl
    refine ⟨hsound, hstream, ?_⟩
    show pressAll (s.feed data).polling.inFlight s.desktop.wm.leftButtonDown = _
    rw [hflight, List.take_nil, List.append_nil, hdown]
    exact h.button

/-- and loses the change if there is not. -/
theorem Inv.feed_lost {size : Nat} (h : s.Inv size) (hsize : 2 ≤ size) {data : UInt8}
    (hfull : ¬ s.Fits (.feedMouseByte data)) :
    (s.feed data).polling.Sound ∧
    pressAll (s.feed data).polling.inFlight s.desktop.wm.leftButtonDown ≠ (s.feed data).mouse.leftDown := by
  unfold Fits at hfull
  push Not at hfull
  obtain ⟨hlast, hchange, hover⟩ := hfull
  obtain ⟨m, packet, hleft, hdown, hlength, hqueue, hafter⟩ := feed_complete h.stream hsize data hlast
  obtain ⟨hsound, hflight⟩ := h.posts (s.feed data) _ hqueue rfl
  have hchanged : packet.leftButton ≠ m.leftDown := by rwa [hleft, hdown]
  obtain ⟨before, last, hevents, hbefore, -⟩ := (events_press m packet).2 hchanged
  have hcount := hlength hchanged
  refine ⟨hsound, ?_⟩
  -- the queue has room for some of the events before the last one at most
  rw [hevents, List.length_append, List.length_singleton] at hcount
  rw [hflight, pressAll_append, h.button, hevents, List.take_append_of_le_length (by omega), hbefore, hafter, hleft]
  exact fun heq => hchange heq.symm

theorem Inv.step {size : Nat} (h : s.Inv size) (hsize : 2 ≤ size) (a : Action) (hfits : s.Fits a) :
    (step k s a).Inv size := by
  cases a with
  | statement => exact h.statement k
  | feedMouseByte data => exact h.feed hsize hfits
  | postGamepadReport x y buttons => exact h.gamepad x y buttons

theorem Inv.agree {size : Nat} (h : s.Inv size) : s.Agree := fun hd => by
  have hbutton := h.button
  rw [h.sound.inFlight_drained hd] at hbutton
  exact hbutton

/-! ## The pump goes on -/

/-- The desktop goes on alone until it has handled what is under way. -/
theorem pumped (k : AppKernel K) (h : s.polling.Sound) :
    let s' := Lib.run (step k) s (List.replicate s.polling.statementsLeft .statement)
    s'.polling.Drained ∧ s'.mouse = s.mouse ∧
      s'.desktop.wm.leftButtonDown = pressAll s.polling.inFlight s.desktop.wm.leftButtonDown := by
  generalize hn : s.polling.statementsLeft = n
  induction n generalizing s with
  | zero =>
      have hd : s.polling.Drained := h.drained_iff.mpr hn
      rw [h.inFlight_drained hd]
      exact ⟨hd, rfl, rfl⟩
  | succ n ih =>
      have hne : ¬ s.polling.Drained := fun hd => absurd (h.drained_iff.mp hd) (by omega)
      have hpolling : (s.statement k).polling = s.polling.statement.bare := rfl
      have hleft : (s.statement k).polling.statementsLeft = n := by
        have hless := h.statementsLeft_statement hne
        rw [hn] at hless
        exact Nat.succ.inj hless
      obtain ⟨hd, hmouse, hdown⟩ := ih (hpolling ▸ h.statement.bare) hleft
      refine ⟨hd, hmouse, hdown.trans ?_⟩
      rw [hpolling, Polling.inFlight_bare, h.inFlight_statement, pressAll_append]
      congr 1
      exact pressAll_dispatch k s.desktop _

theorem inv_start (k : AppKernel K) (framebuffer : FramebufferInfo) (kernel : K) (queue : EventQueue) (hasWheel : Bool) :
    Inv (if hasWheel then 4 else 3) (start k framebuffer kernel queue hasWheel) := by
  have hinv := Polling.inv_start queue
  have hwm := WindowManager.SamePointer.works (Desktop.initWindowManager_works k (Desktop.reset framebuffer kernel))
  refine ⟨⟨hinv.ready, hinv.indices⟩, ⟨rfl, ?_, fun h => absurd rfl h⟩, hwm.leftButtonDown⟩
  show 0 < if hasWheel then 4 else 3
  cases hasWheel <;> decide

/-- A change that is lost is missed when the pump comes to its end. -/
theorem Inv.disagree {size : Nat} (h : s.Inv size) (hsize : 2 ≤ size) {a : Action} (hfull : ¬ s.Fits a) :
    ¬ (Lib.run (Pointing.step k) (s.step k a)
      (List.replicate (s.step k a).polling.statementsLeft .statement)).Agree := by
  cases a with
  | statement => exact absurd trivial hfull
  | postGamepadReport x y buttons => exact absurd trivial hfull
  | feedMouseByte data =>
      obtain ⟨hsound, hlost⟩ := h.feed_lost hsize hfull
      obtain ⟨hd, hmouse, hdown⟩ := pumped k hsound
      intro hagree
      apply hlost
      rw [← hmouse]
      exact hdown.symm.trans (hagree hd)

theorem Inv.fits_iff {size : Nat} (h : s.Inv size) (hsize : 2 ≤ size) (actions : List Action) :
    Lib.Along (Pointing.step k) Fits s actions ↔ ∀ before after, actions = before ++ after → ∀ n,
      (Lib.run (Pointing.step k) s (before ++ List.replicate n .statement)).Agree := by
  constructor
  · rintro hfits before after rfl n
    rw [Lib.run_append]
    have hmid : Inv size (Lib.run (Pointing.step k) s before) :=
      Lib.run_invariant_along (fun _ a hinv hfit => hinv.step hsize a hfit) h (Lib.along_append_iff.mp hfits).1
    generalize Lib.run (Pointing.step k) s before = t at hmid
    -- statements need no room
    induction n generalizing t with
    | zero => exact hmid.agree
    | succ n ih => exact ih _ (hmid.statement k)
  · intro hagree
    induction actions generalizing s with
    | nil => trivial
    | cons a actions ih =>
        have hfit : s.Fits a := by
          by_contra hfull
          exact h.disagree hsize hfull (hagree [a] actions rfl _)
        refine ⟨hfit, ih (h.step hsize a hfit) fun before after hsplit n => ?_⟩
        exact hagree (a :: before) after (congrArg (a :: ·) hsplit) n

/-- **The buttons agree exactly as long as there is room for every change.** In a run in which every change of the left
    button finds room in the queue for the events of its packet, driver and desktop agree whenever the pump has found
    nothing left. And in a run in which one does not, they disagree after it, once the pump has come to its end. -/
theorem buttons_agree (k : AppKernel K) (framebuffer : FramebufferInfo) (kernel : K) (queue : EventQueue)
    (hasWheel : Bool) (actions : List Action) :
    let s := start k framebuffer kernel queue hasWheel
    (Lib.Along (step k) Fits s actions → Lib.Throughout (step k) Agree s actions) ∧
    (Lib.Along (step k) Fits s actions ↔ ∀ before after, actions = before ++ after → ∀ n,
      (Lib.run (step k) s (before ++ List.replicate n .statement)).Agree) := by
  intro s
  have hsize : 2 ≤ if hasWheel then 4 else 3 := by cases hasWheel <;> decide
  have hinv := inv_start k framebuffer kernel queue hasWheel
  refine ⟨fun hfits => Lib.Throughout.mono (fun _ h => h.agree) (Lib.throughout_of_along ?_ hinv hfits),
    hinv.fits_iff hsize actions⟩
  exact fun _ a h hfit => h.step hsize a hfit

/-- The mouse moves 63 times to the right and then, while it moves on, its button goes down; the last byte of that
    packet is still to come. -/
def movesAndPress : List Action :=
  ((List.replicate 63 ([0x08, 1, 0] : List UInt8)).flatten ++ [0x09, 1]).map .feedMouseByte

/-- **A press that is lost.** The desktop has not looked at the queue in the meantime. The press is refused, and when
    the pump has dispatched the 64 moves the button is down for the driver only. -/
theorem press_lost :
    ¬ (Lib.run (step countingKernel) (start countingKernel smallScreen 0 {} false)
      (movesAndPress ++ .feedMouseByte 0 :: List.replicate 384 .statement)).Agree := by
  have hfits : Lib.Along (step countingKernel) Fits (start countingKernel smallScreen 0 {} false) movesAndPress := by
    decide +kernel
  have hinv : Inv 3 (Lib.run (step countingKernel) (start countingKernel smallScreen 0 {} false) movesAndPress) :=
    Lib.run_invariant_along (fun _ a h hfit => h.step (by decide) a hfit)
      (inv_start countingKernel smallScreen 0 {} false) hfits
  have hfull : ¬ Fits (Lib.run (step countingKernel) (start countingKernel smallScreen 0 {} false) movesAndPress)
      (.feedMouseByte 0) := by
    decide +kernel
  have hleft : (step countingKernel (Lib.run (step countingKernel)
      (start countingKernel smallScreen 0 {} false) movesAndPress) (.feedMouseByte 0)).polling.statementsLeft = 384 := by
    decide +kernel
  have hlost := hinv.disagree (k := countingKernel) (by decide) hfull
  rw [hleft] at hlost
  rw [Lib.run_append, Lib.run_cons]
  exact hlost

end Pointing
end Gui
end UefiBoot
