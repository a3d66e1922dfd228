import UefiBoot.Drivers.Mouse
import UefiBoot.Gui.Pump

/-!
# `Drivers.Pointing` — what the mouse driver tells the desktop

A packet makes up to three events, all at the place where the pointer is after it: a move, the wheel if it turned,
and the left button if it changed. `handlePacket_effect` says that these are what the driver posts, in this order,
and that its own pointer and button are then as the packet says, whether or not the queue took the events.
-/

namespace UefiBoot

namespace Drivers

open Gui (GuiEvent GuiEventType EventQueue)

namespace Mouse

/-- The part of the driver's state that is about the pointer. -/
structure SamePointer (m m' : Mouse) : Prop where
  x        : m'.x = m.x
  y        : m'.y = m.y
  leftDown : m'.leftDown = m.leftDown

theorem SamePointer.trans {m m' m'' : Mouse} (h : SamePointer m m') (h' : SamePointer m' m'') : SamePointer m m'' :=
  ⟨h'.x.trans h.x, h'.y.trans h.y, h'.leftDown.trans h.leftDown⟩

/-- Gathering bytes does not move the pointer. -/
theorem samePointer_gather (m : Mouse) (data : UInt8) : SamePointer m (m.gather data).2 := by
  unfold gather
  dsimp only
  split_ifs <;> exact ⟨rfl, rfl, rfl⟩

end Mouse

namespace Input

variable {s : Input}

/-! ## A packet -/

theorem postCounted_effect (s : Input) (event : GuiEvent) :
    (s.postCounted event).2.queue = s.queue.post event ∧
    Mouse.SamePointer s.mouse (s.postCounted event).2.mouse := by
  refine ⟨rfl, ?_⟩
  unfold postCounted
  dsimp only
  split_ifs <;> exact ⟨rfl, rfl, rfl⟩

theorem postMouseEvent_effect (s : Input) (type : GuiEventType) :
    (s.postMouseEvent type 0).queue = s.queue.post (s.mouse.eventAt type 0) ∧
    Mouse.SamePointer s.mouse (s.postMouseEvent type 0).mouse := by
  obtain ⟨hqueue, hsame⟩ := postCounted_effect s (s.mouse.eventAt type 0)
  unfold postMouseEvent
  dsimp only
  split_ifs
  · exact ⟨hqueue, hsame.trans ⟨rfl, rfl, rfl⟩⟩
  · exact ⟨hqueue, hsame⟩

theorem movePointer_effect (s : Input) (packet : Ps2MousePacket) :
    (s.movePointer packet).queue = s.queue.post ((s.mouse.moved packet).eventAt .mouseMove 0) ∧
    Mouse.SamePointer (s.mouse.moved packet) (s.movePointer packet).mouse := by
  unfold movePointer
  obtain ⟨hqueue, hsame⟩ := postMouseEvent_effect
    { s with mouse := ({ s.mouse with
        packetCount := s.mouse.packetCount + 1
        x := s.mouse.x + packet.dx.toInt32
        y := s.mouse.y + packet.dy.toInt32 } : Mouse).clampMouse } .mouseMove
  exact ⟨hqueue, hsame.x, hsame.y, hsame.leftDown⟩

theorem reportWheel_effect (s : Input) (packet : Ps2MousePacket) :
    (s.reportWheel packet).2.queue = s.mouse.wheelEvents.foldl EventQueue.post s.queue ∧
    Mouse.SamePointer s.mouse (s.reportWheel packet).2.mouse ∧
    (s.reportWheel packet).1.leftButton = packet.leftButton ∧ (s.reportWheel packet).1.dx = packet.dx ∧
    (s.reportWheel packet).1.dy = packet.dy := by
  unfold reportWheel Mouse.wheelEvents
  by_cases hsize : s.mouse.packetSize = 4
  · rw [if_pos hsize]
    by_cases hwheel : wheelOf (s.mouse.packetBytes 3) = 0
    · rw [if_neg (fun h => h.2 hwheel)]
      dsimp only
      rw [if_neg (by simp [hwheel])]
      exact ⟨rfl, ⟨rfl, rfl, rfl⟩, rfl, rfl, rfl⟩
    · rw [if_pos ⟨hsize, hwheel⟩]
      dsimp only
      rw [if_pos (by simp [hwheel])]
      obtain ⟨hqueue, hsame⟩ := postCounted_effect s
        (s.mouse.eventAt .mouseWheel (wheelOf (s.mouse.packetBytes 3)).toInt32.toUInt32)
      exact ⟨hqueue, hsame, rfl, rfl, rfl⟩
  · rw [if_neg hsize, if_neg (fun h => hsize h.1)]
    exact ⟨rfl, ⟨rfl, rfl, rfl⟩, rfl, rfl, rfl⟩

theorem reportButton_effect (s : Input) (packet : Ps2MousePacket) :
    (s.reportButton packet).queue = (s.mouse.buttonEvents packet).foldl EventQueue.post s.queue ∧
    Mouse.SamePointer { s.mouse with leftDown := packet.leftButton } (s.reportButton packet).mouse := by
  unfold reportButton Mouse.buttonEvents
  by_cases hsame : packet.leftButton = s.mouse.leftDown
  · rw [if_pos hsame, if_neg (by simp [hsame])]
    exact ⟨rfl, rfl, rfl, hsame.symm⟩
  · rw [if_neg hsame, if_pos (by simp [hsame])]
    exact postMouseEvent_effect { s with mouse := { s.mouse with leftDown := packet.leftButton } } _

/-- What a state has become of another by a packet. -/
structure Acted (s : Input) (packet : Ps2MousePacket) (m : Mouse) (s' : Input) : Prop where
  pointer  : Mouse.SamePointer s.mouse m
  queue    : s'.queue = (m.events packet).foldl EventQueue.post s.queue
  x        : s'.mouse.x = (m.moved packet).x
  y        : s'.mouse.y = (m.moved packet).y
  leftDown : s'.mouse.leftDown = packet.leftButton

/-- **A packet** posts its events in order, and the driver keeps the pointer and the button that it says. -/
theorem handlePacket_effect (s : Input) (packet : Ps2MousePacket) :
    Acted s packet s.mouse (s.handlePacket packet).2 ∧ (s.handlePacket packet).1.leftButton = packet.leftButton ∧
    (s.handlePacket packet).1.dx = packet.dx ∧ (s.handlePacket packet).1.dy = packet.dy := by
  obtain ⟨hmoved, hpointer⟩ := movePointer_effect s packet
  have hstream := sameStream_movePointer s packet
  obtain ⟨hwheel, hwheelPointer, hleft, hdx, hdy⟩ := reportWheel_effect (s.movePointer packet) packet
  obtain ⟨hbutton, hbuttonPointer⟩ :=
    reportButton_effect ((s.movePointer packet).reportWheel packet).2 ((s.movePointer packet).reportWheel packet).1
  have hsame := hpointer.trans hwheelPointer
  -- the wheel and the button are reported where the pointer has moved to
  have hwheelEvents : (s.movePointer packet).mouse.wheelEvents = (s.mouse.moved packet).wheelEvents := by
    unfold Mouse.wheelEvents Mouse.eventAt
    rw [hstream.1, hstream.2.2, hpointer.x, hpointer.y]
    rfl
  have hbuttonEvents : ((s.movePointer packet).reportWheel packet).2.mouse.buttonEvents
      ((s.movePointer packet).reportWheel packet).1 = (s.mouse.moved packet).buttonEvents packet := by
    unfold Mouse.buttonEvents Mouse.eventAt
    rw [hleft, hsame.x, hsame.y, hsame.leftDown]
  unfold handlePacket
  refine ⟨⟨⟨rfl, rfl, rfl⟩, ?_, hbuttonPointer.x.trans hsame.x, hbuttonPointer.y.trans hsame.y,
    hbuttonPointer.leftDown.trans hleft⟩, hleft, hdx, hdy⟩
  rw [hbuttonEvents, hwheel, hwheelEvents, hmoved, ← List.foldl_append] at hbutton
  exact hbutton

/-! ## Bytes -/

/-- Nothing has come of the bytes yet. -/
structure Quiet (s s' : Input) : Prop where
  pointer : Mouse.SamePointer s.mouse s'.mouse
  queue   : s'.queue = s.queue

theorem Acted.of_fields {packet packet' : Ps2MousePacket} {m : Mouse} {s' : Input} (h : Acted s packet m s')
    (hleft : packet'.leftButton = packet.leftButton) (hdx : packet'.dx = packet.dx) (hdy : packet'.dy = packet.dy) :
    Acted s packet' m s' := by
  obtain ⟨hpointer, hqueue, hx, hy, hdown⟩ := h
  unfold Mouse.events Mouse.buttonEvents Mouse.moved at hqueue
  unfold Mouse.moved at hx hy
  rw [← hdx, ← hdy] at hqueue hx hy
  rw [← hleft] at hqueue hdown
  exact ⟨hpointer, hqueue, hx, hy, hdown⟩

/-- A byte either makes a packet, which is acted on, or is only kept. -/
theorem feedMouseByte_effect (s : Input) (data : UInt8) :
    ((s.feedMouseByte data).1 = none → Quiet s (s.feedMouseByte data).2) ∧
    ∀ packet, (s.feedMouseByte data).1 = some packet → ∃ m, Acted s packet m (s.feedMouseByte data).2 := by
  have hpointer := s.mouse.samePointer_gather data
  unfold feedMouseByte
  generalize s.mouse.gather data = gathered at hpointer
  obtain ⟨gathered, mouse⟩ := gathered
  cases gathered with
  | packet packet =>
      obtain ⟨hacted, hleft, hdx, hdy⟩ := handlePacket_effect { s with mouse := mouse } packet
      have hfields := hacted.of_fields hleft hdx hdy
      refine ⟨fun h => absurd h (Option.some_ne_none _), fun packet' h => ?_⟩
      obtain rfl := Option.some.inj h
      exact ⟨mouse, hpointer, hfields.queue, hfields.x, hfields.y, hfields.leftDown⟩
  | skipped => exact ⟨fun _ => ⟨hpointer, rfl⟩, fun _ h => nomatch h⟩
  | stored => exact ⟨fun _ => ⟨hpointer, rfl⟩, fun _ h => nomatch h⟩
  | resync => exact ⟨fun _ => ⟨hpointer, rfl⟩, fun _ h => nomatch h⟩

/-- Bytes that complete no packet. -/
theorem feed_quiet {bytes : List UInt8} (h : (s.feed bytes).1 = []) : Quiet s (s.feed bytes).2 := by
  induction bytes generalizing s with
  | nil => exact ⟨⟨rfl, rfl, rfl⟩, rfl⟩
  | cons data bytes ih =>
      obtain ⟨hnone, hrest⟩ := List.append_eq_nil_iff.mp h
      have hfirst := (feedMouseByte_effect s data).1 (Option.toList_eq_nil_iff.mp hnone)
      have hquiet := ih hrest
      exact ⟨hfirst.pointer.trans hquiet.pointer, hquiet.queue.trans hfirst.queue⟩

/-- **Bytes that complete one packet** have the effect of that packet. -/
theorem feed_acted {bytes : List UInt8} {packet : Ps2MousePacket} (h : (s.feed bytes).1 = [packet]) :
    ∃ m, Acted s packet m (s.feed bytes).2 := by
  induction bytes generalizing s with
  | nil => exact absurd h (by simp [feed])
  | cons data bytes ih =>
      obtain ⟨hkept, hmade⟩ := feedMouseByte_effect s data
      have hsplit : (s.feedMouseByte data).1.toList ++ ((s.feedMouseByte data).2.feed bytes).1 = [packet] := h
      show ∃ m, Acted s packet m ((s.feedMouseByte data).2.feed bytes).2
      cases hbyte : (s.feedMouseByte data).1 with
      | none =>
          rw [hbyte] at hsplit
          have hquiet := hkept hbyte
          obtain ⟨m, hpointer, hqueue, hx, hy, hdown⟩ := ih hsplit
          exact ⟨m, hquiet.pointer.trans hpointer, hquiet.queue ▸ hqueue, hx, hy, hdown⟩
      | some made =>
          rw [hbyte] at hsplit
          obtain ⟨rfl, hrest⟩ := List.cons.inj hsplit
          -- what follows the packet only begins the next one
          have hquiet := feed_quiet hrest
          obtain ⟨m, hpointer, hqueue, hx, hy, hdown⟩ := hmade made hbyte
          exact ⟨m, hpointer, hquiet.queue.trans hqueue, hquiet.pointer.x.trans hx, hquiet.pointer.y.trans hy,
            hquiet.pointer.leftDown.trans hdown⟩

end Input
end Drivers
end UefiBoot
