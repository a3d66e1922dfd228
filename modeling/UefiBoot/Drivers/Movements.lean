import UefiBoot.Drivers.Ps2

/-!
# `Drivers.Movements` — from the hand on the mouse to the packets of the driver

After the initialization the mouse sends a report for every movement, in packets of the size that its settings call
for, and the controller raises interrupt 12 when the first byte can be read. `MouseIrqHandler` takes that one byte.
Movements come in between, also in the middle of a packet.

What the mouse has sent is at any time what the handler has taken followed by what is still to be read (`Taken`). So
the packets decoded are the first of those sent, and all of them once nothing is left.
-/

namespace UefiBoot
namespace Drivers
namespace Ps2

open Gui (EventQueue)

variable {M : Make}

/-- The controller, and the driver behind it. -/
structure Live (M : Make) where
  controller : Controller M
  input      : Input

/-- What happens after the initialization. -/
inductive Action where
  /-- The mouse is moved, or one of its buttons or its wheel is. -/
  | move (report : Report)
  | elapse (time : Nat)
  /-- Interrupt 12, if the controller raises it. -/
  | interrupt

namespace Controller

variable (t : Timing) (c : Controller M)

/-- The mouse sends a report, if it has its clock and is to report at all. -/
def moved (report : Report) : Controller M :=
  match c.wired.mouse with
  | none   => c
  | some d =>
    if d.reporting ∧ c.wired.config &&& 0x20 = 0 then
      { c with
        wired := { c.wired with output := c.wired.output ++ report.bytes d.packetLength }
        readyAt := if c.wired.output = [] then c.now + t.output c.now else c.readyAt }
    else c

/-- Whether the controller raises interrupt 12. -/
def raises : Bool := c.wired.output ≠ [] ∧ c.readyAt ≤ c.now ∧ c.wired.config &&& 0x02 ≠ 0

end Controller

namespace Live

variable (t : Timing) (s : Live M)

/-- `MouseIrqHandler`, with the packet that the byte completes. -/
def mouseIrqHandler : Option Ps2MousePacket × Live M :=
  let (data, c) := s.controller.in8 t kPs2DataPort
  let (packet, input) := s.input.feedMouseByte data
  (packet, ⟨c, input⟩)

def step : Action → Option Ps2MousePacket × Live M
  | .move report => (none, { s with controller := s.controller.moved t report })
  | .elapse time => (none, { s with controller := { s.controller with now := s.controller.now + time } })
  | .interrupt   => if s.controller.raises then s.mouseIrqHandler t else (none, s)

/-- The packets that a run completes, in order, and the state after it. -/
def run (s : Live M) : List Action → List Ps2MousePacket × Live M
  | []                => ([], s)
  | action :: actions =>
    let (packet, s) := s.step t action
    let (packets, s) := s.run actions
    (packet.toList ++ packets, s)

end Live

/-- The movements among the actions. -/
def movements (actions : List Action) : List Report :=
  actions.filterMap fun | .move report => some report | _ => none

/-- After the initialization: interrupt 12 is on, and the mouse reports in packets of `size` bytes. -/
structure Reporting (size : Nat) (w : Wired M) : Prop where
  irq   : w.config &&& 0x02 ≠ 0
  clock : w.config &&& 0x20 = 0
  mouse : ∃ d, w.mouse = some d ∧ d.reporting = true ∧ d.packetLength = size

/-- Between two states, with `sent` added by the mouse and `packets` completed: what was to be read and what was sent
    is what the driver took, which are the bytes `taken`, and what is to be read. -/
structure Taken (s s' : Live M) (sent : List UInt8) (packets : List Ps2MousePacket) (taken : List UInt8) : Prop where
  bytes   : s.controller.wired.output ++ sent = taken ++ s'.controller.wired.output
  packets : packets = (s.input.feed taken).1
  input   : s'.input = (s.input.feed taken).2

variable {t : Timing} {s s' s'' : Live M} {size : Nat}

theorem Taken.trans {sent sent' taken taken' : List UInt8} {packets packets' : List Ps2MousePacket}
    (h : Taken s s' sent packets taken) (h' : Taken s' s'' sent' packets' taken') :
    Taken s s'' (sent ++ sent') (packets ++ packets') (taken ++ taken') := by
  obtain ⟨hpackets, hstate⟩ := Input.feed_append s.input taken taken'
  refine ⟨?_, ?_, ?_⟩
  · rw [← List.append_assoc, h.bytes, List.append_assoc, h'.bytes, List.append_assoc]
  · rw [hpackets, h.packets, h'.packets, h.input]
  · rw [hstate, h'.input, h.input]

/-- The handler takes the first byte that can be read. -/
theorem handler_taken {data : UInt8} {rest : List UInt8} (hout : s.controller.wired.output = data :: rest)
    (hready : s.controller.readyAt ≤ s.controller.now) :
    (s.mouseIrqHandler t).2.controller.wired = { s.controller.wired with output := rest } ∧
    Taken s (s.mouseIrqHandler t).2 [] (s.mouseIrqHandler t).1.toList [data] := by
  obtain ⟨⟨⟨config, expects, output, keyboard, mouse⟩, now, busyUntil, readyAt⟩, input⟩ := s
  dsimp only at hout hready
  subst hout
  have htake : (⟨⟨config, expects, data :: rest, keyboard, mouse⟩, now, busyUntil, readyAt⟩ : Controller M).in8 t
      kPs2DataPort = (data, ⟨⟨config, expects, rest, keyboard, mouse⟩, now + 1, busyUntil, now + 1 + t.output now⟩) := by
    unfold Controller.in8
    rw [if_neg (by decide), if_pos rfl]
    exact if_pos hready
  unfold Live.mouseIrqHandler
  rw [htake]
  exact ⟨rfl, List.append_nil _, (List.append_nil _).symm, rfl⟩

/-- A step of the run: every byte has its place. -/
theorem step_taken (h : Reporting size s.controller.wired) (action : Action) :
    Reporting size (s.step t action).2.controller.wired ∧
    ∃ taken, Taken s (s.step t action).2 ((movements [action]).flatMap (Report.bytes size))
      (s.step t action).1.toList taken := by
  have hkept := fun output : List UInt8 => (⟨h.irq, h.clock, h.mouse⟩ :
    Reporting size { s.controller.wired with output := output })
  cases action with
  | move report =>
      obtain ⟨d, hd, hreporting, hsize⟩ := h.mouse
      have hmoved : (s.controller.moved t report).wired =
          { s.controller.wired with output := s.controller.wired.output ++ report.bytes size } := by
        unfold Controller.moved
        rw [hd, ← hsize]
        exact congrArg Controller.wired (if_pos ⟨hreporting, h.clock⟩)
      refine ⟨?_, [], ?_, rfl, rfl⟩
      · show Reporting size (s.controller.moved t report).wired
        rw [hmoved]
        exact hkept _
      · show s.controller.wired.output ++ (report.bytes size ++ []) = (s.controller.moved t report).wired.output
        rw [hmoved, List.append_nil]
  | elapse time => exact ⟨h, [], List.append_nil _, rfl, rfl⟩
  | interrupt =>
      unfold Live.step
      by_cases hraises : s.controller.raises = true
      · rw [if_pos hraises]
        obtain ⟨hne, hready, -⟩ := of_decide_eq_true hraises
        obtain ⟨data, rest, hout⟩ := List.exists_cons_of_ne_nil hne
        obtain ⟨hwired, htaken⟩ := handler_taken (t := t) hout hready
        rw [hwired]
        exact ⟨hkept rest, [data], htaken⟩
      · rw [if_neg hraises]
        exact ⟨h, [], List.append_nil _, rfl, rfl⟩

theorem movements_cons (action : Action) (actions : List Action) :
    movements (action :: actions) = movements [action] ++ movements actions := by
  cases action <;> rfl

theorem run_taken (h : Reporting size s.controller.wired) (actions : List Action) :
    Reporting size (s.run t actions).2.controller.wired ∧
    ∃ taken, Taken s (s.run t actions).2 ((movements actions).flatMap (Report.bytes size)) (s.run t actions).1 taken := by
  induction actions generalizing s with
  | nil => exact ⟨h, [], List.append_nil _, rfl, rfl⟩
  | cons action actions ih =>
      obtain ⟨hreporting, first, hfirst⟩ := step_taken (t := t) h action
      obtain ⟨hlast, rest, hrest⟩ := ih hreporting
      refine ⟨hlast, first ++ rest, ?_⟩
      rw [movements_cons, List.flatMap_append]
      exact hfirst.trans hrest

/-- Reports fed one after the other come out as their packets. -/
theorem feed_reports (input : Input) (hidle : input.mouse.packetIndex = 0) (hsized : input.mouse.packetSize = size)
    (hsize : size = 3 ∨ size = 4) (reports : List Report) :
    (input.feed (reports.flatMap (Report.bytes size))).1 = reports.map (Report.packet size) := by
  induction reports generalizing input with
  | nil => rfl
  | cons report reports ih =>
      obtain ⟨hpacket, hidle', hsized'⟩ := Input.feed_report report hidle hsized hsize
      rw [List.flatMap_cons, (Input.feed_append _ _ _).1, hpacket, ih _ hidle' hsized']
      rfl

/-- When the mouse rests, what is to be read can be read. -/
theorem drains (t : Timing) (h : Reporting size s.controller.wired) :
    ∃ rest, movements rest = [] ∧ (s.run t rest).2.controller.wired.output = [] := by
  generalize hlength : s.controller.wired.output = output
  induction output generalizing s with
  | nil => exact ⟨[], rfl, hlength⟩
  | cons data output ih =>
      -- let the byte come, and take it
      let waited : Live M := { s with controller := { s.controller with now := s.controller.now + s.controller.readyAt } }
      have hready : waited.controller.readyAt ≤ waited.controller.now := Nat.le_add_left _ _
      have hraises : waited.controller.raises = true := decide_eq_true ⟨by rw [hlength]; simp, hready, h.irq⟩
      obtain ⟨hwired, -⟩ := handler_taken (t := t) (s := waited) hlength hready
      have hreporting : Reporting size (waited.mouseIrqHandler t).2.controller.wired := by
        rw [hwired]
        exact ⟨h.irq, h.clock, h.mouse⟩
      obtain ⟨rest, hstill, hempty⟩ := ih hreporting (by rw [hwired])
      refine ⟨.elapse s.controller.readyAt :: .interrupt :: rest, hstill, ?_⟩
      show ((waited.step t .interrupt).2.run t rest).2.controller.wired.output = []
      have hstep : waited.step t .interrupt = waited.mouseIrqHandler t := if_pos hraises
      rw [hstep]
      exact hempty

theorem run_append (t : Timing) (s : Live M) (actions rest : List Action) :
    (s.run t (actions ++ rest)).1 = (s.run t actions).1 ++ ((s.run t actions).2.run t rest).1 ∧
    (s.run t (actions ++ rest)).2 = ((s.run t actions).2.run t rest).2 := by
  induction actions generalizing s with
  | nil => exact ⟨rfl, rfl⟩
  | cons action actions ih =>
      obtain ⟨hpackets, hstate⟩ := ih (s.step t action).2
      refine ⟨?_, hstate⟩
      show _ ++ ((s.step t action).2.run t (actions ++ rest)).1 = (_ ++ _) ++ _
      rw [hpackets, List.append_assoc]
      rfl

/-- **Every movement arrives as it was made.** From whatever the firmware leaves, with a mouse of any make: after the
    initialization, over any run of movements, time and interrupts,
    * the packets that the driver decodes are the first of those that the movements stand for, in order and each once;
    * they are all of them when nothing is left to read;
    * and the rest arrives whenever the mouse rests for long enough. -/
theorem movements_decoded (t : Timing) (c : Controller M) (h : Controller.Left c) (hmouse : c.wired.mouse.isSome)
    (m : Mouse) (hsize : m.packetSize = 3) (hidle : m.packetIndex = 0) (queue : EventQueue) (actions : List Action) :
    let start : Live M := ⟨(c.initPs2 t m).2.2.2, ⟨(c.initPs2 t m).2.2.1, queue⟩⟩
    let sent := (movements actions).map (Report.packet start.input.mouse.packetSize)
    (start.run t actions).1 <+: sent ∧
    ((start.run t actions).2.controller.wired.output = [] → (start.run t actions).1 = sent) ∧
    ∃ rest, movements rest = [] ∧ (start.run t (actions ++ rest)).1 = sent := by
  obtain ⟨d, hd⟩ := Option.isSome_iff_exists.mp hmouse
  obtain ⟨keyboard, s', c', heq, hwired⟩ := Controller.initPs2_present (t := t) h hd hsize
  rw [heq]
  intro start sent
  have hthreefour : start.input.mouse.packetSize = 3 ∨ start.input.mouse.packetSize = 4 := by
    show (if M.id s' = 3 ∨ M.id s' = 4 then 4 else 3) = 3 ∨ (if M.id s' = 3 ∨ M.id s' = 4 then 4 else 3) = 4
    split
    next => exact .inr rfl
    next => exact .inl rfl
  have hstart : Reporting start.input.mouse.packetSize start.controller.wired := by
    obtain ⟨hirq, hclock⟩ := (Controller.configured_all c.wired.config.toFin).2
    show Reporting _ c'.wired
    rw [hwired]
    exact ⟨hirq, hclock, _, rfl, rfl, rfl⟩
  -- what is decoded in a run is what the bytes taken decode to
  have hrun : ∀ actions : List Action, (start.run t actions).1 <+:
      (movements actions).map (Report.packet start.input.mouse.packetSize) ∧
      ((start.run t actions).2.controller.wired.output = [] → (start.run t actions).1 =
        (movements actions).map (Report.packet start.input.mouse.packetSize)) := by
    intro actions
    obtain ⟨-, taken, hbytes, hpackets, -⟩ := run_taken (t := t) hstart actions
    have hall := feed_reports start.input hidle rfl hthreefour (movements actions)
    have hstream : (movements actions).flatMap (Report.bytes start.input.mouse.packetSize) =
        taken ++ (start.run t actions).2.controller.wired.output := by
      rw [← hbytes]
      show _ = c'.wired.output ++ _
      rw [hwired]
      rfl
    rw [hstream, (Input.feed_append _ _ _).1, ← hpackets] at hall
    refine ⟨⟨_, hall⟩, fun hnone => ?_⟩
    rw [hnone] at hall
    rw [← hall]
    exact (List.append_nil _).symm
  obtain ⟨hbegins, hdone⟩ := hrun actions
  refine ⟨hbegins, hdone, ?_⟩
  obtain ⟨rest, hstill, hout⟩ := drains t (run_taken (t := t) hstart actions).1
  have hsame : movements (actions ++ rest) = movements actions := by
    unfold movements at hstill ⊢
    rw [List.filterMap_append, hstill, List.append_nil]
  refine ⟨rest, hstill, ?_⟩
  have hfinal := (hrun (actions ++ rest)).2
  rw [(run_append t start actions rest).2, hsame] at hfinal
  exact hfinal hout

/-- Pressed in the middle of a packet. -/
def pressed : List Action :=
  [.move Input.pressReport, .elapse 10, .interrupt, .move Input.pressReport, .elapse 10, .interrupt]

theorem movements_decoded_pressed :
    let start : Live intelliMouse := ⟨(stopped.initPs2 steady {}).2.2.2, ⟨(stopped.initPs2 steady {}).2.2.1, {}⟩⟩
    let size := start.input.mouse.packetSize
    (start.run steady pressed).1 <+: [Input.pressReport.packet size, Input.pressReport.packet size] ∧
    ∃ rest, movements rest = [] ∧
      (start.run steady (pressed ++ rest)).1 = [Input.pressReport.packet size, Input.pressReport.packet size] := by
  obtain ⟨hbegins, -, hrest⟩ := movements_decoded steady stopped left_stopped rfl {} rfl rfl {} pressed
  exact ⟨hbegins, hrest⟩

end Ps2
end Drivers
end UefiBoot
