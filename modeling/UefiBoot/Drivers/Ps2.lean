import UefiBoot.Drivers.Mouse
import Mathlib.Tactic

/-!
# `Drivers.Ps2` — the PS/2 controller, and how `drivers.cpp` brings up what is wired to it

The controller has one data port and one command port, and the processor learns from the status byte when a write is
taken and when there is something to read. A write before the last one is taken is lost, and a read before there is
anything reads nothing: `InitMouse` works only because it polls. How long anything takes is up to `Timing`, below the
100000 polls that the driver has patience for.

The mouse may be of any `Make`. Some switch to packets of four bytes after three sample rates in a certain order, and
say so by their id. The driver tries the rates, asks for the id and sets the size of a packet by it; that the mouse
then sends packets of that size is `initPs2_negotiates`, and with the decoder behind it every movement arrives as it
was made, whatever interrupts and movements alternate (`movements_decoded`).

Nobody moves the mouse or presses a key during the initialization: a byte of its own would be taken for an answer.
-/

namespace UefiBoot
namespace Drivers
namespace Ps2

/-- A make of mouse: what the commands do to its settings. A mouse that refuses a sample rate has no wheel to
    report. -/
structure Make where
  State    : Type
  defaults : State → State
  setRate  : State → UInt8 → Option State
  id       : State → UInt8
  plain    : ∀ s rate, setRate s rate = none → id s ≠ 3 ∧ id s ≠ 4

/-- A mouse of that make. -/
structure Device (M : Make) where
  settings    : M.State
  /-- The next byte is a sample rate. -/
  expectsRate : Bool
  reporting   : Bool

/-- What the controller does with the next byte on the data port. -/
inductive Expects where
  | keyboard | config | mouse
  deriving DecidableEq

/-- The controller and what is wired to it. Of the keyboard only whether it scans. -/
structure Wired (M : Make) where
  config   : UInt8
  expects  : Expects
  output   : List UInt8
  keyboard : Option Bool
  mouse    : Option (Device M)

/-- The controller with the time, counted in accesses to its ports: until when the last write is not taken, and from
    when the first byte of the output can be read. -/
structure Controller (M : Make) where
  wired     : Wired M
  now       : Nat
  busyUntil : Nat
  readyAt   : Nat

def kPs2DataPort : UInt16 := 0x60
def kPs2StatusPort : UInt16 := 0x64
def kPs2CommandPort : UInt16 := 0x64
def kPs2Ack : UInt8 := 0xFA

/-- A refusal. -/
def resend : UInt8 := 0xFE

/-- How often the driver polls. -/
def retries : Nat := 100000

/-- How long the controller takes over a write and over a byte of output, from any time on, and the bits of the
    status that the driver does not look at. -/
structure Timing where
  input     : Nat → Nat
  output    : Nat → Nat
  other     : Nat → UInt8
  input_lt  : ∀ n, input n < retries
  output_lt : ∀ n, output n < retries

variable {M : Make}

/-- A byte for the mouse: its answer and what becomes of it. -/
def Device.receive (d : Device M) (data : UInt8) : List UInt8 × Device M :=
  if d.expectsRate then
    match M.setRate d.settings data with
    | some settings => ([kPs2Ack], { d with settings := settings, expectsRate := false })
    | none          => ([resend], { d with expectsRate := false })
  else if data = 0xF2 then ([kPs2Ack, M.id d.settings], d)
  else if data = 0xF3 then ([kPs2Ack], { d with expectsRate := true })
  else if data = 0xF4 then ([kPs2Ack], { d with reporting := true })
  else if data = 0xF6 then ([kPs2Ack], { d with settings := M.defaults d.settings, reporting := false })
  else ([resend], d)

/-- The bytes of a packet: with a wheel there is a fourth. -/
def Device.packetLength (d : Device M) : Nat := if M.id d.settings = 3 ∨ M.id d.settings = 4 then 4 else 3

namespace Wired

/-- Between two commands, with nothing to read. -/
def idle (config : UInt8) (keyboard : Option Bool) (mouse : Option (Device M)) : Wired M where
  config   := config
  expects  := .keyboard
  output   := []
  keyboard := keyboard
  mouse    := mouse

/-- A byte on the command port. -/
def command (w : Wired M) (value : UInt8) : Wired M :=
  if value = 0x20 then { w with output := w.output ++ [w.config] }
  else if value = 0x60 then { w with expects := .config }
  else if value = 0xA8 then { w with config := w.config &&& ~~~0x20 }
  else if value = 0xD4 then { w with expects := .mouse }
  else w

/-- A byte on the data port. -/
def data (w : Wired M) (value : UInt8) : Wired M :=
  match w.expects with
  | .config   => { w with config := value, expects := .keyboard }
  | .mouse    =>
    match w.mouse with
    | none   => { w with expects := .keyboard }
    | some d =>
      let (answer, d) := d.receive value
      { w with mouse := some d, output := w.output ++ answer, expects := .keyboard }
  | .keyboard =>
    match w.keyboard with
    | none   => w
    | some _ =>
      if value = 0xF4 then { w with keyboard := some true, output := w.output ++ [kPs2Ack] }
      else { w with output := w.output ++ [resend] }

end Wired

namespace Controller

variable (t : Timing) (c : Controller M)

/-- An access without effect. -/
def tick : Controller M := { c with now := c.now + 1 }

/-- The status byte: bit 0 says that there is a byte to read, bit 1 that a write is not taken yet. -/
def status : UInt8 :=
  (t.other c.now &&& 0xFC) |||
    (if c.wired.output ≠ [] ∧ c.readyAt ≤ c.now then 0x01 else 0) ||| (if c.now < c.busyUntil then 0x02 else 0)

/-- A write that is taken. -/
def write (wired : Wired M) : Controller M where
  wired     := wired
  now       := c.now + 1
  busyUntil := c.now + 1 + t.input c.now
  readyAt   := if c.wired.output = [] then c.now + 1 + t.output c.now else c.readyAt

def out8 (port : UInt16) (value : UInt8) : Controller M :=
  if c.now < c.busyUntil then c.tick
  else if port = kPs2CommandPort then c.write t (c.wired.command value)
  else if port = kPs2DataPort then c.write t (c.wired.data value)
  else c.tick

def in8 (port : UInt16) : UInt8 × Controller M :=
  if port = kPs2StatusPort then (c.status t, c.tick)
  else if port = kPs2DataPort then
    match c.wired.output with
    | []           => (0, c.tick)
    | data :: rest =>
      if c.readyAt ≤ c.now then
        (data, { c with wired := { c.wired with output := rest }
                        now := c.now + 1, readyAt := c.now + 1 + t.output c.now })
      else (0, c.tick)
  else (0, c.tick)

/-- The loop of `WaitPs2InputClear`, -/
def waitInput : Nat → Controller M → Bool × Controller M
  | 0, c     => (false, c)
  | n + 1, c =>
    let (status, c) := c.in8 t kPs2StatusPort
    if status &&& 0x02 = 0 then (true, c) else waitInput n c

def waitPs2InputClear : Bool × Controller M := waitInput t retries c

/-- and that of `WaitPs2OutputReady`. -/
def waitOutput : Nat → Controller M → Bool × Controller M
  | 0, c     => (false, c)
  | n + 1, c =>
    let (status, c) := c.in8 t kPs2StatusPort
    if status &&& 0x01 ≠ 0 then (true, c) else waitOutput n c

def waitPs2OutputReady : Bool × Controller M := waitOutput t retries c

end Controller

/-- `&&` on steps that may fail: the second is taken when the first has succeeded. -/
def andThen {α : Type} (first : Bool × α) (next : α → Bool × α) : Bool × α :=
  if first.1 then next first.2 else (false, first.2)

namespace Controller

variable (t : Timing) (c : Controller M)

def ps2WriteCommand (command : UInt8) : Bool × Controller M :=
  andThen (c.waitPs2InputClear t) fun c => (true, c.out8 t kPs2CommandPort command)

def ps2WriteData (data : UInt8) : Bool × Controller M :=
  andThen (c.waitPs2InputClear t) fun c => (true, c.out8 t kPs2DataPort data)

def ps2WriteMouse (data : UInt8) : Bool × Controller M :=
  andThen (c.ps2WriteCommand t 0xD4) fun c => c.ps2WriteData t data

def ps2Read : Option UInt8 × Controller M :=
  let (ready, c) := c.waitPs2OutputReady t
  if ready then
    let (value, c) := c.in8 t kPs2DataPort
    (some value, c)
  else (none, c)

def ps2ReadAck : Bool × Controller M :=
  let (response, c) := c.ps2Read t
  (response == some kPs2Ack, c)

/-- The loop of `FlushPs2Output`. -/
def flush : Nat → Controller M → Controller M
  | 0, c     => c
  | n + 1, c =>
    let (status, c) := c.in8 t kPs2StatusPort
    if status &&& 0x01 ≠ 0 then flush n (c.in8 t kPs2DataPort).2 else c

def flushPs2Output : Controller M := flush t 32 c

def initKeyboard : Bool × Controller M :=
  andThen ((c.flushPs2Output t).ps2WriteData t 0xF4) fun c => c.ps2ReadAck t

/-- The loop of `InitMouse` over the sample rates: whether the mouse took them all. -/
def setRates : List UInt8 → Controller M → Bool × Controller M
  | [], c            => (true, c)
  | rate :: rates, c =>
    andThen (c.ps2WriteMouse t 0xF3) fun c =>
    andThen (c.ps2ReadAck t) fun c =>
    andThen (c.ps2WriteMouse t rate) fun c =>
    andThen (c.ps2ReadAck t) fun c => setRates rates c

def rates : List UInt8 := [200, 100, 80]

/-- The part of `InitMouse` that negotiates: the size of a packet by the id of the device. -/
def negotiate (m : Mouse) : Mouse × Controller M :=
  let (wheelMode, c) := setRates t rates c
  let (asked, c) := andThen (wheelMode, c) fun c => andThen (c.ps2WriteMouse t 0xF2) fun c => c.ps2ReadAck t
  if asked then
    let (deviceId, c) := c.ps2Read t
    (if deviceId = some 3 ∨ deviceId = some 4 then { m with packetSize := 4 } else m, c)
  else (m, c)

/-- `InitMouse` up to the acknowledged defaults. -/
def defaultMouse : Bool × Controller M :=
  andThen (c.ps2WriteCommand t 0xA8) fun c =>
  andThen (c.ps2WriteCommand t 0x20) fun c =>
  match c.ps2Read t with
  | (none, c)                  => (false, c)
  | (some controllerConfig, c) =>
    andThen (c.ps2WriteCommand t 0x60) fun c =>
    andThen (c.ps2WriteData t ((controllerConfig ||| 0x02) &&& ~~~0x20)) fun c =>
    andThen (c.ps2WriteMouse t 0xF6) fun c => c.ps2ReadAck t

def initMouse (m : Mouse) : Bool × Mouse × Controller M :=
  match c.defaultMouse t with
  | (false, c) => (false, m, c)
  | (true, c)  =>
    let (m, c) := c.negotiate t m
    let (ready, c) := andThen (c.ps2WriteMouse t 0xF4) fun c => c.ps2ReadAck t
    (ready, m, c)

/-- `KernelDriversInit` as far as this controller goes: whether the keyboard and the mouse are ready. -/
def initPs2 (m : Mouse) : Bool × Bool × Mouse × Controller M :=
  let (keyboardReady, c) := c.initKeyboard t
  let (mouseReady, m, c) := c.initMouse t m
  (keyboardReady, mouseReady, m, c)

/-! ## Polling -/

variable {t : Timing} {c : Controller M} {w : Wired M}

theorem status_bits : ∀ (other : Fin 256) (full busy : Bool),
    let s := (UInt8.ofFin other &&& 0xFC) ||| (if full then 0x01 else 0) ||| (if busy then 0x02 else 0)
    (s &&& 0x01 ≠ 0 ↔ full = true) ∧ (s &&& 0x02 = 0 ↔ busy = false) := by
  decide +kernel

theorem status_output : c.status t &&& 0x01 ≠ 0 ↔ c.wired.output ≠ [] ∧ c.readyAt ≤ c.now := by
  have h := (status_bits (t.other c.now).toFin (decide (c.wired.output ≠ [] ∧ c.readyAt ≤ c.now))
    (decide (c.now < c.busyUntil))).1
  simp only [decide_eq_true_eq] at h
  exact h

theorem status_input : c.status t &&& 0x02 = 0 ↔ c.busyUntil ≤ c.now := by
  have h := (status_bits (t.other c.now).toFin (decide (c.wired.output ≠ [] ∧ c.readyAt ≤ c.now))
    (decide (c.now < c.busyUntil))).2
  simp only [decide_eq_true_eq, decide_eq_false_iff_not, not_lt] at h
  exact h

/-- Whatever is awaited comes before the patience of the driver ends. -/
structure Prompt (c : Controller M) : Prop where
  input  : c.busyUntil < c.now + retries
  output : c.wired.output ≠ [] → c.readyAt < c.now + retries

/-- What polling changes: only the time. -/
structure Waited (c c' : Controller M) : Prop where
  wired : c'.wired = c.wired
  later : c.now ≤ c'.now
  busy  : c'.busyUntil = c.busyUntil
  ready : c'.readyAt = c.readyAt

theorem Waited.tick (c : Controller M) : Waited c c.tick := ⟨rfl, Nat.le_succ _, rfl, rfl⟩

theorem Waited.trans {c' c'' : Controller M} (h : Waited c c') (h' : Waited c' c'') : Waited c c'' :=
  ⟨h'.wired.trans h.wired, h.later.trans h'.later, h'.busy.trans h.busy, h'.ready.trans h.ready⟩

theorem Waited.prompt {c' : Controller M} (h : Waited c c') (hp : Prompt c) : Prompt c' := by
  have hlater := h.later
  refine ⟨?_, fun hout => ?_⟩
  · have := hp.input
    rw [h.busy]
    omega
  · have := hp.output (h.wired ▸ hout)
    rw [h.ready]
    omega

theorem waitInput_succ (n : Nat) : waitInput t (n + 1) c =
    if c.busyUntil ≤ c.now then (true, c.tick) else waitInput t n c.tick := by
  show (if c.status t &&& 0x02 = 0 then (true, c.tick) else waitInput t n c.tick) = _
  simp only [status_input]

theorem waitOutput_succ (n : Nat) : waitOutput t (n + 1) c =
    if c.wired.output ≠ [] ∧ c.readyAt ≤ c.now then (true, c.tick) else waitOutput t n c.tick := by
  show (if c.status t &&& 0x01 ≠ 0 then (true, c.tick) else waitOutput t n c.tick) = _
  simp only [status_output]

theorem waitInput_spec {n : Nat} (hn : c.busyUntil ≤ c.now + n) : ∃ c', waitInput t (n + 1) c = (true, c') ∧
    Waited c c' ∧ c'.busyUntil ≤ c'.now := by
  induction n generalizing c with
  | zero =>
      rw [Nat.add_zero] at hn
      rw [waitInput_succ, if_pos hn]
      exact ⟨_, rfl, .tick c, Nat.le_succ_of_le hn⟩
  | succ n ih =>
      rw [waitInput_succ]
      split
      next htaken => exact ⟨_, rfl, .tick c, Nat.le_succ_of_le htaken⟩
      next =>
        obtain ⟨c', heq, hwait, htaken⟩ := ih (c := c.tick) (by show c.busyUntil ≤ c.now + 1 + n; omega)
        exact ⟨c', heq, (Waited.tick c).trans hwait, htaken⟩

theorem waitOutput_spec {n : Nat} (hout : c.wired.output ≠ []) (hn : c.readyAt ≤ c.now + n) :
    ∃ c', waitOutput t (n + 1) c = (true, c') ∧ Waited c c' ∧ c'.readyAt ≤ c'.now := by
  induction n generalizing c with
  | zero =>
      rw [Nat.add_zero] at hn
      rw [waitOutput_succ, if_pos ⟨hout, hn⟩]
      exact ⟨_, rfl, .tick c, Nat.le_succ_of_le hn⟩
  | succ n ih =>
      rw [waitOutput_succ]
      split
      next hready => exact ⟨_, rfl, .tick c, Nat.le_succ_of_le hready.2⟩
      next =>
        obtain ⟨c', heq, hwait, hready⟩ := ih (c := c.tick) hout (by show c.readyAt ≤ c.now + 1 + n; omega)
        exact ⟨c', heq, (Waited.tick c).trans hwait, hready⟩

/-- With nothing to come the driver waits in vain. -/
theorem waitOutput_silent (hout : c.wired.output = []) (n : Nat) : ∃ c', waitOutput t n c = (false, c') ∧ Waited c c' := by
  induction n generalizing c with
  | zero => exact ⟨c, rfl, rfl, Nat.le_refl _, rfl, rfl⟩
  | succ n ih =>
      rw [waitOutput_succ, if_neg (fun h => h.1 hout)]
      obtain ⟨c', heq, hwait⟩ := ih (c := c.tick) hout
      exact ⟨c', heq, (Waited.tick c).trans hwait⟩

/-! ## The steps of the driver

What a step does is what the wired devices do, without the time. -/

/-- A step from a controller where `w` is wired succeeds or fails as `ok` says, and leaves `w'`, prompt as before. -/
structure Does (r : Bool × Controller M) (ok : Bool) (w' : Wired M) : Prop where
  result : r.1 = ok
  wired  : r.2.wired = w'
  prompt : Prompt r.2

theorem Does.ends {r : Bool × Controller M} {ok : Bool} {w : Wired M} (h : Does r ok w) :
    ∃ c', r = (ok, c') ∧ c'.wired = w ∧ Prompt c' :=
  ⟨r.2, Prod.ext h.result rfl, h.wired, h.prompt⟩

theorem Does.andThen {r : Bool × Controller M} {next : Controller M → Bool × Controller M} {ok : Bool}
    {w w' : Wired M} (h : Does r true w) (hnext : ∀ c, c.wired = w → Prompt c → Does (next c) ok w') :
    Does (Ps2.andThen r next) ok w' := by
  unfold Ps2.andThen
  rw [if_pos h.result]
  exact hnext r.2 h.wired h.prompt

theorem Does.failed {r : Bool × Controller M} {next : Controller M → Bool × Controller M} {w : Wired M}
    (h : Does r false w) : Does (Ps2.andThen r next) false w := by
  unfold Ps2.andThen
  rw [if_neg (by rw [h.result]; exact Bool.false_ne_true)]
  exact ⟨rfl, h.wired, h.prompt⟩

theorem prompt_write (hp : Prompt c) (w' : Wired M) : Prompt (c.write t w') := by
  have hin := t.input_lt c.now
  have hout := t.output_lt c.now
  refine ⟨by show c.now + 1 + t.input c.now < c.now + 1 + retries; omega, fun hne => ?_⟩
  show (if c.wired.output = [] then c.now + 1 + t.output c.now else c.readyAt) < c.now + 1 + retries
  split
  next => omega
  next hold =>
    have := hp.output hold
    omega

theorem retries_succ : retries = 99999 + 1 := rfl

/-- A write waits until it is taken. -/
theorem written (hw : c.wired = w) (hp : Prompt c) (port : UInt16) (value : UInt8) {w' : Wired M}
    (hport : ∀ c' : Controller M, c'.wired = w → c'.busyUntil ≤ c'.now → c'.out8 t port value = c'.write t w') :
    Does (Ps2.andThen (c.waitPs2InputClear t) fun c => (true, c.out8 t port value)) true w' := by
  have hin := hp.input
  rw [retries_succ] at hin
  obtain ⟨c', heq, hwait, htaken⟩ := waitInput_spec (t := t) (c := c) (n := 99999) (by omega)
  have heq' : c.waitPs2InputClear t = (true, c') := heq
  rw [heq']
  show Does (true, c'.out8 t port value) true w'
  rw [hport c' (hwait.wired.trans hw) htaken]
  exact ⟨rfl, rfl, prompt_write (hwait.prompt hp) w'⟩

theorem does_command (hw : c.wired = w) (hp : Prompt c) (value : UInt8) :
    Does (c.ps2WriteCommand t value) true (w.command value) := by
  refine written hw hp kPs2CommandPort value fun c' hw' htaken => ?_
  unfold out8
  rw [if_neg (Nat.not_lt.mpr htaken), if_pos rfl, hw']

theorem does_data (hw : c.wired = w) (hp : Prompt c) (value : UInt8) :
    Does (c.ps2WriteData t value) true (w.data value) := by
  refine written hw hp kPs2DataPort value fun c' hw' htaken => ?_
  unfold out8
  rw [if_neg (Nat.not_lt.mpr htaken), if_neg (by decide), if_pos rfl, hw']

theorem does_mouse (hw : c.wired = w) (hp : Prompt c) (value : UInt8) :
    Does (c.ps2WriteMouse t value) true (({ w with expects := .mouse } : Wired M).data value) :=
  (does_command hw hp 0xD4).andThen fun _ hc hpc => does_data hc hpc value

/-- `Ps2Read` takes the first byte of the output. -/
theorem read_cons (t : Timing) (hw : c.wired = w) (hp : Prompt c) {data : UInt8} {rest : List UInt8}
    (hout : w.output = data :: rest) :
    ∃ c', c.ps2Read t = (some data, c') ∧ c'.wired = { w with output := rest } ∧ Prompt c' := by
  have hready := hp.output (by rw [hw, hout]; simp)
  rw [retries_succ] at hready
  obtain ⟨c', heq, hwait, hnow⟩ :=
    waitOutput_spec (t := t) (c := c) (n := 99999) (by rw [hw, hout]; simp) (by omega)
  have heq' : c.waitPs2OutputReady t = (true, c') := heq
  have hw' : c'.wired = w := hwait.wired.trans hw
  have htake : c'.in8 t kPs2DataPort =
      (data, { c' with wired := { c'.wired with output := rest }
                       now := c'.now + 1, readyAt := c'.now + 1 + t.output c'.now }) := by
    unfold in8
    rw [if_neg (by decide), if_pos rfl, hw', hout]
    exact if_pos hnow
  refine ⟨{ c' with wired := { c'.wired with output := rest }
                    now := c'.now + 1, readyAt := c'.now + 1 + t.output c'.now },
    ?_, congrArg (fun v : Wired M => { v with output := rest }) hw', ?_⟩
  · unfold ps2Read
    rw [heq']
    show (let (value, c) := c'.in8 t kPs2DataPort; (some value, c)) = _
    rw [htake]
  · have hin := (hwait.prompt hp).input
    have hlag := t.output_lt c'.now
    exact ⟨by show c'.busyUntil < c'.now + 1 + retries; omega,
      fun _ => by show c'.now + 1 + t.output c'.now < c'.now + 1 + retries; omega⟩

theorem read_nil (hw : c.wired = w) (hp : Prompt c) (hout : w.output = []) :
    ∃ c', c.ps2Read t = (none, c') ∧ c'.wired = w ∧ Prompt c' := by
  obtain ⟨c', heq, hwait⟩ := waitOutput_silent (t := t) (c := c) (by rw [hw, hout]) retries
  have heq' : c.waitPs2OutputReady t = (false, c') := heq
  refine ⟨c', ?_, hwait.wired.trans hw, hwait.prompt hp⟩
  unfold ps2Read
  rw [heq']
  rfl

theorem does_ack (hw : c.wired = w) (hp : Prompt c) {data : UInt8} {rest : List UInt8}
    (hout : w.output = data :: rest) : Does (c.ps2ReadAck t) (data == kPs2Ack) { w with output := rest } := by
  obtain ⟨c', heq, hw', hp'⟩ := read_cons t hw hp hout
  unfold ps2ReadAck
  rw [heq]
  exact ⟨rfl, hw', hp'⟩

theorem does_no_ack (hw : c.wired = w) (hp : Prompt c) (hout : w.output = []) :
    Does (c.ps2ReadAck t) false w := by
  obtain ⟨c', heq, hw', hp'⟩ := read_nil (t := t) hw hp hout
  unfold ps2ReadAck
  rw [heq]
  exact ⟨rfl, hw', hp'⟩

/-! ## The negotiation -/

theorem andThen_assoc {α : Type} (first : Bool × α) (next last : α → Bool × α) :
    Ps2.andThen (Ps2.andThen first next) last = Ps2.andThen first fun a => Ps2.andThen (next a) last := by
  obtain ⟨ok, a⟩ := first
  cases ok <;> rfl

variable {config : UInt8} {keyboard : Option Bool}

/-- A byte for the mouse, and its answer: what the driver reads is the first byte of it. -/
theorem does_exchange {d d' : Device M} (hw : c.wired = .idle config keyboard (some d)) (hp : Prompt c)
    {value answer : UInt8} {more : List UInt8} (hanswer : d.receive value = (answer :: more, d')) :
    Does (Ps2.andThen (c.ps2WriteMouse t value) fun c => c.ps2ReadAck t) (answer == kPs2Ack)
      { Wired.idle config keyboard (some d') with output := more } := by
  have hdata : ({ Wired.idle config keyboard (some d) with expects := .mouse } : Wired M).data value =
      { Wired.idle config keyboard (some d') with output := answer :: more } := by
    show (let (answer, d) := d.receive value
      ({ Wired.idle config keyboard (some d) with output := [] ++ answer } : Wired M)) = _
    rw [hanswer]
    rfl
  have hwrite := does_mouse (t := t) hw hp value
  rw [hdata] at hwrite
  exact hwrite.andThen fun _ hc hpc => does_ack hc hpc rfl

theorem does_acknowledged {d d' : Device M} (hw : c.wired = .idle config keyboard (some d)) (hp : Prompt c)
    {value : UInt8} (hanswer : d.receive value = ([kPs2Ack], d')) :
    Does (Ps2.andThen (c.ps2WriteMouse t value) fun c => c.ps2ReadAck t) true (.idle config keyboard (some d')) :=
  does_exchange hw hp hanswer

/-- Without a mouse there is no answer. -/
theorem does_no_exchange (hw : c.wired = .idle config keyboard none) (hp : Prompt c) (value : UInt8) :
    Does (Ps2.andThen (c.ps2WriteMouse t value) fun c => c.ps2ReadAck t) false (.idle config keyboard none) :=
  (does_mouse (t := t) hw hp value).andThen fun _ hc hpc => does_no_ack hc hpc rfl

end Controller

/-- The sample rates as the mouse sees them: whether it takes them all, and its settings then. -/
def Make.setRates (M : Make) : List UInt8 → M.State → Bool × M.State
  | [], s            => (true, s)
  | rate :: rates, s =>
    match M.setRate s rate with
    | some s' => M.setRates rates s'
    | none    => (false, s)

/-- A mouse that refuses one of the rates has no wheel. -/
theorem Make.plain_setRates {rates : List UInt8} {s : M.State} (h : (M.setRates rates s).1 = false) :
    M.id (M.setRates rates s).2 ≠ 3 ∧ M.id (M.setRates rates s).2 ≠ 4 := by
  induction rates generalizing s with
  | nil => exact absurd h (by simp [setRates])
  | cons rate rates ih =>
      unfold setRates at h ⊢
      cases hrate : M.setRate s rate with
      | some s' =>
          rw [hrate] at h
          exact ih h
      | none => exact M.plain s rate hrate

namespace Controller

variable {t : Timing} {c : Controller M} {config : UInt8} {keyboard : Option Bool} {s : M.State} {reporting : Bool}

theorem does_setRates (hw : c.wired = .idle config keyboard (some ⟨s, false, reporting⟩)) (hp : Prompt c)
    (rates : List UInt8) :
    Does (setRates t rates c) (M.setRates rates s).1
      (.idle config keyboard (some ⟨(M.setRates rates s).2, false, reporting⟩)) := by
  induction rates generalizing c s with
  | nil => exact ⟨rfl, hw, hp⟩
  | cons rate rates ih =>
      unfold setRates Make.setRates
      rw [← andThen_assoc]
      -- the command is acknowledged, and the next byte is the rate
      have hcommand : (⟨s, false, reporting⟩ : Device M).receive 0xF3 = ([kPs2Ack], ⟨s, true, reporting⟩) := rfl
      refine (does_acknowledged hw hp hcommand).andThen fun c' hw' hp' => ?_
      rw [← andThen_assoc]
      cases hrate : M.setRate s rate with
      | none =>
          have hanswer : (⟨s, true, reporting⟩ : Device M).receive rate = ([resend], ⟨s, false, reporting⟩) := by
            unfold Device.receive
            rw [if_pos rfl]
            dsimp only
            rw [hrate]
          exact (does_exchange hw' hp' hanswer).failed
      | some s' =>
          have hanswer : (⟨s, true, reporting⟩ : Device M).receive rate = ([kPs2Ack], ⟨s', false, reporting⟩) := by
            unfold Device.receive
            rw [if_pos rfl]
            dsimp only
            rw [hrate]
          exact (does_acknowledged hw' hp' hanswer).andThen fun c'' hw'' hp'' => ih hw'' hp''

/-- **The size that is agreed on is the size that the mouse uses.** -/
theorem negotiate_agrees (hw : c.wired = .idle config keyboard (some ⟨s, false, reporting⟩)) (hp : Prompt c)
    {m : Mouse} (hsize : m.packetSize = 3) :
    ∃ s', (c.negotiate t m).1 = { m with packetSize := (⟨s', false, reporting⟩ : Device M).packetLength } ∧
      (c.negotiate t m).2.wired = .idle config keyboard (some ⟨s', false, reporting⟩) ∧
      Prompt (c.negotiate t m).2 := by
  have hkept : m = { m with packetSize := 3 } := by rw [← hsize]
  have hplain := @Make.plain_setRates M rates s
  obtain ⟨c', heq, hw', hp'⟩ := (does_setRates (t := t) hw hp rates).ends
  refine ⟨(M.setRates rates s).2, ?_⟩
  unfold negotiate
  rw [heq]
  generalize M.setRates rates s = tried at hplain hw'
  obtain ⟨ok, s'⟩ := tried
  cases ok with
  | false =>
      -- one of the rates was refused: the mouse keeps its three bytes, and is not asked
      obtain ⟨hthree, hfour⟩ := hplain rfl
      have hlength : (⟨s', false, reporting⟩ : Device M).packetLength = 3 :=
        if_neg (fun h => h.elim hthree hfour)
      rw [hlength]
      exact ⟨hkept, hw', hp'⟩
  | true =>
      have hanswer : (⟨s', false, reporting⟩ : Device M).receive 0xF2 =
          ([kPs2Ack, M.id s'], ⟨s', false, reporting⟩) := rfl
      obtain ⟨c₁, heq₁, hw₁, hp₁⟩ := (does_exchange (t := t) hw' hp' hanswer).ends
      obtain ⟨c₂, heq₂, hw₂, hp₂⟩ := read_cons t hw₁ hp₁ rfl
      have hasked : Ps2.andThen (true, c') (fun c => Ps2.andThen (c.ps2WriteMouse t 0xF2) fun c => c.ps2ReadAck t) =
          (true, c₁) := heq₁
      dsimp only
      rw [hasked]
      dsimp only
      rw [if_pos rfl, heq₂]
      refine ⟨?_, hw₂, hp₂⟩
      unfold Device.packetLength
      simp only [Option.some.injEq]
      split
      next => rfl
      next => exact hkept

/-- The initialization of the mouse up to its defaults: what it leaves of the configuration. -/
def configured (config : UInt8) : UInt8 := (config ||| 0x02) &&& ~~~0x20

theorem configured_all : ∀ n : Fin 256,
    (((UInt8.ofFin n &&& ~~~0x20) ||| 0x02) &&& ~~~0x20) = configured (UInt8.ofFin n) ∧
    configured (UInt8.ofFin n) &&& 0x02 ≠ 0 ∧ configured (UInt8.ofFin n) &&& 0x20 = 0 := by
  decide +kernel

variable {mouse : Option (Device M)}

/-- The common part of both cases, with and without a mouse: the controller is set up and the mouse is asked. -/
theorem defaultMouse_configures (hw : c.wired = .idle config keyboard mouse) (hp : Prompt c) {ok : Bool} {w : Wired M}
    (hmouse : ∀ c : Controller M, c.wired = .idle (configured config) keyboard mouse → Prompt c →
      Does (Ps2.andThen (c.ps2WriteMouse t 0xF6) fun c => c.ps2ReadAck t) ok w) :
    Does (c.defaultMouse t) ok w := by
  unfold defaultMouse
  refine (does_command hw hp 0xA8).andThen fun c₁ hw₁ hp₁ => (does_command hw₁ hp₁ 0x20).andThen fun c₂ hw₂ hp₂ => ?_
  obtain ⟨c₃, heq₃, hw₃, hp₃⟩ := read_cons t hw₂ hp₂ rfl
  rw [heq₃]
  refine (does_command hw₃ hp₃ 0x60).andThen fun c₄ hw₄ hp₄ => (does_data hw₄ hp₄ _).andThen fun c₅ hw₅ hp₅ => ?_
  refine hmouse c₅ ?_ hp₅
  rw [hw₅]
  show Wired.idle (((config &&& ~~~0x20) ||| 0x02) &&& ~~~0x20) keyboard mouse = _
  exact congrArg (Wired.idle · keyboard mouse) (configured_all config.toFin).1

theorem initMouse_present (hw : c.wired = .idle config keyboard (some ⟨s, false, reporting⟩)) (hp : Prompt c)
    {m : Mouse} (hsize : m.packetSize = 3) :
    ∃ s' c', c.initMouse t m = (true, { m with packetSize := (⟨s', false, true⟩ : Device M).packetLength }, c') ∧
      c'.wired = .idle (configured config) keyboard (some ⟨s', false, true⟩) ∧ Prompt c' := by
  have hdefaults : (⟨s, false, reporting⟩ : Device M).receive 0xF6 = ([kPs2Ack], ⟨M.defaults s, false, false⟩) := rfl
  obtain ⟨c₁, heq₁, hw₁, hp₁⟩ :=
    (defaultMouse_configures (t := t) hw hp fun c hc hpc => does_acknowledged hc hpc hdefaults).ends
  obtain ⟨s', hm, hw₂, hp₂⟩ := negotiate_agrees (t := t) hw₁ hp₁ hsize
  have hreport : (⟨s', false, false⟩ : Device M).receive 0xF4 = ([kPs2Ack], ⟨s', false, true⟩) := rfl
  obtain ⟨c₃, heq₃, hw₃, hp₃⟩ := (does_acknowledged (t := t) hw₂ hp₂ hreport).ends
  refine ⟨s', c₃, ?_, hw₃, hp₃⟩
  unfold initMouse
  rw [heq₁]
  show (let (ready, c) := Ps2.andThen ((c₁.negotiate t m).2.ps2WriteMouse t 0xF4) fun c => c.ps2ReadAck t
    (ready, (c₁.negotiate t m).1, c)) = _
  rw [heq₃, hm]
  rfl

theorem initMouse_absent (hw : c.wired = .idle config keyboard none) (hp : Prompt c) (m : Mouse) :
    ∃ c', c.initMouse t m = (false, m, c') ∧ c'.wired = .idle (configured config) keyboard none ∧ Prompt c' := by
  obtain ⟨c', heq, hw', hp'⟩ :=
    (defaultMouse_configures (t := t) hw hp fun c hc hpc => does_no_exchange hc hpc 0xF6).ends
  refine ⟨c', ?_, hw', hp'⟩
  unfold initMouse
  rw [heq]

/-! ## From the firmware's state -/

/-- The state that the firmware leaves: controller and mouse are between two commands, the last write is taken in
    time, and at most the one byte that the controller holds is still to be read. -/
structure Left (c : Controller M) : Prop where
  expects : c.wired.expects = .keyboard
  command : ∀ d, c.wired.mouse = some d → d.expectsRate = false
  held    : c.wired.output.length ≤ 1
  visible : c.wired.output ≠ [] → c.readyAt ≤ c.now
  taken   : c.busyUntil < c.now + retries

theorem flush_succ (n : Nat) : flush t (n + 1) c =
    if c.wired.output ≠ [] ∧ c.readyAt ≤ c.now then flush t n (c.tick.in8 t kPs2DataPort).2 else c.tick := by
  show (if c.status t &&& 0x01 ≠ 0 then flush t n (c.tick.in8 t kPs2DataPort).2 else c.tick) = _
  simp only [status_output]

theorem flush_nil (hout : c.wired.output = []) (n : Nat) : flush t (n + 1) c = c.tick := by
  rw [flush_succ, if_neg (fun h => h.1 hout)]

theorem flush_left (h : Left c) :
    (c.flushPs2Output t).wired = .idle c.wired.config c.wired.keyboard c.wired.mouse ∧ Prompt (c.flushPs2Output t) := by
  obtain ⟨⟨config, expects, output, keyboard, mouse⟩, now, busyUntil, readyAt⟩ := c
  obtain ⟨hexpects, -, hheld, hvisible, htaken⟩ := h
  dsimp only at hexpects hheld hvisible htaken
  subst hexpects
  unfold flushPs2Output
  match output, hheld with
  | [], _ =>
      rw [flush_nil rfl]
      exact ⟨rfl, by show busyUntil < now + 1 + retries; omega, fun hne => absurd rfl hne⟩
  | [data], _ =>
      have hready : readyAt ≤ now := hvisible (by simp)
      rw [flush_succ, if_pos ⟨by simp, hready⟩]
      have htake : (in8 t (tick (⟨⟨config, .keyboard, [data], keyboard, mouse⟩, now, busyUntil, readyAt⟩ : Controller M))
          kPs2DataPort).2 =
          ⟨.idle config keyboard mouse, now + 2, busyUntil, now + 2 + t.output (now + 1)⟩ := by
        unfold in8
        rw [if_neg (by decide), if_pos rfl]
        show (if readyAt ≤ now + 1 then _ else _ : UInt8 × Controller M).2 = _
        rw [if_pos (Nat.le_succ_of_le hready)]
        rfl
      rw [htake, flush_nil rfl]
      exact ⟨rfl, by show busyUntil < now + 2 + 1 + retries; omega, fun hne => absurd rfl hne⟩

/-- The keyboard is ready when there is one. -/
theorem initKeyboard_left (h : Left c) : ∃ keyboard c', c.initKeyboard t = (c.wired.keyboard.isSome, c') ∧
    c'.wired = .idle c.wired.config keyboard c.wired.mouse ∧ Prompt c' := by
  obtain ⟨hw, hp⟩ := flush_left (t := t) h
  unfold initKeyboard
  generalize c.wired.keyboard = keyboard at hw
  cases keyboard with
  | none =>
      obtain ⟨c', heq, hw', hp'⟩ := ((does_data (t := t) hw hp 0xF4).andThen
        fun c hc hpc => does_no_ack (t := t) hc hpc rfl).ends
      exact ⟨none, c', heq, hw', hp'⟩
  | some scanning =>
      obtain ⟨c', heq, hw', hp'⟩ := ((does_data (t := t) hw hp 0xF4).andThen
        fun c hc hpc => does_ack hc hpc rfl).ends
      exact ⟨some true, c', heq, hw', hp'⟩

theorem initPs2_present (h : Left c) {d : Device M} (hd : c.wired.mouse = some d) {m : Mouse}
    (hsize : m.packetSize = 3) : ∃ keyboard s' c', c.initPs2 t m = (c.wired.keyboard.isSome, true,
      { m with packetSize := (⟨s', false, true⟩ : Device M).packetLength }, c') ∧
      c'.wired = .idle (configured c.wired.config) keyboard (some ⟨s', false, true⟩) := by
  obtain ⟨keyboard, c₁, heq₁, hw₁, hp₁⟩ := initKeyboard_left (t := t) h
  obtain ⟨s, expectsRate, reporting⟩ := d
  obtain rfl : expectsRate = false := h.command _ hd
  rw [hd] at hw₁
  obtain ⟨s', c₂, heq₂, hw₂, -⟩ := initMouse_present (t := t) hw₁ hp₁ hsize
  refine ⟨keyboard, s', c₂, ?_, hw₂⟩
  unfold initPs2
  rw [heq₁]
  show (_, c₁.initMouse t m) = _
  rw [heq₂]

theorem initPs2_absent (h : Left c) (hd : c.wired.mouse = none) (m : Mouse) :
    ∃ keyboard c', c.initPs2 t m = (c.wired.keyboard.isSome, false, m, c') ∧
      c'.wired = .idle (configured c.wired.config) keyboard none := by
  obtain ⟨keyboard, c₁, heq₁, hw₁, hp₁⟩ := initKeyboard_left (t := t) h
  rw [hd] at hw₁
  obtain ⟨c₂, heq₂, hw₂, -⟩ := initMouse_absent (t := t) hw₁ hp₁ m
  refine ⟨keyboard, c₂, ?_, hw₂⟩
  unfold initPs2
  rw [heq₁]
  show (_, c₁.initMouse t m) = _
  rw [heq₂]

/-- **The initialization.** From whatever the firmware leaves, with any configuration, any keyboard and any mouse, there
    or not,
    * the driver takes each of the two for ready exactly when it is there;
    * nothing is left to read; interrupt 12 is on, the mouse has its clock, and the other bits of the configuration
      are as they were;
    * a mouse that is there reports, and the driver takes its packets to be of the size that they have. -/
theorem initPs2_negotiates (t : Timing) (c : Controller M) (h : Left c) (m : Mouse) (hsize : m.packetSize = 3) :
    ∃ m' c', c.initPs2 t m = (c.wired.keyboard.isSome, c.wired.mouse.isSome, m', c') ∧
      c'.wired.output = [] ∧ c'.wired.config = (c.wired.config ||| 0x02) &&& ~~~0x20 ∧
      c'.wired.config &&& 0x02 ≠ 0 ∧ c'.wired.config &&& 0x20 = 0 ∧
      (c.wired.mouse = none → c'.wired.mouse = none ∧ m' = m) ∧
      ∀ d, c.wired.mouse = some d → ∃ d', c'.wired.mouse = some d' ∧ d'.reporting = true ∧
        m' = { m with packetSize := d'.packetLength } := by
  obtain ⟨hirq, hclock⟩ := (configured_all c.wired.config.toFin).2
  cases hmouse : c.wired.mouse with
  | none =>
      obtain ⟨keyboard, c', heq, hwired⟩ := initPs2_absent (t := t) h hmouse m
      refine ⟨m, c', heq, ?_⟩
      rw [hwired]
      exact ⟨rfl, rfl, hirq, hclock, fun _ => ⟨rfl, rfl⟩, fun d hd => absurd hd (by simp)⟩
  | some d =>
      obtain ⟨keyboard, s', c', heq, hwired⟩ := initPs2_present (t := t) h hmouse hsize
      refine ⟨_, c', heq, ?_⟩
      rw [hwired]
      exact ⟨rfl, rfl, hirq, hclock, fun hno => absurd hno (by simp), fun _ _ => ⟨_, rfl, rfl, rfl⟩⟩

end Controller

/-- A mouse with a wheel: it counts how much of 200, 100, 80 it has seen, and changes its id at the end. -/
def intelliMouse : Make where
  State    := Nat × UInt8
  defaults := fun s => s
  setRate  := fun s rate =>
    some (if rate = 200 then (1, s.2) else if s.1 = 1 ∧ rate = 100 then (2, s.2)
      else if s.1 = 2 ∧ rate = 80 then (0, 3) else (0, s.2))
  id       := fun s => s.2
  plain    := fun _ _ h => absurd h (by simp)

/-- Seven polls for each byte. -/
def steady : Timing where
  input     := fun _ => 7
  output    := fun _ => 7
  other     := fun _ => 0x14
  input_lt  := fun _ => by decide
  output_lt := fun _ => by decide

/-- The firmware has stopped the clock of the mouse and left a byte of a movement. -/
def stopped : Controller intelliMouse where
  wired     := ⟨0x65, .keyboard, [0x08], some false, some ⟨(1, 0), false, true⟩⟩
  now       := 0
  busyUntil := 0
  readyAt   := 0

theorem left_stopped : Controller.Left stopped where
  expects := rfl
  command := by
    intro d hd
    obtain rfl := Option.some.inj hd
    rfl
  held    := Nat.le_refl 1
  visible := fun _ => Nat.le_refl 0
  taken   := by decide

theorem initPs2_negotiates_stopped : ∃ m' c', stopped.initPs2 steady {} = (true, true, m', c') ∧
    c'.wired.output = [] ∧ c'.wired.config = 0x47 ∧ ∃ d', c'.wired.mouse = some d' ∧ d'.reporting = true ∧
      m' = { ({} : Mouse) with packetSize := d'.packetLength } := by
  obtain ⟨m', c', heq, hout, hconfig, -, -, -, hmouse⟩ :=
    Controller.initPs2_negotiates steady stopped left_stopped {} rfl
  exact ⟨m', c', heq, hout, hconfig, hmouse _ rfl⟩

end Ps2
end Drivers
end UefiBoot
