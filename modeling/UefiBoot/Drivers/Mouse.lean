import UefiBoot.Gui.EventQueue

/-!
# `Drivers.Mouse` — the PS/2 mouse of `drivers.cpp`

`FeedMouseByte` is called by the handler of interrupt 12 with one byte at a time. It gathers three bytes, or four
when the mouse has a wheel, into a packet, moves the pointer by what the packet says and posts events.

A displacement has nine bits: eight in a byte of its own and the sign in the header. `Report` is what a well formed
packet says and `bytes` how the mouse sends it; `decode_bytes` is the inverse. In a stream, what keeps packets apart
is that the first byte gathered is a header (`Gathering`), so the decoder never refuses one.
-/

namespace UefiBoot
namespace Drivers

open Gui (GuiEvent GuiEventType EventQueue)

structure Ps2MousePacket where
  dx           : Int16 := 0
  dy           : Int16 := 0
  leftButton   : Bool := false
  rightButton  : Bool := false
  middleButton : Bool := false
  wheel        : Int8 := 0
  valid        : Bool := false
  deriving DecidableEq

/-- The globals of `drivers.cpp` that belong to the mouse, with the counters of `g_Status`. -/
structure Mouse where
  packetBytes     : Fin 4 → UInt8 := fun _ => 0
  packetIndex     : Nat := 0
  packetSize      : Nat := 3
  leftDown        : Bool := false
  x               : Int32 := 320
  y               : Int32 := 240
  packetCount     : UInt32 := 0
  eventCount      : UInt32 := 0
  eventQueueReady : Bool := false

def isPs2MousePacketHeader (data : UInt8) : Bool :=
  (data &&& 0x08) != 0 && (data &&& 0xC0) == 0

/-- `DecodePs2MousePacket`: its result and the packet it writes. -/
def decodePs2MousePacket (packet : Fin 4 → UInt8) (decoded : Ps2MousePacket) : Bool × Ps2MousePacket :=
  if !isPs2MousePacketHeader (packet 0) then (false, { decoded with valid := false })
  else
    let dx := (packet 1).toUInt16.toInt16
    let dy := (packet 2).toUInt16.toInt16
    let dx := if (packet 0 &&& 0x10) != 0 then dx ||| (0xFF00 : UInt16).toInt16 else dx
    let dy := if (packet 0 &&& 0x20) != 0 then dy ||| (0xFF00 : UInt16).toInt16 else dy
    (true,
      { dx := dx
        dy := -dy
        leftButton := (packet 0 &&& 0x01) != 0
        rightButton := (packet 0 &&& 0x02) != 0
        middleButton := (packet 0 &&& 0x04) != 0
        wheel := 0
        valid := true })

/-- The wheel in the low half of the fourth byte. -/
def wheelOf (data : UInt8) : Int8 :=
  let wheel := (data &&& 0x0F).toInt8
  if (wheel &&& 0x08) != 0 then wheel ||| (0xF0 : UInt8).toInt8 else wheel

namespace Mouse

/-- What `FeedMouseByte` makes of a byte before it acts on a packet. -/
inductive Gathered where
  /-- No packet has begun and the byte is not a header. -/
  | skipped
  | stored
  /-- The packet is complete, but the decoder refuses it. -/
  | resync
  | packet (packet : Ps2MousePacket)

def clampMouse (m : Mouse) : Mouse :=
  let x := if m.x < 0 then 0 else m.x
  let y := if m.y < 0 then 0 else m.y
  { m with x := if x > 4095 then 4095 else x, y := if y > 4095 then 4095 else y }

/-- `FeedMouseByte` up to the decoded packet. -/
def gather (m : Mouse) (data : UInt8) : Gathered × Mouse :=
  if m.packetIndex = 0 ∧ !isPs2MousePacketHeader data then (.skipped, m)
  else
    let m := { m with
      packetBytes := fun k => if k.val = m.packetIndex then data else m.packetBytes k
      packetIndex := m.packetIndex + 1 }
    if m.packetIndex < m.packetSize then (.stored, m)
    else
      let m := { m with packetIndex := 0 }
      let (ok, packet) := decodePs2MousePacket m.packetBytes {}
      if !ok then
        (.resync, if isPs2MousePacketHeader data then
          { m with packetBytes := fun k => if k.val = 0 then data else m.packetBytes k, packetIndex := 1 } else m)
      else (.packet packet, m)

/-- The left button in the header of the packet that is being gathered. -/
def packetLeft (m : Mouse) : Bool := (m.packetBytes 0 &&& 0x01) != 0

/-- Where the pointer is after a packet. -/
def moved (m : Mouse) (packet : Ps2MousePacket) : Mouse :=
  ({ m with x := m.x + packet.dx.toInt32, y := m.y + packet.dy.toInt32 } : Mouse).clampMouse

/-- An event where the pointer is. -/
def eventAt (m : Mouse) (type : GuiEventType) (key : UInt32) : GuiEvent :=
  { type := type, x := m.x, y := m.y, button := 0, key := key }

def wheelEvents (m : Mouse) : List GuiEvent :=
  if m.packetSize = 4 ∧ wheelOf (m.packetBytes 3) ≠ 0 then
    [m.eventAt .mouseWheel (wheelOf (m.packetBytes 3)).toInt32.toUInt32]
  else []

def buttonEvents (m : Mouse) (packet : Ps2MousePacket) : List GuiEvent :=
  if packet.leftButton = m.leftDown then [] else [m.eventAt (if packet.leftButton then .mouseDown else .mouseUp) 0]

/-- The events of a packet. -/
def events (m : Mouse) (packet : Ps2MousePacket) : List GuiEvent :=
  (m.moved packet).eventAt .mouseMove 0 :: ((m.moved packet).wheelEvents ++ (m.moved packet).buttonEvents packet)

end Mouse

/-- The mouse and the event queue of the desktop. -/
structure Input where
  mouse : Mouse
  queue : EventQueue

namespace Input

/-- `KernelGuiPostEvent` with an event counted by the driver when it is accepted. -/
def postCounted (s : Input) (event : GuiEvent) : Bool × Input :=
  let (ok, queue) := s.queue.kernelGuiPostEvent event
  (ok, { mouse := if ok then { s.mouse with eventCount := s.mouse.eventCount + 1 } else s.mouse, queue := queue })

def postMouseEvent (s : Input) (type : GuiEventType) (button : UInt32) : Input :=
  let (ok, s) := s.postCounted { type := type, x := s.mouse.x, y := s.mouse.y, button := button, key := 0 }
  if ok then { s with mouse := { s.mouse with eventQueueReady := true } } else s

/-- The rest of `FeedMouseByte`, what it does with a decoded packet, in three parts: the pointer moves, -/
def movePointer (s : Input) (packet : Ps2MousePacket) : Input :=
  let mouse := { s.mouse with
    packetCount := s.mouse.packetCount + 1
    x := s.mouse.x + packet.dx.toInt32
    y := s.mouse.y + packet.dy.toInt32 }
  ({ s with mouse := mouse.clampMouse } : Input).postMouseEvent .mouseMove 0

/-- a mouse with a wheel reports it, -/
def reportWheel (s : Input) (packet : Ps2MousePacket) : Ps2MousePacket × Input :=
  if s.mouse.packetSize = 4 then
    let wheel := wheelOf (s.mouse.packetBytes 3)
    ({ packet with wheel := wheel },
      if wheel != 0 then
        (s.postCounted { type := .mouseWheel, x := s.mouse.x, y := s.mouse.y, button := 0,
                         key := wheel.toInt32.toUInt32 }).2
      else s)
  else (packet, s)

/-- and a change of the left button is reported. -/
def reportButton (s : Input) (packet : Ps2MousePacket) : Input :=
  if packet.leftButton != s.mouse.leftDown then
    ({ s with mouse := { s.mouse with leftDown := packet.leftButton } } : Input).postMouseEvent
      (if packet.leftButton then .mouseDown else .mouseUp) 0
  else s

/-- The three parts, with the packet as it is in the end. -/
def handlePacket (s : Input) (packet : Ps2MousePacket) : Ps2MousePacket × Input :=
  let (packet, s) := (s.movePointer packet).reportWheel packet
  (packet, s.reportButton packet)

/-- `FeedMouseByte`, with the packet it acted on. -/
def feedMouseByte (s : Input) (data : UInt8) : Option Ps2MousePacket × Input :=
  match s.mouse.gather data with
  | (.packet packet, mouse) =>
    let (packet, s) := ({ s with mouse := mouse } : Input).handlePacket packet
    (some packet, s)
  | (_, mouse) => (none, { s with mouse := mouse })

/-- A stream of bytes: the packets acted on, in order, and the state afterwards. -/
def feed (s : Input) : List UInt8 → List Ps2MousePacket × Input
  | []            => ([], s)
  | data :: bytes =>
    let (packet, s) := s.feedMouseByte data
    let (packets, s) := s.feed bytes
    (packet.toList ++ packets, s)

end Input
/-! ## What a packet says -/

/-- A well formed packet: the buttons, the two displacements, and of the fourth byte the wheel and the upper half,
    which mice with more buttons use and the driver ignores. -/
structure Report where
  left        : Bool
  right       : Bool
  middle      : Bool
  dx          : Int
  dy          : Int
  wheel       : Int
  upper       : Fin 16
  dx_range    : -256 ≤ dx ∧ dx ≤ 255
  dy_range    : -256 ≤ dy ∧ dy ≤ 255
  wheel_range : -8 ≤ wheel ∧ wheel ≤ 7

/-- A header byte: bit 3, the buttons and the two signs. -/
def headerByte (left right middle negativeX negativeY : Bool) : UInt8 :=
  0x08 ||| (if left then 0x01 else 0) ||| (if right then 0x02 else 0) ||| (if middle then 0x04 else 0) |||
    (if negativeX then 0x10 else 0) ||| (if negativeY then 0x20 else 0)

/-- The fourth byte. -/
def wheelByte (upper : Fin 16) (wheel : Int) : UInt8 := UInt8.ofNat (16 * upper.val) + UInt8.ofInt (wheel % 16)

namespace Report

def header (r : Report) : UInt8 := headerByte r.left r.right r.middle (decide (r.dx < 0)) (decide (r.dy < 0))

/-- What the mouse sends for a report. -/
def bytes (size : Nat) (r : Report) : List UInt8 :=
  [r.header, UInt8.ofInt r.dx, UInt8.ofInt r.dy] ++ if size = 4 then [wheelByte r.upper r.wheel] else []

/-- What the driver should make of it: `y` grows downwards on the screen, and there is a wheel in the fourth byte
    only. -/
def packet (size : Nat) (r : Report) : Ps2MousePacket :=
  { dx := Int16.ofInt r.dx
    dy := Int16.ofInt (-r.dy)
    leftButton := r.left
    rightButton := r.right
    middleButton := r.middle
    wheel := if size = 4 then Int8.ofInt r.wheel else 0
    valid := true }

end Report

theorem headerByte_bits : ∀ left right middle negativeX negativeY : Bool,
    let h := headerByte left right middle negativeX negativeY
    isPs2MousePacketHeader h = true ∧ ((h &&& 0x01) != 0) = left ∧ ((h &&& 0x02) != 0) = right ∧
    ((h &&& 0x04) != 0) = middle ∧ ((h &&& 0x10) != 0) = negativeX ∧ ((h &&& 0x20) != 0) = negativeY := by
  decide

/-- The displacement that `DecodePs2MousePacket` makes of a sign and a byte. -/
def extend (negative : Bool) (data : UInt8) : Int16 :=
  if negative then data.toUInt16.toInt16 ||| (0xFF00 : UInt16).toInt16 else data.toUInt16.toInt16

theorem extend_all : ∀ n : Fin 512, extend (decide ((n.val : Int) - 256 < 0)) (UInt8.ofInt ((n.val : Int) - 256)) =
    Int16.ofInt ((n.val : Int) - 256) := by
  decide +kernel

/-- **Sign extension from nine bits.** -/
theorem extend_ofInt {v : Int} (h : -256 ≤ v ∧ v ≤ 255) : extend (decide (v < 0)) (UInt8.ofInt v) = Int16.ofInt v := by
  obtain ⟨n, hn⟩ := Int.eq_ofNat_of_zero_le (show 0 ≤ v + 256 by omega)
  have hv : v = (n : Int) - 256 := by omega
  rw [hv]
  exact extend_all ⟨n, by omega⟩

theorem wheelOf_all : ∀ upper n : Fin 16, wheelOf (wheelByte upper ((n.val : Int) - 8)) =
    Int8.ofInt ((n.val : Int) - 8) := by
  decide +kernel

/-- The wheel comes out of the fourth byte, whatever its upper half is. -/
theorem wheelOf_wheelByte (upper : Fin 16) {wheel : Int} (h : -8 ≤ wheel ∧ wheel ≤ 7) :
    wheelOf (wheelByte upper wheel) = Int8.ofInt wheel := by
  obtain ⟨n, hn⟩ := Int.eq_ofNat_of_zero_le (show 0 ≤ wheel + 8 by omega)
  have hv : wheel = (n : Int) - 8 := by omega
  rw [hv]
  exact wheelOf_all upper ⟨n, by omega⟩

/-- **The decoder inverts the encoding.** -/
theorem decode_report (r : Report) {packet : Fin 4 → UInt8} (hheader : packet 0 = r.header)
    (hdx : packet 1 = UInt8.ofInt r.dx) (hdy : packet 2 = UInt8.ofInt r.dy) :
    decodePs2MousePacket packet {} = (true, { r.packet 4 with wheel := 0 }) := by
  obtain ⟨hhead, hleft, hright, hmiddle, hx, hy⟩ :=
    headerByte_bits r.left r.right r.middle (decide (r.dx < 0)) (decide (r.dy < 0))
  have hdx' := extend_ofInt r.dx_range
  have hdy' := extend_ofInt r.dy_range
  unfold extend at hdx' hdy'
  unfold decodePs2MousePacket Report.packet
  rw [hheader, hdx, hdy]
  unfold Report.header
  dsimp only at hhead hleft hright hmiddle hx hy ⊢
  rw [hhead, hleft, hright, hmiddle, hx, hy, hdx', hdy', Int16.ofInt_neg]
  rfl

/-! ## Streams -/

/-- Between two bytes of a stream: the packets have `size` bytes, and of the one that is being gathered the header
    is there. -/
structure Gathering (size : Nat) (m : Mouse) : Prop where
  sized  : m.packetSize = size
  index  : m.packetIndex < size
  header : m.packetIndex ≠ 0 → isPs2MousePacketHeader (m.packetBytes 0) = true

namespace Mouse

variable {m : Mouse} {data : UInt8} {size : Nat}

/-- The mouse with one more byte of the packet. -/
def withByte (m : Mouse) (data : UInt8) : Mouse :=
  { m with
    packetBytes := fun k => if k.val = m.packetIndex then data else m.packetBytes k
    packetIndex := m.packetIndex + 1 }

theorem gather_skipped (hidle : m.packetIndex = 0) (hdata : isPs2MousePacketHeader data = false) :
    m.gather data = (.skipped, m) := by
  unfold gather
  rw [if_pos ⟨hidle, by rw [hdata]; rfl⟩]

theorem gather_stored (htake : m.packetIndex = 0 → isPs2MousePacketHeader data = true)
    (hmore : m.packetIndex + 1 < m.packetSize) : m.gather data = (.stored, m.withByte data) := by
  unfold gather
  rw [if_neg (by rintro ⟨hidle, hno⟩; rw [htake hidle] at hno; exact absurd hno (by simp))]
  exact if_pos hmore

theorem gather_packet (htake : m.packetIndex = 0 → isPs2MousePacketHeader data = true)
    (hlast : ¬ m.packetIndex + 1 < m.packetSize)
    (hheader : isPs2MousePacketHeader ((m.withByte data).packetBytes 0) = true) :
    m.gather data =
      (.packet (decodePs2MousePacket (m.withByte data).packetBytes {}).2, { m.withByte data with packetIndex := 0 }) := by
  have hok : (decodePs2MousePacket (m.withByte data).packetBytes {}).1 = true := by
    unfold decodePs2MousePacket
    rw [hheader]
    rfl
  unfold gather
  rw [if_neg (by rintro ⟨hidle, hno⟩; rw [htake hidle] at hno; exact absurd hno (by simp)), if_neg hlast]
  show (if (!(decodePs2MousePacket (m.withByte data).packetBytes {}).1) = true then _ else _) = _
  rw [hok]
  rfl

/-- **The packet in the making begins with a header**, so the decoder accepts it; nothing else happens to a byte than
    that it is skipped, stored or completes a packet. -/
theorem gather_cases (hg : Gathering size m) (data : UInt8) :
    (m.packetIndex = 0 ∧ isPs2MousePacketHeader data = false ∧ m.gather data = (.skipped, m)) ∨
    (m.gather data = (.stored, m.withByte data) ∧ Gathering size (m.withByte data)) ∨
    (∃ packet, m.gather data = (.packet packet, { m.withByte data with packetIndex := 0 }) ∧
      Gathering size { m.withByte data with packetIndex := 0 }) := by
  by_cases hskip : m.packetIndex = 0 ∧ isPs2MousePacketHeader data = false
  · exact .inl ⟨hskip.1, hskip.2, gather_skipped hskip.1 hskip.2⟩
  have htake : m.packetIndex = 0 → isPs2MousePacketHeader data = true := fun hidle => by
    by_contra hno
    exact hskip ⟨hidle, by simpa using hno⟩
  -- the byte at index 0 is the header, new or old
  have hheader : isPs2MousePacketHeader ((m.withByte data).packetBytes 0) = true := by
    show isPs2MousePacketHeader (if (0 : Nat) = m.packetIndex then data else m.packetBytes 0) = true
    by_cases hidle : m.packetIndex = 0
    · rw [if_pos hidle.symm]
      exact htake hidle
    · rw [if_neg (fun h => hidle h.symm)]
      exact hg.header hidle
  by_cases hmore : m.packetIndex + 1 < m.packetSize
  · exact .inr (.inl ⟨gather_stored htake hmore, hg.sized, hg.sized ▸ hmore, fun _ => hheader⟩)
  · exact .inr (.inr ⟨_, gather_packet htake hmore hheader, hg.sized, Nat.zero_lt_of_lt hg.index, fun h => absurd rfl h⟩)

end Mouse

namespace Input

variable {s : Input} {size : Nat} {data : UInt8}

/-- The fields of the mouse that have to do with gathering. -/
def SameStream (m m' : Mouse) : Prop :=
  m'.packetBytes = m.packetBytes ∧ m'.packetIndex = m.packetIndex ∧ m'.packetSize = m.packetSize

theorem SameStream.trans {m m' m'' : Mouse} (h : SameStream m m') (h' : SameStream m' m'') : SameStream m m'' :=
  ⟨h'.1.trans h.1, h'.2.1.trans h.2.1, h'.2.2.trans h.2.2⟩

theorem sameStream_postCounted (s : Input) (event : GuiEvent) : SameStream s.mouse (s.postCounted event).2.mouse := by
  unfold postCounted
  dsimp only
  split <;> exact ⟨rfl, rfl, rfl⟩

theorem sameStream_postMouseEvent (s : Input) (type : GuiEventType) (button : UInt32) :
    SameStream s.mouse (s.postMouseEvent type button).mouse := by
  have h := sameStream_postCounted s { type := type, x := s.mouse.x, y := s.mouse.y, button := button, key := 0 }
  unfold postMouseEvent
  dsimp only
  split
  · exact h.trans ⟨rfl, rfl, rfl⟩
  · exact h

theorem sameStream_movePointer (s : Input) (packet : Ps2MousePacket) :
    SameStream s.mouse (s.movePointer packet).mouse := by
  unfold movePointer
  exact SameStream.trans ⟨rfl, rfl, rfl⟩ (sameStream_postMouseEvent _ _ _)

theorem sameStream_reportWheel (s : Input) (packet : Ps2MousePacket) :
    SameStream s.mouse (s.reportWheel packet).2.mouse := by
  unfold reportWheel
  split
  · dsimp only
    split
    · exact sameStream_postCounted _ _
    · exact ⟨rfl, rfl, rfl⟩
  · exact ⟨rfl, rfl, rfl⟩

theorem sameStream_reportButton (s : Input) (packet : Ps2MousePacket) :
    SameStream s.mouse (s.reportButton packet).mouse := by
  unfold reportButton
  split
  · exact SameStream.trans ⟨rfl, rfl, rfl⟩ (sameStream_postMouseEvent _ _ _)
  · exact ⟨rfl, rfl, rfl⟩

/-- Acting on a packet leaves what is being gathered alone, and the packet gets its wheel from the fourth byte. -/
theorem handlePacket_stream (s : Input) (packet : Ps2MousePacket) :
    SameStream s.mouse (s.handlePacket packet).2.mouse ∧
    (s.handlePacket packet).1 =
      if s.mouse.packetSize = 4 then { packet with wheel := wheelOf (s.mouse.packetBytes 3) } else packet := by
  have hmove := sameStream_movePointer s packet
  unfold handlePacket
  refine ⟨hmove.trans ((sameStream_reportWheel _ _).trans (sameStream_reportButton _ _)), ?_⟩
  show ((s.movePointer packet).reportWheel packet).1 = _
  unfold reportWheel
  rw [hmove.1, hmove.2.2]
  split <;> rfl

/-- One byte, seen from the packet that is being gathered. -/
theorem feedMouseByte_stream (s : Input) (data : UInt8) :
    (s.feedMouseByte data).1 = (match (s.mouse.gather data) with
      | (.packet packet, mouse) =>
        some (if mouse.packetSize = 4 then { packet with wheel := wheelOf (mouse.packetBytes 3) } else packet)
      | _ => none) ∧
    SameStream (s.mouse.gather data).2 (s.feedMouseByte data).2.mouse := by
  unfold feedMouseByte
  obtain ⟨gathered, mouse⟩ := s.mouse.gather data
  cases gathered with
  | packet packet =>
      obtain ⟨hsame, hpacket⟩ := handlePacket_stream { s with mouse := mouse } packet
      exact ⟨congrArg some hpacket, hsame⟩
  | skipped => exact ⟨rfl, rfl, rfl, rfl⟩
  | stored => exact ⟨rfl, rfl, rfl, rfl⟩
  | resync => exact ⟨rfl, rfl, rfl, rfl⟩

end Input

theorem Gathering.same {size : Nat} {m m' : Mouse} (h : Gathering size m) (hs : Input.SameStream m m') :
    Gathering size m' := by
  obtain ⟨hbytes, hindex, hsize⟩ := hs
  refine ⟨hsize.trans h.sized, hindex ▸ h.index, ?_⟩
  rw [hindex, hbytes]
  exact h.header

namespace Input

variable {s : Input} {size : Nat}

theorem gathering_feedMouseByte (h : Gathering size s.mouse) (data : UInt8) :
    Gathering size (s.feedMouseByte data).2.mouse := by
  have hg : Gathering size (s.mouse.gather data).2 := by
    rcases Mouse.gather_cases h data with ⟨-, -, heq⟩ | ⟨heq, hg⟩ | ⟨packet, heq, hg⟩ <;> rw [heq]
    · exact h
    · exact hg
    · exact hg
  exact hg.same (feedMouseByte_stream s data).2

theorem gathering_feed (h : Gathering size s.mouse) (bytes : List UInt8) : Gathering size (s.feed bytes).2.mouse := by
  induction bytes generalizing s with
  | nil => exact h
  | cons data bytes ih => exact ih (gathering_feedMouseByte h data)

theorem feed_stored {m : Mouse} {data : UInt8} {bytes : List UInt8} (h : s.mouse.gather data = (.stored, m)) :
    s.feed (data :: bytes) = ({ s with mouse := m } : Input).feed bytes := by
  have hbyte : s.feedMouseByte data = (none, { s with mouse := m }) := by
    unfold feedMouseByte
    rw [h]
  show ((s.feedMouseByte data).1.toList ++ ((s.feedMouseByte data).2.feed bytes).1,
    ((s.feedMouseByte data).2.feed bytes).2) = _
  rw [hbyte]
  rfl

theorem feed_append (s : Input) (bytes rest : List UInt8) :
    (s.feed (bytes ++ rest)).1 = (s.feed bytes).1 ++ ((s.feed bytes).2.feed rest).1 ∧
    (s.feed (bytes ++ rest)).2 = ((s.feed bytes).2.feed rest).2 := by
  induction bytes generalizing s with
  | nil => exact ⟨rfl, rfl⟩
  | cons data bytes ih =>
      obtain ⟨hpackets, hstate⟩ := ih (s.feedMouseByte data).2
      refine ⟨?_, hstate⟩
      show _ ++ ((s.feedMouseByte data).2.feed (bytes ++ rest)).1 = (_ ++ ((s.feedMouseByte data).2.feed bytes).1) ++ _
      rw [hpackets, List.append_assoc]
      rfl

/-- The last byte of a packet, when the bytes of a report have been stored. -/
theorem feed_last (r : Report) (m : Mouse) (data : UInt8) (hlast : ¬ m.packetIndex + 1 < m.packetSize)
    (hidle : m.packetIndex ≠ 0) (hheader : (m.withByte data).packetBytes 0 = r.header)
    (hdx : (m.withByte data).packetBytes 1 = UInt8.ofInt r.dx) (hdy : (m.withByte data).packetBytes 2 = UInt8.ofInt r.dy)
    (hwheel : m.packetSize = 4 → (m.withByte data).packetBytes 3 = wheelByte r.upper r.wheel) (queue : EventQueue) :
    let s' := (⟨m, queue⟩ : Input).feed [data]
    s'.1 = [r.packet m.packetSize] ∧ s'.2.mouse.packetIndex = 0 ∧ s'.2.mouse.packetSize = m.packetSize := by
  have hhead : isPs2MousePacketHeader ((m.withByte data).packetBytes 0) = true := by
    rw [hheader]
    exact (headerByte_bits _ _ _ _ _).1
  have hgather := Mouse.gather_packet (fun h => absurd h hidle) hlast hhead
  rw [decode_report r hheader hdx hdy] at hgather
  obtain ⟨hpacket, -, hindex, hsize⟩ := feedMouseByte_stream ⟨m, queue⟩ data
  rw [hgather] at hpacket hindex hsize
  refine ⟨?_, hindex, hsize⟩
  show ((⟨m, queue⟩ : Input).feedMouseByte data).1.toList ++ [] = _
  rw [hpacket, List.append_nil]
  dsimp only
  have hsized : (m.withByte data).packetSize = m.packetSize := rfl
  rw [hsized]
  by_cases hfour : m.packetSize = 4
  · rw [if_pos hfour, hwheel hfour, wheelOf_wheelByte r.upper r.wheel_range]
    unfold Report.packet
    rw [if_pos hfour]
    rfl
  · rw [if_neg hfour]
    unfold Report.packet
    rw [if_neg hfour]
    rfl

/-- **One packet.** A report fed from an idle mouse comes out as one packet, and the mouse is idle again. -/
theorem feed_report (r : Report) (hidle : s.mouse.packetIndex = 0) (hsized : s.mouse.packetSize = size)
    (hsize : size = 3 ∨ size = 4) :
    (s.feed (r.bytes size)).1 = [r.packet size] ∧ (s.feed (r.bytes size)).2.mouse.packetIndex = 0 ∧
    (s.feed (r.bytes size)).2.mouse.packetSize = size := by
  obtain ⟨m, queue⟩ := s
  dsimp only at hidle hsized
  have hhead : isPs2MousePacketHeader r.header = true := (headerByte_bits _ _ _ _ _).1
  have hfirst : m.gather r.header = (.stored, m.withByte r.header) :=
    Mouse.gather_stored (fun _ => hhead) (by rw [hidle, hsized]; rcases hsize with h | h <;> omega)
  have hsecond : (m.withByte r.header).gather (UInt8.ofInt r.dx) = (.stored, (m.withByte r.header).withByte (UInt8.ofInt r.dx)) :=
    Mouse.gather_stored (fun h => absurd h (Nat.succ_ne_zero _))
      (by show m.packetIndex + 1 + 1 < m.packetSize; rw [hidle, hsized]; rcases hsize with h | h <;> omega)
  rcases hsize with rfl | rfl
  · have hfeed : (⟨m, queue⟩ : Input).feed (r.bytes 3) =
        (⟨(m.withByte r.header).withByte (UInt8.ofInt r.dx), queue⟩ : Input).feed [UInt8.ofInt r.dy] := by
      show (⟨m, queue⟩ : Input).feed [r.header, UInt8.ofInt r.dx, UInt8.ofInt r.dy] = _
      rw [feed_stored hfirst, feed_stored hsecond]
    have hlast := feed_last r ((m.withByte r.header).withByte (UInt8.ofInt r.dx)) (UInt8.ofInt r.dy)
      (by simp [Mouse.withByte, hidle, hsized]) (Nat.succ_ne_zero _) (by simp [Mouse.withByte, hidle])
      (by simp [Mouse.withByte, hidle]) (by simp [Mouse.withByte, hidle])
      (fun h => absurd (hsized.symm.trans h) (by decide)) queue
    rw [hfeed, ← hsized]
    exact hlast
  · have hthird : ((m.withByte r.header).withByte (UInt8.ofInt r.dx)).gather (UInt8.ofInt r.dy) =
        (.stored, ((m.withByte r.header).withByte (UInt8.ofInt r.dx)).withByte (UInt8.ofInt r.dy)) :=
      Mouse.gather_stored (fun h => absurd h (Nat.succ_ne_zero _)) (by simp [Mouse.withByte, hidle, hsized])
    have hfeed : (⟨m, queue⟩ : Input).feed (r.bytes 4) =
        (⟨((m.withByte r.header).withByte (UInt8.ofInt r.dx)).withByte (UInt8.ofInt r.dy), queue⟩ : Input).feed
          [wheelByte r.upper r.wheel] := by
      show (⟨m, queue⟩ : Input).feed
        [r.header, UInt8.ofInt r.dx, UInt8.ofInt r.dy, wheelByte r.upper r.wheel] = _
      rw [feed_stored hfirst, feed_stored hsecond, feed_stored hthird]
    have hlast := feed_last r (((m.withByte r.header).withByte (UInt8.ofInt r.dx)).withByte (UInt8.ofInt r.dy))
      (wheelByte r.upper r.wheel) (by simp [Mouse.withByte, hidle, hsized]) (Nat.succ_ne_zero _)
      (by simp [Mouse.withByte, hidle]) (by simp [Mouse.withByte, hidle]) (by simp [Mouse.withByte, hidle])
      (fun _ => by simp [Mouse.withByte, hidle]) queue
    rw [hfeed, ← hsized]
    exact hlast

/-- **The mouse stream.** With packets of three or four bytes and none begun,
    * the bytes of any sequence of reports come out as their packets, each once and in order;
    * after any bytes whatsoever, the index is below the size of a packet, a byte that is not a header is skipped
      while no packet has begun, and no byte makes the decoder refuse a packet. -/
theorem stream_decoded (s : Input) (size : Nat) (hidle : s.mouse.packetIndex = 0) (hsized : s.mouse.packetSize = size)
    (hsize : size = 3 ∨ size = 4) :
    (∀ reports : List Report,
      (s.feed (reports.flatMap (Report.bytes size))).1 = reports.map (Report.packet size) ∧
      (s.feed (reports.flatMap (Report.bytes size))).2.mouse.packetIndex = 0) ∧
    ∀ bytes : List UInt8, let s' := (s.feed bytes).2
      s'.mouse.packetIndex < size ∧
      (∀ data, s'.mouse.packetIndex = 0 → isPs2MousePacketHeader data = false → s'.feedMouseByte data = (none, s')) ∧
      ∀ data, (s'.mouse.gather data).1 ≠ .resync := by
  constructor
  · intro reports
    induction reports generalizing s with
    | nil => exact ⟨rfl, hidle⟩
    | cons r reports ih =>
        obtain ⟨hpacket, hidle', hsized'⟩ := feed_report r hidle hsized hsize
        obtain ⟨hpackets, hlast⟩ := ih (s.feed (r.bytes size)).2 hidle' hsized'
        obtain ⟨happend, hstate⟩ := feed_append s (r.bytes size) (reports.flatMap (Report.bytes size))
        rw [List.flatMap_cons, happend, hstate, hpacket, hpackets]
        exact ⟨rfl, hlast⟩
  · intro bytes s'
    have hstart : Gathering size s.mouse := ⟨hsized, by omega, fun h => absurd hidle h⟩
    have hg : Gathering size s'.mouse := gathering_feed hstart bytes
    refine ⟨hg.index, fun data hi hdata => ?_, fun data hresync => ?_⟩
    · unfold feedMouseByte
      rw [Mouse.gather_skipped hi hdata]
    · rcases Mouse.gather_cases hg data with ⟨-, -, heq⟩ | ⟨heq, -⟩ | ⟨packet, heq, -⟩ <;>
        rw [heq] at hresync <;> exact absurd hresync (by simp)

/-- The left button goes down while the mouse moves to the upper left and the wheel turns by one. -/
def pressReport : Report :=
  { left := true, right := false, middle := false, dx := -4, dy := 2, wheel := -1, upper := 0
    dx_range := by decide, dy_range := by decide, wheel_range := by decide }

/-- A packet that moves the pointer along the first axis only. -/
def slide (dx : Int) (h : -256 ≤ dx ∧ dx ≤ 255) : Report :=
  { left := false, right := false, middle := false, dx := dx, dy := 0, wheel := 0, upper := 0
    dx_range := h, dy_range := by decide, wheel_range := by decide }

theorem stream_decoded_press :
    (({ mouse := { packetSize := 4 }, queue := {} } : Input).feed (pressReport.bytes 4 ++ pressReport.bytes 4)).1 =
      [⟨-4, -2, true, false, false, -1, true⟩, ⟨-4, -2, true, false, false, -1, true⟩] :=
  ((stream_decoded _ 4 rfl rfl (.inr rfl)).1 [pressReport, pressReport]).1.trans (by decide)

end Input
end Drivers
end UefiBoot
