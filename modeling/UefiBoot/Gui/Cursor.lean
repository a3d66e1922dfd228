import UefiBoot.Drivers.Pointing

/-!
# `Gui.Cursor` — the pointer on the screen

The position of the pointer is kept twice. The driver adds the displacements and keeps each coordinate between 0 and
4095, whatever the screen is; the desktop takes a coordinate over from the event and clamps it to the screen. The two
clamps together are one clamp of the sum to the screen only as long as the driver's coordinate is on the screen: on
a screen of fewer than 4096 pixels the driver goes on counting beyond the edge, and the cursor stands still until it
has come back. `AxisFits` says for one axis when a displacement takes the cursor where it should, and the axes do not
depend on each other.
-/

namespace UefiBoot
namespace Gui

open Drivers (Mouse Input Report)
open WindowManager (clampToScreen)

/-! ## One axis -/

/-- One coordinate of `ClampMouse`. -/
def clampAxis (v : Int32) : Int32 :=
  let v := if v < 0 then 0 else v
  if v > 4095 then 4095 else v

/-- The point of an axis of the screen that is closest to a coordinate. -/
def clampTo (size : Nat) (v : Int) : Int := max 0 (min v (size - 1))

/-- The displacement leads to the same point of the screen, whether it is added to the driver's coordinate and then
    clamped twice, or to the desktop's and clamped once. -/
def AxisFits (size : Nat) (driver gui delta : Int) : Prop :=
  size ≤ 4096 ∧ (driver < size ∨ 0 ≤ delta ∨ driver + delta ≤ 0) ∨
  4096 < size ∧ size < 2 ^ 31 ∧ driver + delta ≤ 4095 ∨
  size = 2 ^ 31 ∧ 2 ^ 31 - 1 ≤ gui + delta

/-- How the two coordinates stand to each other. On larger screens the cast of `ClampMouseToScreen` goes wrong, and
    nothing is said of them. -/
structure AxisOk (size : Nat) (driver gui : Int) : Prop where
  driver_nonneg : 0 ≤ driver
  small         : size ≤ 4096 → driver ≤ 4095 ∧ gui = min driver (size - 1)
  large         : 4096 < size → size < 2 ^ 31 → driver < size ∧ gui = driver

theorem clampAxis_toInt (v : Int32) : (clampAxis v).toInt = max 0 (min v.toInt 4095) := by
  have hzero : (0 : Int32).toInt = 0 := rfl
  have hmax : (4095 : Int32).toInt = 4095 := rfl
  unfold clampAxis
  simp only [gt_iff_lt, Int32.lt_iff_toInt_lt]
  split_ifs <;> omega

/-- The sum of `FeedMouseByte`, which may leave the range of its type at the upper end. -/
theorem add_toInt {driver : Int32} {delta : Int16} (hdriver : 0 ≤ driver.toInt) (hdelta : delta.toInt ≤ 256) (hlow : -256 ≤ delta.toInt) :
    driver.toInt + delta.toInt < 2 ^ 31 ∧ (driver + delta.toInt32).toInt = driver.toInt + delta.toInt ∨
    2 ^ 31 ≤ driver.toInt + delta.toInt ∧ (driver + delta.toInt32).toInt = driver.toInt + delta.toInt - 2 ^ 32 := by
  have hlt := driver.toInt_lt
  rw [Int32.toInt_add, Int16.toInt_toInt32, Int.bmod_def]
  split_ifs <;> omega

theorem clampToScreen_toInt {v : Int32} (size : UInt32) (hv : 0 ≤ v.toInt) (hsize : 0 < size.toNat) :
    size.toNat < 2 ^ 31 ∧ (clampToScreen v size).toInt = min v.toInt (size.toNat - 1) ∨
    size.toNat = 2 ^ 31 ∧ (clampToScreen v size).toInt = 2 ^ 31 - 1 ∨
    2 ^ 31 < size.toNat ∧ (clampToScreen v size).toInt < 0 := by
  have hlt := size.toNat_lt
  have hone : (size - 1).toNat = size.toNat - 1 := by
    rw [UInt32.toNat_sub]
    show (2 ^ 32 - 1 + size.toNat) % 2 ^ 32 = _
    omega
  have hcast := toInt32_toInt size
  have hlast := toInt32_toInt (size - 1)
  have hzero : (0 : Int32).toInt = 0 := rfl
  have hvlt := v.toInt_lt
  unfold clampToScreen
  simp only [ge_iff_le, Int32.lt_iff_toInt_lt, Int32.le_iff_toInt_le]
  split_ifs <;> omega

/-- The two clamps establish the relation, whatever was before. -/
theorem axisOk_clamp (v : Int32) {size : UInt32} (hsize : 2 ≤ size.toNat) :
    AxisOk size.toNat (clampAxis v).toInt (clampToScreen (clampAxis v) size).toInt := by
  have hclamp := clampAxis_toInt v
  have hscreen := clampToScreen_toInt size (v := clampAxis v) (by omega) (by omega)
  constructor <;> omega

/-- **One axis.** -/
theorem AxisOk.fits_iff {size : UInt32} {driver : Int32} {gui : Int} (delta : Int16)
    (h : AxisOk size.toNat driver.toInt gui) (hsize : 2 ≤ size.toNat)
    (hdelta : delta.toInt ≤ 256) (hlow : -256 ≤ delta.toInt) (hgui : 0 ≤ gui) (hguilt : gui < size.toNat) :
    (clampToScreen (clampAxis (driver + delta.toInt32)) size).toInt = clampTo size.toNat (gui + delta.toInt) ↔
      AxisFits size.toNat driver.toInt gui delta.toInt := by
  obtain ⟨hdriver, hsmall, hlarge⟩ := h
  have hsum := add_toInt hdriver hdelta hlow
  have hclamp := clampAxis_toInt (driver + delta.toInt32)
  have hscreen := clampToScreen_toInt size (v := clampAxis (driver + delta.toInt32)) (by omega) (by omega)
  unfold clampTo AxisFits
  rcases hscreen with ⟨hlt, hscreen⟩ | ⟨heq, hscreen⟩ | ⟨hgt, hscreen⟩
  · by_cases hle : size.toNat ≤ 4096
    · -- the driver may be beyond the edge
      obtain ⟨hdriverLe, hmin⟩ := hsmall hle
      omega
    · -- the desktop may have room beyond the driver's limit
      obtain ⟨hdriverLt, hsame⟩ := hlarge (by omega) hlt
      omega
  · -- the cast makes the size negative, and every position is taken to the end of the axis
    omega
  · -- and to one that is negative itself
    omega

/-! ## The events of a packet -/

variable {K : Type} {k : AppKernel K}

namespace Desktop

/-- The cursor is where an event at a position puts it. -/
def CursorAt (d : Desktop K) (x y : Int32) : Prop :=
  d.wm.mouseX = clampToScreen x d.wm.framebuffer.width ∧ d.wm.mouseY = clampToScreen y d.wm.framebuffer.height

theorem dispatchEvent_cursor (k : AppKernel K) (d : Desktop K) (event : GuiEvent)
    (htype : event.type = .mouseMove ∨ event.type = .mouseDown ∨ event.type = .mouseUp) :
    (d.dispatchEvent k event).CursorAt event.x event.y ∧ (d.dispatchEvent k event).wm.framebuffer = d.wm.framebuffer := by
  obtain ⟨hframebuffer, hx, hy, -⟩ := dispatchEvent_pointer k d event
  unfold CursorAt
  rw [hframebuffer, hx, hy]
  unfold point
  rcases htype with h | h | h <;> rw [h] <;> exact ⟨⟨rfl, rfl⟩, rfl⟩

theorem dispatchEvent_wheel (k : AppKernel K) {d : Desktop K} (event : GuiEvent) {x y : Int32}
    (htype : event.type = .mouseWheel) (hat : d.CursorAt x y) :
    (d.dispatchEvent k event).CursorAt x y ∧ (d.dispatchEvent k event).wm.framebuffer = d.wm.framebuffer := by
  obtain ⟨hframebuffer, hx, hy, -⟩ := dispatchEvent_pointer k d event
  unfold CursorAt
  rw [hframebuffer, hx, hy]
  unfold point
  rw [htype]
  exact ⟨hat, rfl⟩

/-- **The events of a packet** put the cursor where the driver has moved its pointer, as far as that is on the screen. -/
theorem dispatch_events (k : AppKernel K) (d : Desktop K) (m : Mouse) (packet : Drivers.Ps2MousePacket) :
    ((m.events packet).foldl (dispatchEvent k) d).CursorAt (m.moved packet).x (m.moved packet).y ∧
    ((m.events packet).foldl (dispatchEvent k) d).wm.framebuffer = d.wm.framebuffer := by
  unfold Mouse.events
  generalize m.moved packet = m
  rw [List.foldl_cons, List.foldl_append]
  have hmove := dispatchEvent_cursor k d (m.eventAt .mouseMove 0) (.inl rfl)
  generalize d.dispatchEvent k (m.eventAt .mouseMove 0) = d₁ at hmove
  have hwheel : (m.wheelEvents.foldl (dispatchEvent k) d₁).CursorAt m.x m.y ∧
      (m.wheelEvents.foldl (dispatchEvent k) d₁).wm.framebuffer = d.wm.framebuffer := by
    unfold Mouse.wheelEvents
    split_ifs
    · obtain ⟨hat, hsame⟩ := dispatchEvent_wheel k
        (m.eventAt .mouseWheel (Drivers.wheelOf (m.packetBytes 3)).toInt32.toUInt32) rfl hmove.1
      exact ⟨hat, hsame.trans hmove.2⟩
    · exact hmove
  generalize m.wheelEvents.foldl (dispatchEvent k) d₁ = d₂ at hwheel
  unfold Mouse.buttonEvents
  by_cases hbutton : packet.leftButton = m.leftDown
  · rw [if_pos hbutton]
    exact hwheel
  · rw [if_neg hbutton]
    obtain ⟨hat, hsame⟩ := dispatchEvent_cursor k d₂
      (m.eventAt (if packet.leftButton then .mouseDown else .mouseUp) 0)
      (by cases packet.leftButton <;> simp [Mouse.eventAt])
    exact ⟨hat, hsame.trans hwheel.2⟩

end Desktop

/-! ## One packet after the other -/

/-- The driver with the queue, the desktop, and where the cursor should be. No function reads the last. -/
structure Cursor (K : Type) where
  input   : Input
  desktop : Desktop K
  x       : Int
  y       : Int

namespace Cursor

variable {s : Cursor K}

def width (s : Cursor K) : UInt32 := s.desktop.wm.framebuffer.width
def height (s : Cursor K) : UInt32 := s.desktop.wm.framebuffer.height

/-- A packet comes in and the desktop pumps its events. The cursor should move by the displacement, but not leave
    the screen. -/
def step (k : AppKernel K) (s : Cursor K) (report : Report) : Cursor K :=
  let input := (s.input.feed (report.bytes s.input.mouse.packetSize)).2
  let (desktop, queue) := s.desktop.kernelGuiPumpEvents k input.queue
  { input := { input with queue := queue }
    desktop := desktop
    x := clampTo s.width.toNat (s.x + report.dx)
    y := clampTo s.height.toNat (s.y - report.dy) }

/-- The cursor is where it should be. -/
def Shown (s : Cursor K) : Prop := s.desktop.wm.mouseX.toInt = s.x ∧ s.desktop.wm.mouseY.toInt = s.y

/-- The packet takes the cursor where it should. -/
def Fits (s : Cursor K) (report : Report) : Prop :=
  AxisFits s.width.toNat s.input.mouse.x.toInt s.desktop.wm.mouseX.toInt report.dx ∧
  AxisFits s.height.toNat s.input.mouse.y.toInt s.desktop.wm.mouseY.toInt (-report.dy)

/-- Between two packets. -/
structure Resting (s : Cursor K) : Prop where
  valid : framebufferValid s.desktop.wm.framebuffer = true
  sound : Polling.Sound { queue := s.input.queue }
  empty : s.input.queue.eventCount = 0
  idle  : s.input.mouse.packetIndex = 0
  sized : s.input.mouse.packetSize = 3 ∨ s.input.mouse.packetSize = 4
  x     : 0 ≤ s.x ∧ s.x < s.width.toNat
  y     : 0 ≤ s.y ∧ s.y < s.height.toNat

/-- A position on the screen that driver and desktop share. -/
structure Shared (s : Cursor K) : Prop where
  resting : s.Resting
  shown   : s.Shown
  x       : s.input.mouse.x = s.desktop.wm.mouseX
  y       : s.input.mouse.y = s.desktop.wm.mouseY

structure Inv (s : Cursor K) : Prop where
  resting : s.Resting
  x       : AxisOk s.width.toNat s.input.mouse.x.toInt s.desktop.wm.mouseX.toInt
  y       : AxisOk s.height.toNat s.input.mouse.y.toInt s.desktop.wm.mouseY.toInt

theorem Resting.sizes (h : s.Resting) : 2 ≤ s.width.toNat ∧ 2 ≤ s.height.toNat := by
  have hvalid := h.valid
  unfold framebufferValid at hvalid
  simp only [Bool.and_eq_true, decide_eq_true_eq] at hvalid
  have hwidth : 320 ≤ s.width.toNat := UInt32.le_iff_toNat_le.mp hvalid.1.1.2
  have hheight : 200 ≤ s.height.toNat := UInt32.le_iff_toNat_le.mp hvalid.1.2
  omega

theorem clampTo_range {size : Nat} (h : 0 < size) (v : Int) : 0 ≤ clampTo size v ∧ clampTo size v < size := by
  unfold clampTo
  omega

theorem Shared.inv (h : s.Shared) : s.Inv := by
  obtain ⟨hx, hy⟩ := h.shown
  have hrestX := h.resting.x
  have hrestY := h.resting.y
  refine ⟨h.resting, ?_, ?_⟩
  · rw [h.x]
    constructor <;> omega
  · rw [h.y]
    constructor <;> omega

/-- The pump empties a queue that has taken the events of a packet, and dispatches them. -/
theorem pump_events (k : AppKernel K) (d : Desktop K) {queue : EventQueue} (hsound : Polling.Sound { queue := queue })
    (hempty : queue.eventCount = 0) {events : List GuiEvent} (hlength : events.length ≤ kEventQueueCapacity) :
    let after := d.kernelGuiPumpEvents k (events.foldl EventQueue.post queue)
    after.1 = events.foldl (Desktop.dispatchEvent k) d ∧ Polling.Sound { queue := after.2 } ∧ after.2.eventCount = 0 := by
  obtain ⟨hqueue, hpoll⟩ := Polling.posts_kept { queue := queue } events
  have hpolling : (events.foldl Polling.post { queue := queue }).bare = { queue := events.foldl EventQueue.post queue } := by
    unfold Polling.bare
    rw [hqueue, hpoll]
  -- everything has found room
  have hflight : Polling.inFlight { queue := events.foldl EventQueue.post queue } = events := by
    rw [← hpolling, Polling.inFlight_bare, hsound.inFlight_posts, hsound.inFlight_drained ⟨rfl, hempty⟩, List.nil_append]
    exact List.take_of_length_le (by rw [hempty]; exact hlength)
  have hpumped := Desktop.kernelGuiPumpEvents_spec k d (hpolling ▸ (hsound.posts events).bare)
  rwa [hflight] at hpumped

theorem length_events_le (m : Mouse) (packet : Drivers.Ps2MousePacket) : (m.events packet).length ≤ 3 := by
  unfold Mouse.events Mouse.wheelEvents Mouse.buttonEvents
  split_ifs <;> simp

/-- **What a packet does**: each coordinate of the driver moves and is clamped, and the desktop clamps it again. -/
theorem Resting.step (h : s.Resting) (k : AppKernel K) (report : Report) :
    (s.step k report).Resting ∧ (s.step k report).width = s.width ∧ (s.step k report).height = s.height ∧
    (s.step k report).input.mouse.x = clampAxis (s.input.mouse.x + (Int16.ofInt report.dx).toInt32) ∧
    (s.step k report).input.mouse.y = clampAxis (s.input.mouse.y + (Int16.ofInt (-report.dy)).toInt32) ∧
    (s.step k report).desktop.CursorAt (s.step k report).input.mouse.x (s.step k report).input.mouse.y := by
  obtain ⟨hpacket, hidle, hsized⟩ := Input.feed_report report h.idle rfl h.sized
  obtain ⟨m, hpointer, hqueue, hx, hy, -⟩ := Input.feed_acted hpacket
  obtain ⟨hdesktop, hsound, hempty⟩ := pump_events k s.desktop h.sound h.empty
    (Nat.le_trans (length_events_le m (report.packet s.input.mouse.packetSize)) (by decide))
  rw [← hqueue] at hdesktop hsound hempty
  obtain ⟨hat, hframebuffer⟩ := Desktop.dispatch_events k s.desktop m (report.packet s.input.mouse.packetSize)
  rw [← hdesktop] at hat hframebuffer
  rw [← hx, ← hy] at hat
  have hwidth : (s.step k report).width = s.width := congrArg FramebufferInfo.width hframebuffer
  have hheight : (s.step k report).height = s.height := congrArg FramebufferInfo.height hframebuffer
  obtain ⟨hwidthSize, hheightSize⟩ := h.sizes
  refine ⟨⟨?_, hsound, hempty, hidle, ?_, ?_, ?_⟩, hwidth, hheight, hx.trans ?_, hy.trans ?_, hat⟩
  · show framebufferValid (s.step k report).desktop.wm.framebuffer = true
    have hsame : (s.step k report).desktop.wm.framebuffer = s.desktop.wm.framebuffer := hframebuffer
    rw [hsame]
    exact h.valid
  · show (s.input.feed _).2.mouse.packetSize = 3 ∨ (s.input.feed _).2.mouse.packetSize = 4
    rw [hsized]
    exact h.sized
  · rw [hwidth]
    exact clampTo_range (by omega) _
  · rw [hheight]
    exact clampTo_range (by omega) _
  · rw [← hpointer.x]
    rfl
  · rw [← hpointer.y]
    rfl

/-- The displacements of a packet have nine bits. -/
theorem delta_toInt {v : Int} (hlow : -256 ≤ v) (hhigh : v ≤ 256) : (Int16.ofInt v).toInt = v :=
  Int16.toInt_ofInt_of_le (by omega) (by omega)

theorem Inv.step (h : s.Inv) (k : AppKernel K) (report : Report) : (s.step k report).Inv := by
  obtain ⟨hresting, hwidth, hheight, hx, hy, hatX, hatY⟩ := h.resting.step k report
  obtain ⟨hwidthSize, hheightSize⟩ := h.resting.sizes
  refine ⟨hresting, ?_, ?_⟩
  · rw [hatX]
    show AxisOk (s.step k report).width.toNat _ (clampToScreen _ (s.step k report).width).toInt
    rw [hwidth, hx]
    exact axisOk_clamp _ hwidthSize
  · rw [hatY]
    show AxisOk (s.step k report).height.toNat _ (clampToScreen _ (s.step k report).height).toInt
    rw [hheight, hy]
    exact axisOk_clamp _ hheightSize

/-- A packet takes a cursor that is where it should be to where it should be next exactly if it fits. -/
theorem Inv.shown_iff (h : s.Inv) (hshown : s.Shown) (k : AppKernel K) (report : Report) :
    (s.step k report).Shown ↔ s.Fits report := by
  obtain ⟨-, hwidth, hheight, hx, hy, hatX, hatY⟩ := h.resting.step k report
  obtain ⟨hwidthSize, hheightSize⟩ := h.resting.sizes
  obtain ⟨hshownX, hshownY⟩ := hshown
  have hdx := delta_toInt report.dx_range.1 (by have := report.dx_range.2; omega)
  have hdy : (Int16.ofInt (-report.dy)).toInt = -report.dy := by
    have := report.dy_range
    exact delta_toInt (by omega) (by omega)
  have hrangeX := h.resting.x
  have hrangeY := h.resting.y
  have hreportX := report.dx_range
  have hreportY := report.dy_range
  have haxisX := h.x.fits_iff (Int16.ofInt report.dx) hwidthSize (by omega) (by omega) (by omega) (by omega)
  have haxisY := h.y.fits_iff (Int16.ofInt (-report.dy)) hheightSize (by omega) (by omega) (by omega) (by omega)
  rw [hdx] at haxisX
  rw [hdy] at haxisY
  unfold Shown Fits
  rw [← haxisX, ← haxisY, hatX, hatY, hshownX, hshownY]
  show ((clampToScreen _ (s.step k report).width).toInt = _ ∧ (clampToScreen _ (s.step k report).height).toInt = _) ↔ _
  rw [hwidth, hheight, hx, hy]
  exact Iff.rfl

/-- **The cursor is where the displacements add up to, clamped to the screen after each, exactly in the runs whose
    packets all fit.** -/
theorem cursor_follows_iff (k : AppKernel K) (h : s.Shared) (reports : List Report) :
    Lib.Throughout (Cursor.step k) Shown s reports ↔ Lib.Along (Cursor.step k) Fits s reports :=
  Lib.throughout_iff_along (B := Inv) (fun _ report hinv => hinv.step k report)
    (fun _ report hinv hshown => hinv.shown_iff hshown k report) h.inv h.shown reports

/-- The cursor near the right edge of the screen, where the driver has it as well. -/
def rightOfScreen : Cursor UInt64 :=
  { input := { mouse := { x := 1000, y := 384 }, queue := EventQueue.init {} }
    desktop := (Desktop.start countingKernel smallScreen 0).dispatchEvent countingKernel
      { type := .mouseMove, x := 1000, y := 384 }
    x := 1000
    y := 384 }

theorem rightOfScreen_shared :
    rightOfScreen.width = 1024 ∧ rightOfScreen.height = 768 ∧ rightOfScreen.desktop.wm.mouseX = 1000 ∧
    rightOfScreen.desktop.wm.mouseY = 384 ∧ rightOfScreen.Shared := by
  have hstart := WindowManager.SamePointer.works
    (Desktop.initWindowManager_works countingKernel (Desktop.reset smallScreen 0))
  obtain ⟨⟨hx, hy⟩, hsame⟩ := Desktop.dispatchEvent_cursor countingKernel (Desktop.start countingKernel smallScreen 0)
    { type := .mouseMove, x := 1000, y := 384 } (.inl rfl)
  have hframebuffer : rightOfScreen.desktop.wm.framebuffer = smallScreen := hsame.trans hstart.framebuffer
  have hwidth : rightOfScreen.width = 1024 := congrArg FramebufferInfo.width hframebuffer
  have hheight : rightOfScreen.height = 768 := congrArg FramebufferInfo.height hframebuffer
  have hmouseX : rightOfScreen.desktop.wm.mouseX = 1000 := by
    have hat : rightOfScreen.desktop.wm.mouseX = clampToScreen 1000 rightOfScreen.width := hx
    rw [hat, hwidth]
    decide
  have hmouseY : rightOfScreen.desktop.wm.mouseY = 384 := by
    have hat : rightOfScreen.desktop.wm.mouseY = clampToScreen 384 rightOfScreen.height := hy
    rw [hat, hheight]
    decide
  have hqueue := Polling.inv_start {}
  have hresting : rightOfScreen.Resting := by
    refine ⟨?_, ⟨hqueue.ready, hqueue.indices⟩, rfl, rfl, .inl rfl, ?_, ?_⟩
    · rw [hframebuffer]
      decide
    · rw [hwidth]
      decide
    · rw [hheight]
      decide
  refine ⟨hwidth, hheight, hmouseX, hmouseY, hresting, ⟨?_, ?_⟩, hmouseX.symm, hmouseY.symm⟩
  · rw [hmouseX]
    decide
  · rw [hmouseY]
    decide

/-- A packet that takes the cursor to the left. -/
theorem cursor_follows_left :
    Lib.Throughout (step countingKernel) Shown rightOfScreen [Input.slide (-100) (by decide)] := by
  obtain ⟨hwidth, hheight, hx, hy, hshared⟩ := rightOfScreen_shared
  refine (cursor_follows_iff countingKernel hshared _).mpr ⟨?_, trivial⟩
  unfold Fits
  rw [hwidth, hheight, hx, hy]
  unfold AxisFits
  decide

/-- **A cursor that stands still.** A packet pushes it beyond the right edge, to 1023, and the driver's coordinate
    to 1255; the next packet leads back by one, but the cursor stays at 1023. -/
theorem cursor_sticks :
    ¬ Lib.Throughout (step countingKernel) Shown rightOfScreen [Input.slide 255 (by decide), Input.slide (-1) (by decide)] := by
  obtain ⟨hwidth, -, -, -, hshared⟩ := rightOfScreen_shared
  intro hshown
  obtain ⟨hrest, hwidth₁, -, hx₁, -⟩ := hshared.resting.step countingKernel (Input.slide 255 (by decide))
  obtain ⟨-, hwidth₂, -, hx₂, -, hat, -⟩ := hrest.step countingKernel (Input.slide (-1) (by decide))
  have hcursor : (rightOfScreen.step countingKernel (Input.slide 255 (by decide)) |>.step countingKernel
      (Input.slide (-1) (by decide))).desktop.wm.mouseX.toInt =
      clampTo (rightOfScreen.step countingKernel (Input.slide 255 (by decide))).width.toNat
        (clampTo rightOfScreen.width.toNat (1000 + 255) - 1) := hshown.2.2.1
  have hclamped := hat.trans (congrArg (clampToScreen _) (hwidth₂.trans (hwidth₁.trans hwidth)))
  rw [hclamped, hx₂, hx₁, hwidth₁, hwidth] at hcursor
  exact absurd hcursor (by decide)

end Cursor

end Gui
end UefiBoot
