import UefiBoot.Gui.Overlay
import UefiBoot.Gui.NativeApps

/-!
# `Gui.Drawing` — frames and text

Everything above `DrawPixel` is made of rectangles: a frame is four of them, and a letter one for each bit of its glyph.
What a repaint has to know of a shape is where it can reach, so every shape has a lemma that keeps its dots between four
edges.
-/

namespace UefiBoot
namespace Gui

/-- The colours of `kTheme` that are only drawn. -/
structure DesktopTheme where
  desktopTop     : UInt32
  desktopBottom  : UInt32
  panel          : UInt32
  panelEdge      : UInt32
  titleActive    : UInt32
  titleInactive  : UInt32
  borderInactive : UInt32
  buttonIdle     : UInt32
  buttonHover    : UInt32
  shadowNear     : UInt32
  shadowMid      : UInt32
  shadowFar      : UInt32

def kDesktopTheme : DesktopTheme :=
  { desktopTop := 0xFF202733
    desktopBottom := 0xFF151B24
    panel := 0xFF222B36
    panelEdge := 0xFF303C49
    titleActive := 0xFF344D63
    titleInactive := 0xFF2B3947
    borderInactive := 0xFF52687A
    buttonIdle := 0xFF3A4652
    buttonHover := 0xFF4A5C6B
    shadowNear := 0xFF111821
    shadowMid := 0xFF0C1118
    shadowFar := 0xFF080B10 }

/-! ## Glyphs -/

/-- The `switch` of `GlyphRow`. -/
def kGlyphs : List (Char × List UInt8) := [
  ('A', [0x0E, 0x11, 0x11, 0x1F, 0x11, 0x11, 0x11]),
  ('B', [0x1E, 0x11, 0x11, 0x1E, 0x11, 0x11, 0x1E]),
  ('C', [0x0E, 0x11, 0x10, 0x10, 0x10, 0x11, 0x0E]),
  ('D', [0x1E, 0x11, 0x11, 0x11, 0x11, 0x11, 0x1E]),
  ('E', [0x1F, 0x10, 0x10, 0x1E, 0x10, 0x10, 0x1F]),
  ('F', [0x1F, 0x10, 0x10, 0x1E, 0x10, 0x10, 0x10]),
  ('G', [0x0E, 0x11, 0x10, 0x17, 0x11, 0x11, 0x0F]),
  ('H', [0x11, 0x11, 0x11, 0x1F, 0x11, 0x11, 0x11]),
  ('I', [0x0E, 0x04, 0x04, 0x04, 0x04, 0x04, 0x0E]),
  ('J', [0x07, 0x02, 0x02, 0x02, 0x12, 0x12, 0x0C]),
  ('K', [0x11, 0x12, 0x14, 0x18, 0x14, 0x12, 0x11]),
  ('L', [0x10, 0x10, 0x10, 0x10, 0x10, 0x10, 0x1F]),
  ('M', [0x11, 0x1B, 0x15, 0x15, 0x11, 0x11, 0x11]),
  ('N', [0x11, 0x19, 0x15, 0x13, 0x11, 0x11, 0x11]),
  ('O', [0x0E, 0x11, 0x11, 0x11, 0x11, 0x11, 0x0E]),
  ('P', [0x1E, 0x11, 0x11, 0x1E, 0x10, 0x10, 0x10]),
  ('Q', [0x0E, 0x11, 0x11, 0x11, 0x15, 0x12, 0x0D]),
  ('R', [0x1E, 0x11, 0x11, 0x1E, 0x14, 0x12, 0x11]),
  ('S', [0x0F, 0x10, 0x10, 0x0E, 0x01, 0x01, 0x1E]),
  ('T', [0x1F, 0x04, 0x04, 0x04, 0x04, 0x04, 0x04]),
  ('U', [0x11, 0x11, 0x11, 0x11, 0x11, 0x11, 0x0E]),
  ('V', [0x11, 0x11, 0x11, 0x11, 0x0A, 0x0A, 0x04]),
  ('W', [0x11, 0x11, 0x11, 0x15, 0x15, 0x15, 0x0A]),
  ('X', [0x11, 0x0A, 0x04, 0x04, 0x04, 0x0A, 0x11]),
  ('Y', [0x11, 0x0A, 0x04, 0x04, 0x04, 0x04, 0x04]),
  ('Z', [0x1F, 0x01, 0x02, 0x04, 0x08, 0x10, 0x1F]),
  ('0', [0x0E, 0x11, 0x13, 0x15, 0x19, 0x11, 0x0E]),
  ('1', [0x04, 0x0C, 0x04, 0x04, 0x04, 0x04, 0x0E]),
  ('2', [0x0E, 0x11, 0x01, 0x02, 0x04, 0x08, 0x1F]),
  ('3', [0x1E, 0x01, 0x01, 0x0E, 0x01, 0x01, 0x1E]),
  ('4', [0x02, 0x06, 0x0A, 0x12, 0x1F, 0x02, 0x02]),
  ('5', [0x1F, 0x10, 0x10, 0x1E, 0x01, 0x01, 0x1E]),
  ('6', [0x0E, 0x10, 0x10, 0x1E, 0x11, 0x11, 0x0E]),
  ('7', [0x1F, 0x01, 0x02, 0x04, 0x08, 0x08, 0x08]),
  ('8', [0x0E, 0x11, 0x11, 0x0E, 0x11, 0x11, 0x0E]),
  ('9', [0x0E, 0x11, 0x11, 0x0F, 0x01, 0x01, 0x0E]),
  ('.', [0x00, 0x00, 0x00, 0x00, 0x00, 0x0C, 0x0C]),
  (':', [0x00, 0x0C, 0x0C, 0x00, 0x0C, 0x0C, 0x00]),
  ('%', [0x18, 0x19, 0x02, 0x04, 0x08, 0x13, 0x03]),
  ('>', [0x10, 0x08, 0x04, 0x02, 0x04, 0x08, 0x10]),
  ('-', [0x00, 0x00, 0x00, 0x1F, 0x00, 0x00, 0x00]),
  (' ', [0x00, 0x00, 0x00, 0x00, 0x00, 0x00, 0x00])]

/-- Its default. -/
def kUnknownGlyph : List UInt8 := [0x1F, 0x01, 0x02, 0x04, 0x00, 0x04, 0x00]

def glyphRow (c : UInt8) (row : Nat) : UInt8 :=
  let c := if c ≥ 'a'.toUInt8 ∧ c ≤ 'z'.toUInt8 then c - 'a'.toUInt8 + 'A'.toUInt8 else c
  (((kGlyphs.find? fun glyph => glyph.1.toUInt8 == c).map Prod.snd).getD kUnknownGlyph).getD row 0

/-! ## Shapes -/

/-- `Graphics::DrawRect`. -/
def drawRect (info : FramebufferInfo) (rect : Rect) (color : UInt32) : List Dot :=
  if rect.width = 0 ∨ rect.height = 0 then []
  else
    fillRect info ⟨rect.x, rect.y, rect.width, 2⟩ color ++
      fillRect info ⟨rect.x, rect.y + rect.height - 2, rect.width, 2⟩ color ++
      fillRect info ⟨rect.x, rect.y, 2, rect.height⟩ color ++
      fillRect info ⟨rect.x + rect.width - 2, rect.y, 2, rect.height⟩ color

def drawChar (info : FramebufferInfo) (x y : UInt32) (c : UInt8) (color : UInt32) : List Dot :=
  (List.range 7).flatMap fun row => (List.range 5).flatMap fun col =>
    if (glyphRow c row).toUInt32 &&& (1 <<< (4 - UInt32.ofNat col)) ≠ 0 then
      fillRect info ⟨x + UInt32.ofNat col * 2, y + UInt32.ofNat row * 2, 2, 2⟩ color
    else []

def drawText (info : FramebufferInfo) (x y : UInt32) (t : Text) (color : UInt32) : List Dot :=
  match t with
  | []     => []
  | c :: t => drawChar info x y c color ++ drawText info (x + 12) y t color

/-- `DrawText` of a `const char*`, which may be null. -/
def drawCText (info : FramebufferInfo) (x y : UInt32) (t : Option String) (color : UInt32) : List Dot :=
  drawText info x y ((t.map text).getD []) color

/-- `CopyTextLimited`. -/
def copyTextLimited (capacity : Nat) (source : Option String) (maxChars : Nat) : Text :=
  (copyText capacity ((source.map text).getD [])).take maxChars

def drawImage (info : FramebufferInfo) (rect : Rect) (color : UInt32) : List Dot := fillRect info rect color

/-! ## Where a shape can reach -/

/-- The four edges of a part of the screen, the right and the lower one outside. -/
structure Area where
  left   : Nat
  top    : Nat
  right  : Nat
  bottom : Nat

/-- All dots lie in the area. -/
def Area.Holds (area : Area) (dots : List Dot) : Prop :=
  ∀ dot ∈ dots, (area.left ≤ dot.x.toNat ∧ dot.x.toNat < area.right) ∧ area.top ≤ dot.y.toNat ∧ dot.y.toNat < area.bottom

/-- The shape's edges are in the area, and the area's are coordinates. -/
structure Area.Spans (area : Area) (x y width height : Nat) : Prop where
  left   : area.left ≤ x
  right  : x + width ≤ area.right
  top    : area.top ≤ y
  bottom : y + height ≤ area.bottom
  limit  : area.right < 2 ^ 32 ∧ area.bottom < 2 ^ 32

namespace Area

variable {area : Area} {info : FramebufferInfo} {dots dots' : List Dot} {rect : Rect} {x y : UInt32} (color : UInt32)

@[simp] theorem holds_nil (area : Area) : area.Holds [] := fun _ h => by cases h

@[simp] theorem holds_append : area.Holds (dots ++ dots') ↔ area.Holds dots ∧ area.Holds dots' := by
  unfold Holds
  simp only [List.mem_append]
  exact ⟨fun h => ⟨fun dot hdot => h dot (Or.inl hdot), fun dot hdot => h dot (Or.inr hdot)⟩,
    fun h dot hdot => hdot.elim (h.1 dot) (h.2 dot)⟩

theorem holds_flatMap {ι : Type} {l : List ι} {f : ι → List Dot} (h : ∀ i ∈ l, area.Holds (f i)) :
    area.Holds (l.flatMap f) := by
  intro dot hdot
  obtain ⟨i, hi, hdot⟩ := List.mem_flatMap.mp hdot
  exact h i hi dot hdot

theorem holds_fillRect (h : area.Spans rect.x.toNat rect.y.toNat rect.width.toNat rect.height.toNat) :
    area.Holds (fillRect info rect color) := by
  obtain ⟨hleft, hright, htop, hbottom, hlimit⟩ := h
  intro dot hdot
  unfold fillRect at hdot
  obtain ⟨p, hp, rfl⟩ := List.mem_map.mp hdot
  have hmaxX := toNat_min (rect.x + rect.width) info.width
  have hmaxY := toNat_min (rect.y + rect.height) info.height
  rw [toNat_add (by omega)] at hmaxX hmaxY
  rw [mem_points, hmaxX, hmaxY] at hp
  dsimp only
  omega

/-- A frame of a rectangle that has room for it. -/
theorem holds_drawRect (h : area.Spans rect.x.toNat rect.y.toNat rect.width.toNat rect.height.toNat)
    (hwidth : 2 ≤ rect.width.toNat) (hheight : 2 ≤ rect.height.toNat) : area.Holds (drawRect info rect color) := by
  obtain ⟨hleft, hright, htop, hbottom, hlimit⟩ := h
  have htwo : (2 : UInt32).toNat = 2 := rfl
  have hlast : ∀ (v size : UInt32), v.toNat + size.toNat < 2 ^ 32 → 2 ≤ size.toNat →
      (v + size - 2).toNat = v.toNat + size.toNat - 2 := by
    intro v size hv hsize
    have hsum := toNat_add hv
    rw [UInt32.toNat_sub_of_le _ _ (UInt32.le_iff_toNat_le.mpr (by omega)), hsum, htwo]
  have hlastX := hlast rect.x rect.width (by omega) hwidth
  have hlastY := hlast rect.y rect.height (by omega) hheight
  unfold drawRect
  split
  next => exact holds_nil area
  next =>
    simp only [holds_append]
    refine ⟨⟨⟨?_, ?_⟩, ?_⟩, ?_⟩ <;> exact holds_fillRect color
      ⟨by dsimp only; omega, by dsimp only; omega, by dsimp only; omega, by dsimp only; omega, hlimit⟩

theorem holds_drawChar (c : UInt8) (h : area.Spans x.toNat y.toNat 12 14) : area.Holds (drawChar info x y c color) := by
  obtain ⟨hleft, hright, htop, hbottom, hlimit⟩ := h
  refine holds_flatMap fun row hrow => holds_flatMap fun col hcol => ?_
  rw [List.mem_range] at hrow hcol
  have htwo : (2 : UInt32).toNat = 2 := rfl
  have hstep : ∀ (v : UInt32) (n : Nat), v.toNat + n * 2 < 2 ^ 32 → n < 7 →
      (v + UInt32.ofNat n * 2).toNat = v.toNat + n * 2 := by
    intro v n hv hn
    rw [UInt32.toNat_add, UInt32.toNat_mul, UInt32.toNat_ofNat', htwo]
    omega
  have hcolX := hstep x col (by omega) (by omega)
  have hrowY := hstep y row (by omega) hrow
  split
  next =>
    exact holds_fillRect color ⟨by dsimp only; omega, by dsimp only; omega, by dsimp only; omega, by dsimp only; omega, hlimit⟩
  next => exact holds_nil area

/-- A text of a number of characters, each twelve pixels wide. -/
theorem holds_drawText {t : Text} (h : area.Spans x.toNat y.toNat (12 * t.length) 14) :
    area.Holds (drawText info x y t color) := by
  induction t generalizing x with
  | nil => exact holds_nil area
  | cons c t ih =>
      obtain ⟨hleft, hright, htop, hbottom, hlimit⟩ := h
      rw [List.length_cons] at hright
      have htwelve : (12 : UInt32).toNat = 12 := rfl
      have hnext : (x + 12).toNat = x.toNat + 12 := toNat_add (by omega)
      unfold drawText
      rw [holds_append]
      exact ⟨holds_drawChar color c ⟨by omega, by omega, htop, hbottom, hlimit⟩,
        ih ⟨by omega, by omega, htop, hbottom, hlimit⟩⟩

/-- A line between two points. -/
theorem holds_drawLine {x0 y0 x1 y1 : Int32} (hx0 : area.left ≤ x0.toInt) (hx0' : x0.toInt < area.right)
    (hx1 : area.left ≤ x1.toInt) (hx1' : x1.toInt < area.right) (hy0 : area.top ≤ y0.toInt) (hy0' : y0.toInt < area.bottom)
    (hy1 : area.top ≤ y1.toInt) (hy1' : y1.toInt < area.bottom) (hlimit : area.right ≤ 2 ^ 29 ∧ area.bottom ≤ 2 ^ 29) :
    area.Holds (drawLine x0 y0 x1 y1 color) := by
  intro dot hdot
  have hbox := drawLine_box (by omega) (by omega) dot hdot
  omega

end Area

theorem length_copyTextLimited_le (capacity : Nat) (source : Option String) (maxChars : Nat) :
    (copyTextLimited capacity source maxChars).length ≤ maxChars := List.length_take_le _ _

end Gui
end UefiBoot
