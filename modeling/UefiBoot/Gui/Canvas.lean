import UefiBoot.Gui.Windows
import UefiBoot.Lib.Stores

/-!
# `Gui.Canvas` — pixels

Everything is drawn by `DrawPixel`, into the back buffer or into the framebuffer, whichever `g_DrawTarget` says, and
inside the clip rectangle when there is one. A buffer is a memory of pixels by their index, the `uint32_t` that the
source computes; the back buffer has `kBackBufferPixels` of them.
-/

namespace UefiBoot
namespace Gui

def kBackBufferMaxWidth : UInt32 := 2048
def kBackBufferMaxHeight : UInt32 := 2048
def kBackBufferPixels : UInt32 := kBackBufferMaxWidth * kBackBufferMaxHeight

/-- A buffer. -/
abbrev Pixels := UInt32 → UInt32

/-- One call of `DrawPixel`: a point and its colour. -/
structure Dot where
  x     : UInt32
  y     : UInt32
  color : UInt32
  deriving DecidableEq

/-- The globals of drawing. `g_DrawTarget` is null or the back buffer. -/
structure Canvas where
  info         : FramebufferInfo := {}
  framebuffer  : Pixels := fun _ => 0
  backBuffer   : Pixels := fun _ => 0
  toBackBuffer : Bool := false
  drawStride   : UInt32 := 0
  clipRect     : Rect := {}
  clipEnabled  : Bool := false

def rectEmpty (rect : Rect) : Bool := rect.width == 0 || rect.height == 0

def intersectRect (a b : Rect) : Rect :=
  let ax2 := a.x + a.width
  let ay2 := a.y + a.height
  let bx2 := b.x + b.width
  let by2 := b.y + b.height
  let x1 := if a.x > b.x then a.x else b.x
  let y1 := if a.y > b.y then a.y else b.y
  let x2 := if ax2 < bx2 then ax2 else bx2
  let y2 := if ay2 < by2 then ay2 else by2
  if x2 ≤ x1 ∨ y2 ≤ y1 then {} else { x := x1, y := y1, width := x2 - x1, height := y2 - y1 }

def screenRect (framebuffer : FramebufferInfo) : Rect :=
  { x := 0, y := 0, width := framebuffer.width, height := framebuffer.height }

/-- `for (uint32_t i = first; i < last; i++)`. -/
def span (first last : UInt32) : List UInt32 :=
  (List.range (last.toNat - first.toNat)).map fun i => first + UInt32.ofNat i

/-- The two loops over the rows and columns from one corner to the other. -/
def points (x1 y1 x2 y2 : UInt32) : List (UInt32 × UInt32) :=
  (span y1 y2).flatMap fun y => (span x1 x2).map fun x => (x, y)

/-- Where a pixel is in the framebuffer. -/
def frontAddress (info : FramebufferInfo) (x y : UInt32) : UInt32 := y * info.pixelsPerScanline + x

namespace Canvas

def convertColor (c : Canvas) (color : UInt32) : UInt32 :=
  let red := (color >>> 16) &&& 0xFF
  let green := (color >>> 8) &&& 0xFF
  let blue := color &&& 0xFF
  if c.info.format = 0 then red ||| (green <<< 8) ||| (blue <<< 16) else blue ||| (green <<< 8) ||| (red <<< 16)

def activeStride (c : Canvas) : UInt32 := if c.toBackBuffer then c.drawStride else c.info.pixelsPerScanline

/-- `g_BackBufferReady`: `KernelGuiInit` sets it once, for the framebuffer it is given. -/
def backBufferReady (c : Canvas) : Bool :=
  c.info.width ≤ kBackBufferMaxWidth && c.info.height ≤ kBackBufferMaxHeight

def beginDrawToFramebuffer (c : Canvas) : Canvas :=
  { c with toBackBuffer := false, drawStride := 0, clipEnabled := false }

def beginDrawToBackBuffer (c : Canvas) (clip : Rect) : Canvas :=
  { c with
    toBackBuffer := true
    drawStride := kBackBufferMaxWidth
    clipRect := intersectRect clip (screenRect c.info)
    clipEnabled := true }

/-- The index that `DrawPixel` stores to, unless the point is clipped. -/
def target (c : Canvas) (x y : UInt32) : Option UInt32 :=
  if x ≥ c.info.width ∨ y ≥ c.info.height then none
  else if c.clipEnabled && !pointInRect x.toInt32 y.toInt32 c.clipRect then none
  else some (y * c.activeStride + x)

/-- A store through `ActivePixels`. -/
def store (c : Canvas) (i value : UInt32) : Canvas :=
  if c.toBackBuffer then { c with backBuffer := Function.update c.backBuffer i value }
  else { c with framebuffer := Function.update c.framebuffer i value }

def drawPixel (c : Canvas) (dot : Dot) : Canvas :=
  match c.target dot.x dot.y with
  | none   => c
  | some i => c.store i (c.convertColor dot.color)

/-- A sequence of calls. -/
def draw (c : Canvas) (dots : List Dot) : Canvas := dots.foldl drawPixel c

def readRawPixel (c : Canvas) (x y : UInt32) : UInt32 :=
  if x ≥ c.info.width ∨ y ≥ c.info.height then 0 else c.framebuffer (y * c.info.pixelsPerScanline + x)

def writeRawPixel (c : Canvas) (x y value : UInt32) : Canvas :=
  if x ≥ c.info.width ∨ y ≥ c.info.height then c
  else { c with framebuffer := Function.update c.framebuffer (y * c.info.pixelsPerScanline + x) value }

/-- The body of the loops of `CopyBackBufferToFramebuffer`. -/
def copyPixel (c : Canvas) (point : UInt32 × UInt32) : Canvas :=
  let value := c.backBuffer (point.2 * kBackBufferMaxWidth + point.1)
  { c with framebuffer := Function.update c.framebuffer (point.2 * c.info.pixelsPerScanline + point.1) value }

def copyBackBufferToFramebuffer (c : Canvas) (dirty : Rect) : Canvas :=
  let clipped := intersectRect dirty (screenRect c.info)
  if !c.backBufferReady || rectEmpty clipped then c
  else
    (points clipped.x clipped.y (clipped.x + clipped.width) (clipped.y + clipped.height)).foldl copyPixel c

/-! ## Sequences of stores -/

/-- The stores of a sequence of calls. -/
def stores (c : Canvas) (dots : List Dot) : List (UInt32 × UInt32) :=
  dots.filterMap fun dot => (c.target dot.x dot.y).map fun i => (i, c.convertColor dot.color)

theorem stores_cons_none {c : Canvas} {dot : Dot} (h : c.target dot.x dot.y = none) (dots : List Dot) :
    c.stores (dot :: dots) = c.stores dots := by
  unfold stores
  rw [List.filterMap_cons, h]
  rfl

theorem stores_cons_some {c : Canvas} {dot : Dot} {i : UInt32} (h : c.target dot.x dot.y = some i) (dots : List Dot) :
    c.stores (dot :: dots) = (i, c.convertColor dot.color) :: c.stores dots := by
  unfold stores
  rw [List.filterMap_cons, h]
  rfl

/-- Drawing into the back buffer changes that and nothing else. -/
theorem draw_backBuffer {c : Canvas} (h : c.toBackBuffer = true) (dots : List Dot) :
    c.draw dots = { c with backBuffer := Lib.storeAll c.backBuffer (c.stores dots) } := by
  induction dots generalizing c with
  | nil => rfl
  | cons dot dots ih =>
      show (c.drawPixel dot).draw dots = _
      unfold drawPixel
      cases htarget : c.target dot.x dot.y with
      | none => rw [ih h, stores_cons_none htarget]
      | some i =>
          have hstore : c.store i (c.convertColor dot.color) =
              { c with backBuffer := Function.update c.backBuffer i (c.convertColor dot.color) } := if_pos h
          dsimp only
          rw [hstore, stores_cons_some htarget, Lib.storeAll_cons]
          exact ih (c := { c with backBuffer := _ }) h

/-- Drawing into the framebuffer changes that and nothing else. -/
theorem draw_framebuffer {c : Canvas} (h : c.toBackBuffer = false) (dots : List Dot) :
    c.draw dots = { c with framebuffer := Lib.storeAll c.framebuffer (c.stores dots) } := by
  induction dots generalizing c with
  | nil => rfl
  | cons dot dots ih =>
      show (c.drawPixel dot).draw dots = _
      unfold drawPixel
      cases htarget : c.target dot.x dot.y with
      | none => rw [ih h, stores_cons_none htarget]
      | some i =>
          have hstore : c.store i (c.convertColor dot.color) =
              { c with framebuffer := Function.update c.framebuffer i (c.convertColor dot.color) } :=
            if_neg (by rw [h]; exact Bool.false_ne_true)
          dsimp only
          rw [hstore, stores_cons_some htarget, Lib.storeAll_cons]
          exact ih (c := { c with framebuffer := _ }) h

/-- The copy changes the framebuffer and nothing else. -/
theorem copyPixels_eq (c : Canvas) (l : List (UInt32 × UInt32)) :
    l.foldl copyPixel c =
      { c with framebuffer := Lib.storeAll c.framebuffer (l.map fun p =>
          (p.2 * c.info.pixelsPerScanline + p.1, c.backBuffer (p.2 * kBackBufferMaxWidth + p.1))) } := by
  induction l generalizing c with
  | nil => rfl
  | cons p l ih => exact ih (c.copyPixel p)

end Canvas

/-! ## A point in a rectangle -/

/-- The point lies in the rectangle. -/
def Rect.Covers (rect : Rect) (x y : Int32) : Prop :=
  (rect.x.toNat : Int) ≤ x.toInt ∧ x.toInt < rect.x.toNat + rect.width.toNat ∧
    (rect.y.toNat : Int) ≤ y.toInt ∧ y.toInt < rect.y.toNat + rect.height.toNat

instance (rect : Rect) (x y : Int32) : Decidable (rect.Covers x y) := inferInstanceAs (Decidable (_ ∧ _))

theorem toNat_add {a b : UInt32} (h : a.toNat + b.toNat < 2 ^ 32) : (a + b).toNat = a.toNat + b.toNat := by
  rw [UInt32.toNat_add, Nat.mod_eq_of_lt h]

/-- The casts of `PointInRect` are right as long as the lower edge is a coordinate. -/
theorem pointInRect_iff {rect : Rect} {x y : Int32} (hx : 0 ≤ x.toInt) (hy : 0 ≤ y.toInt)
    (hright : rect.x.toNat + rect.width.toNat < 2 ^ 31) (hbottom : rect.y.toNat + rect.height.toNat < 2 ^ 32) :
    pointInRect x y rect = true ↔ rect.Covers x y ∧ rect.y.toNat + rect.height.toNat < 2 ^ 31 := by
  have hxcast := toInt32_toInt rect.x
  have hycast := toInt32_toInt rect.y
  have hxedge := toInt32_toInt (rect.x + rect.width)
  have hyedge := toInt32_toInt (rect.y + rect.height)
  rw [toNat_add (by omega)] at hxedge hyedge
  have hxlt := x.toInt_lt
  have hylt := y.toInt_lt
  unfold pointInRect Rect.Covers
  simp only [Bool.and_eq_true, decide_eq_true_eq, ge_iff_le, Int32.le_iff_toInt_le, Int32.lt_iff_toInt_lt]
  omega

/-! ## Loops -/

theorem toNat_max (a b : UInt32) : (if a > b then a else b).toNat = max a.toNat b.toNat := by
  split_ifs with h
  · rw [gt_iff_lt, UInt32.lt_iff_toNat_lt] at h
    omega
  · rw [gt_iff_lt, UInt32.lt_iff_toNat_lt] at h
    omega

theorem toNat_min (a b : UInt32) : (if a < b then a else b).toNat = min a.toNat b.toNat := by
  split_ifs with h
  · rw [UInt32.lt_iff_toNat_lt] at h
    omega
  · rw [UInt32.lt_iff_toNat_lt] at h
    omega

theorem mem_span {first last i : UInt32} : i ∈ span first last ↔ first.toNat ≤ i.toNat ∧ i.toNat < last.toNat := by
  have hfirst := first.toNat_lt
  have hlast := last.toNat_lt
  unfold span
  rw [List.mem_map]
  constructor
  · rintro ⟨n, hn, rfl⟩
    rw [List.mem_range] at hn
    rw [UInt32.toNat_add, UInt32.toNat_ofNat']
    omega
  · rintro ⟨hle, hlt⟩
    refine ⟨i.toNat - first.toNat, List.mem_range.mpr (by omega), ?_⟩
    apply UInt32.toNat_inj.mp
    rw [UInt32.toNat_add, UInt32.toNat_ofNat']
    omega

theorem mem_points {x1 y1 x2 y2 : UInt32} {p : UInt32 × UInt32} :
    p ∈ points x1 y1 x2 y2 ↔
      (x1.toNat ≤ p.1.toNat ∧ p.1.toNat < x2.toNat) ∧ y1.toNat ≤ p.2.toNat ∧ p.2.toNat < y2.toNat := by
  unfold points
  rw [List.mem_flatMap]
  constructor
  · rintro ⟨y, hy, hp⟩
    obtain ⟨x, hx, rfl⟩ := List.mem_map.mp hp
    exact ⟨mem_span.mp hx, mem_span.mp hy⟩
  · rintro ⟨hx, hy⟩
    exact ⟨p.2, mem_span.mpr hy, List.mem_map.mpr ⟨p.1, mem_span.mpr hx, rfl⟩⟩

end Gui
end UefiBoot
