import UefiBoot.Boot.Console

/-!
# `Boot.ConsoleText` — text on the console

`PutChar` moves the cursor to the next line where a character would cross the right margin, and calls `Scroll` where it
would cross the bottom one. `Scroll` clears the screen and writes a message, with the same `PutChar`. So a `Scroll` inside
a `Scroll` starts from the very state that the outer one started from, and there is no way out: the recursion ends if
and only if the message, which begins at the margins like any text, never reaches the bottom (`messageFits_iff`).
Otherwise the console can hold what fits on the first screen and nothing more (`writeLaw_iff`).

Whatever is written, and also what an endless recursion draws on its way, lies on the framebuffer (`inside_writeText`).
-/

namespace UefiBoot

/-! ## Characters -/

/-- `font8x8_kernel`: 32 empty rows, and the glyphs from the space on. -/
def font8x8Kernel : List (List UInt8) :=
  List.replicate 32 [0, 0, 0, 0, 0, 0, 0, 0] ++ [
    [0, 0, 0, 0, 0, 0, 0, 0], [0x18, 0x18, 0x18, 0x18, 0, 0, 0x18, 0], [0x36, 0x36, 0, 0, 0, 0, 0, 0],
    [0x36, 0x7f, 0x36, 0x36, 0x7f, 0x36, 0x36, 0], [0x18, 0x3e, 0x60, 0x3c, 0x06, 0x7c, 0x18, 0],
    [0, 0x66, 0x30, 0x18, 0x0c, 0x66, 0, 0], [0x38, 0x6c, 0x38, 0x76, 0xdc, 0xcc, 0x76, 0],
    [0x18, 0x18, 0x18, 0, 0, 0, 0, 0], [0x0c, 0x18, 0x30, 0x30, 0x30, 0x18, 0x0c, 0],
    [0x30, 0x18, 0x0c, 0x0c, 0x0c, 0x18, 0x30, 0], [0, 0x66, 0x3c, 0xff, 0x3c, 0x66, 0, 0],
    [0, 0x18, 0x18, 0x7e, 0x18, 0x18, 0, 0], [0, 0, 0, 0, 0x18, 0x18, 0x08, 0x10], [0, 0, 0, 0x7e, 0, 0, 0, 0],
    [0, 0, 0, 0, 0, 0x18, 0x18, 0], [0, 0x03, 0x06, 0x0c, 0x18, 0x30, 0x60, 0],
    [0x3c, 0x66, 0x6e, 0x76, 0x66, 0x66, 0x3c, 0], [0x18, 0x1c, 0x18, 0x18, 0x18, 0x18, 0x7e, 0],
    [0x3e, 0x66, 0x06, 0x1c, 0x30, 0x62, 0x7e, 0], [0x3e, 0x66, 0x06, 0x1e, 0x06, 0x66, 0x3e, 0],
    [0x06, 0x0e, 0x1e, 0x36, 0x7e, 0x06, 0x06, 0], [0x7e, 0x60, 0x7c, 0x06, 0x06, 0x66, 0x3c, 0],
    [0x1c, 0x30, 0x60, 0x7c, 0x66, 0x66, 0x3c, 0], [0x7e, 0x66, 0x06, 0x0c, 0x18, 0x18, 0x18, 0],
    [0x3c, 0x66, 0x66, 0x3c, 0x66, 0x66, 0x3c, 0], [0x3c, 0x66, 0x66, 0x3e, 0x06, 0x0c, 0x38, 0],
    [0, 0x18, 0x18, 0, 0, 0x18, 0x18, 0], [0, 0x18, 0x18, 0, 0x18, 0x18, 0x08, 0x10],
    [0x0c, 0x18, 0x30, 0x60, 0x30, 0x18, 0x0c, 0], [0, 0x7e, 0, 0x7e, 0, 0, 0, 0],
    [0x30, 0x18, 0x0c, 0x06, 0x0c, 0x18, 0x30, 0], [0x3c, 0x66, 0x06, 0x0c, 0x18, 0, 0x18, 0],
    [0x3c, 0x66, 0x6e, 0x6e, 0x60, 0x62, 0x3c, 0], [0x18, 0x3c, 0x66, 0x66, 0x7e, 0x66, 0x66, 0],
    [0x7c, 0x66, 0x66, 0x7c, 0x66, 0x66, 0x7c, 0], [0x3e, 0x66, 0x60, 0x60, 0x60, 0x66, 0x3e, 0],
    [0x78, 0x6c, 0x66, 0x66, 0x66, 0x6c, 0x78, 0], [0x7e, 0x60, 0x60, 0x78, 0x60, 0x60, 0x7e, 0],
    [0x7e, 0x60, 0x60, 0x78, 0x60, 0x60, 0x60, 0], [0x3c, 0x66, 0x60, 0x6e, 0x66, 0x66, 0x3e, 0],
    [0x66, 0x66, 0x66, 0x7e, 0x66, 0x66, 0x66, 0], [0x7e, 0x18, 0x18, 0x18, 0x18, 0x18, 0x7e, 0],
    [0x06, 0x06, 0x06, 0x06, 0x66, 0x66, 0x3c, 0], [0x66, 0x6c, 0x78, 0x70, 0x78, 0x6c, 0x66, 0],
    [0x60, 0x60, 0x60, 0x60, 0x60, 0x60, 0x7e, 0], [0x63, 0x77, 0x7f, 0x6b, 0x63, 0x63, 0x63, 0],
    [0x66, 0x66, 0x76, 0x7e, 0x6e, 0x66, 0x66, 0], [0x3c, 0x66, 0x66, 0x66, 0x66, 0x66, 0x3c, 0],
    [0x7c, 0x66, 0x66, 0x7c, 0x60, 0x60, 0x60, 0], [0x3c, 0x66, 0x66, 0x66, 0x66, 0x3c, 0x0e, 0],
    [0x7c, 0x66, 0x66, 0x7c, 0x78, 0x6c, 0x66, 0], [0x3e, 0x66, 0x60, 0x3c, 0x06, 0x66, 0x3c, 0],
    [0x7e, 0x18, 0x18, 0x18, 0x18, 0x18, 0x18, 0], [0x66, 0x66, 0x66, 0x66, 0x66, 0x66, 0x3c, 0],
    [0x66, 0x66, 0x66, 0x66, 0x66, 0x3c, 0x18, 0], [0x63, 0x63, 0x63, 0x6b, 0x7f, 0x77, 0x63, 0],
    [0x66, 0x66, 0x3c, 0x18, 0x3c, 0x66, 0x66, 0], [0x66, 0x66, 0x66, 0x3c, 0x18, 0x18, 0x18, 0],
    [0x7e, 0x06, 0x0c, 0x18, 0x30, 0x60, 0x7e, 0], [0x3c, 0x30, 0x30, 0x30, 0x30, 0x30, 0x3c, 0],
    [0, 0x60, 0x30, 0x18, 0x0c, 0x06, 0x03, 0], [0x3c, 0x0c, 0x0c, 0x0c, 0x0c, 0x0c, 0x3c, 0],
    [0x08, 0x1c, 0x36, 0x63, 0, 0, 0, 0], [0, 0, 0, 0, 0, 0, 0xff, 0], [0x18, 0x18, 0x0c, 0, 0, 0, 0, 0],
    [0, 0, 0x3c, 0x06, 0x3e, 0x66, 0x3b, 0], [0x60, 0x60, 0x7c, 0x66, 0x66, 0x66, 0x7c, 0],
    [0, 0, 0x3c, 0x66, 0x60, 0x66, 0x3c, 0], [0x06, 0x06, 0x3e, 0x66, 0x66, 0x66, 0x3e, 0],
    [0, 0, 0x3c, 0x66, 0x7e, 0x60, 0x3c, 0], [0x1c, 0x30, 0x7c, 0x30, 0x30, 0x30, 0x30, 0],
    [0, 0, 0x3e, 0x66, 0x66, 0x3e, 0x06, 0x3c], [0x60, 0x60, 0x7c, 0x66, 0x66, 0x66, 0x66, 0],
    [0x18, 0, 0x38, 0x18, 0x18, 0x18, 0x3c, 0], [0x06, 0, 0x0e, 0x06, 0x06, 0x06, 0x06, 0x3c],
    [0x60, 0x60, 0x66, 0x6c, 0x78, 0x6c, 0x66, 0], [0x38, 0x18, 0x18, 0x18, 0x18, 0x18, 0x3c, 0],
    [0, 0, 0x6e, 0x7f, 0x6b, 0x63, 0x63, 0], [0, 0, 0x7c, 0x66, 0x66, 0x66, 0x66, 0],
    [0, 0, 0x3c, 0x66, 0x66, 0x66, 0x3c, 0], [0, 0, 0x7c, 0x66, 0x66, 0x7c, 0x60, 0x60],
    [0, 0, 0x3e, 0x66, 0x66, 0x3e, 0x06, 0x06], [0, 0, 0x7c, 0x66, 0x60, 0x60, 0x60, 0],
    [0, 0, 0x3e, 0x60, 0x3c, 0x06, 0x7c, 0], [0x18, 0x18, 0x7e, 0x18, 0x18, 0x18, 0x0d, 0x06],
    [0, 0, 0x66, 0x66, 0x66, 0x66, 0x3b, 0], [0, 0, 0x66, 0x66, 0x66, 0x3c, 0x18, 0],
    [0, 0, 0x63, 0x6b, 0x7f, 0x36, 0x22, 0], [0, 0, 0x66, 0x3c, 0x18, 0x3c, 0x66, 0],
    [0, 0, 0x66, 0x66, 0x66, 0x3e, 0x06, 0x3c], [0, 0, 0x7e, 0x0c, 0x18, 0x30, 0x7e, 0],
    [0x0e, 0x18, 0x18, 0x70, 0x18, 0x18, 0x0e, 0], [0x18, 0x18, 0x18, 0, 0x18, 0x18, 0x18, 0],
    [0x70, 0x18, 0x18, 0x0e, 0x18, 0x18, 0x70, 0], [0x76, 0xdc, 0, 0, 0, 0, 0, 0], [0, 0, 0, 0, 0, 0, 0, 0]]

namespace FramebufferInfo

/-- `DrawChar`: each bit of the glyph is a square of four pixels. -/
def drawChar (framebuffer : FramebufferInfo) (x y : UInt32) (c : UInt8) (color : UInt32) (m : Lib.Bytes) : Lib.Bytes :=
  let code := if c ≥ 128 then '?'.toUInt8 else c
  let glyph := font8x8Kernel.getD code.toNat []
  (List.range 8).foldl
    (fun m gy =>
      (List.range 8).foldl
        (fun m gx =>
          if glyph.getD gy 0 &&& (1 <<< UInt8.ofNat (7 - gx)) ≠ 0 then
            let x := x + UInt32.ofNat (gx * 2)
            let y := y + UInt32.ofNat (gy * 2)
            let m := framebuffer.drawPixel x y color m
            let m := framebuffer.drawPixel (x + 1) y color m
            let m := framebuffer.drawPixel x (y + 1) color m
            framebuffer.drawPixel (x + 1) (y + 1) color m
          else m) m) m

end FramebufferInfo

/-! ## Writing -/

namespace KernelConsole

def kGlyphWidth : UInt32 := 16
def kGlyphHeight : UInt32 := 16
def kAdvanceX : UInt32 := 18
def kAdvanceY : UInt32 := 22
def kColorInfo : UInt32 := 0xFF4CC9F0

/-- What writing leaves, and whether it has returned. -/
structure Drawn where
  returned : Bool
  console  : KernelConsole
  memory   : Lib.Bytes

def newLine (c : KernelConsole) : KernelConsole := { c with mCursorX := kMarginX, mCursorY := c.mCursorY + kAdvanceY }

/-- The wrap at the right margin. -/
def wrap (framebuffer : FramebufferInfo) (c : KernelConsole) : KernelConsole :=
  if c.mCursorX + kGlyphWidth > framebuffer.width - kMarginX then c.newLine else c

/-- The test for the bottom margin. -/
def AtBottom (framebuffer : FramebufferInfo) (c : KernelConsole) : Prop :=
  c.mCursorY + kGlyphHeight > framebuffer.height - kMarginY

instance (framebuffer : FramebufferInfo) (c : KernelConsole) : Decidable (AtBottom framebuffer c) := by
  unfold AtBottom
  infer_instance

def advance (c : KernelConsole) : KernelConsole := { c with mCursorX := c.mCursorX + kAdvanceX }

/-- `PutChar`, over what `Scroll` does. -/
def putChar (scroll : KernelConsole → Lib.Bytes → Drawn) (ch : UInt8) (color : UInt32) (c : KernelConsole)
    (m : Lib.Bytes) : Drawn :=
  match c.mFramebuffer with
  | none             => ⟨true, c, m⟩
  | some framebuffer =>
    if ch = '\n'.toUInt8 then ⟨true, c.newLine, m⟩
    else
      let c := wrap framebuffer c
      let r := if AtBottom framebuffer c then scroll c m else ⟨true, c, m⟩
      if r.returned then
        ⟨true, r.console.advance, framebuffer.drawChar r.console.mCursorX r.console.mCursorY ch color r.memory⟩
      else r

/-- The loop of `Write`. The text is the characters before the terminator; for a null pointer there are none. -/
def writeText (scroll : KernelConsole → Lib.Bytes → Drawn) :
    List UInt8 → UInt32 → KernelConsole → Lib.Bytes → Drawn
  | [], _, c, m             => ⟨true, c, m⟩
  | ch :: text, color, c, m =>
    let r := putChar scroll ch color c m
    if r.returned then writeText scroll text color r.console r.memory else r

def scrollMessage : List UInt8 := "[INFO] Console scroll reset\n".toList.map Char.toUInt8

/-- `Scroll`, with at most `nesting` of them at a time; where there would be more, it does not return. -/
def scroll : Nat → KernelConsole → Lib.Bytes → Drawn
  | 0, c, m           => ⟨false, c, m⟩
  | nesting + 1, c, m =>
    let cleared := c.clear kColorBackground m
    writeText (scroll nesting) scrollMessage kColorInfo cleared.1 cleared.2

/-- `Write`, with room on the stack for `nesting` calls of `Scroll`. -/
def write (c : KernelConsole) (nesting : Nat) (text : List UInt8) (color : UInt32) (m : Lib.Bytes) : Drawn :=
  writeText (scroll nesting) text color c m

/-! ## One character -/

section

variable {framebuffer : FramebufferInfo} {scroller : KernelConsole → Lib.Bytes → Drawn} {ch : UInt8} {color : UInt32}
  {c : KernelConsole} {m : Lib.Bytes}

@[simp] theorem newLine_mFramebuffer (c : KernelConsole) : c.newLine.mFramebuffer = c.mFramebuffer := rfl
@[simp] theorem advance_mFramebuffer (c : KernelConsole) : c.advance.mFramebuffer = c.mFramebuffer := rfl

@[simp] theorem wrap_mFramebuffer (framebuffer : FramebufferInfo) (c : KernelConsole) :
    (wrap framebuffer c).mFramebuffer = c.mFramebuffer := by
  unfold wrap
  split <;> rfl

theorem putChar_newline (hc : c.mFramebuffer = some framebuffer) :
    putChar scroller '\n'.toUInt8 color c m = ⟨true, c.newLine, m⟩ := by
  unfold putChar
  rw [hc]
  dsimp only
  rw [if_pos rfl]

/-- A character above the bottom is drawn at the cursor. -/
theorem putChar_drawn (hc : c.mFramebuffer = some framebuffer) (hch : ch ≠ '\n'.toUInt8)
    (hroom : ¬ AtBottom framebuffer (wrap framebuffer c)) :
    putChar scroller ch color c m =
      ⟨true, (wrap framebuffer c).advance, framebuffer.drawChar (wrap framebuffer c).mCursorX
        (wrap framebuffer c).mCursorY ch color m⟩ := by
  unfold putChar
  rw [hc]
  dsimp only
  rw [if_neg hch, if_neg hroom, if_pos rfl]

/-- One at the bottom comes after a `Scroll`, if that returns. -/
theorem putChar_scrolled (hc : c.mFramebuffer = some framebuffer) (hch : ch ≠ '\n'.toUInt8)
    (hbottom : AtBottom framebuffer (wrap framebuffer c)) :
    putChar scroller ch color c m =
      if (scroller (wrap framebuffer c) m).returned then
        ⟨true, (scroller (wrap framebuffer c) m).console.advance,
          framebuffer.drawChar (scroller (wrap framebuffer c) m).console.mCursorX
            (scroller (wrap framebuffer c) m).console.mCursorY ch color (scroller (wrap framebuffer c) m).memory⟩
      else scroller (wrap framebuffer c) m := by
  unfold putChar
  rw [hc]
  dsimp only
  rw [if_neg hch, if_pos hbottom]

theorem writeText_cons {text : List UInt8} (h : (putChar scroller ch color c m).returned = true) :
    writeText scroller (ch :: text) color c m =
      writeText scroller text color (putChar scroller ch color c m).console (putChar scroller ch color c m).memory := by
  conv => lhs; unfold writeText
  dsimp only
  rw [if_pos h]

theorem writeText_stuck {text : List UInt8} (h : (putChar scroller ch color c m).returned = false) :
    (writeText scroller (ch :: text) color c m).returned = false := by
  unfold writeText
  dsimp only
  rw [if_neg (by rw [h]; exact Bool.false_ne_true)]
  exact h

end

/-! ## Texts that fit -/

/-- The text stays above the bottom, from where the cursor is: nothing in it calls `Scroll`. -/
def Fits (framebuffer : FramebufferInfo) : List UInt8 → KernelConsole → Prop
  | [], _         => True
  | ch :: text, c =>
    if ch = '\n'.toUInt8 then Fits framebuffer text c.newLine
    else ¬ AtBottom framebuffer (wrap framebuffer c) ∧ Fits framebuffer text (wrap framebuffer c).advance

/-- The console as `Init` leaves it, and `Clear`. -/
def home (framebuffer : FramebufferInfo) : KernelConsole := ⟨some framebuffer, kMarginX, kMarginY⟩

/-- The message of `Scroll` fits on the screen. -/
def MessageFits (framebuffer : FramebufferInfo) : Prop := Fits framebuffer scrollMessage (home framebuffer)

section

variable {framebuffer : FramebufferInfo} {scroller : KernelConsole → Lib.Bytes → Drawn} {ch : UInt8} {color : UInt32}
  {c : KernelConsole} {m : Lib.Bytes} {text : List UInt8}

theorem fits_newline : Fits framebuffer ('\n'.toUInt8 :: text) c ↔ Fits framebuffer text c.newLine := by
  conv => lhs; unfold Fits
  rw [if_pos rfl]

theorem fits_cons (hch : ch ≠ '\n'.toUInt8) :
    Fits framebuffer (ch :: text) c ↔
      ¬ AtBottom framebuffer (wrap framebuffer c) ∧ Fits framebuffer text (wrap framebuffer c).advance := by
  conv => lhs; unfold Fits
  rw [if_neg hch]

theorem clear_console (hc : c.mFramebuffer = some framebuffer) (color : UInt32) :
    (c.clear color m).1 = home framebuffer := by
  unfold clear home
  rw [hc]

/-- A text that fits is written, whatever `Scroll` does. -/
theorem writeText_of_fits (hc : c.mFramebuffer = some framebuffer) (hfits : Fits framebuffer text c) (color : UInt32)
    (m : Lib.Bytes) :
    ∃ c' m', c'.mFramebuffer = some framebuffer ∧ ∀ scroller, writeText scroller text color c m = ⟨true, c', m'⟩ := by
  induction text generalizing c m with
  | nil => exact ⟨c, m, hc, fun scroller => rfl⟩
  | cons ch text ih =>
    by_cases hch : ch = '\n'.toUInt8
    · subst hch
      rw [fits_newline] at hfits
      obtain ⟨c', m', hc', hwrite⟩ := ih (show c.newLine.mFramebuffer = some framebuffer from hc) hfits m
      refine ⟨c', m', hc', fun scroller => ?_⟩
      rw [writeText_cons (by rw [putChar_newline hc]), putChar_newline hc]
      exact hwrite scroller
    · rw [fits_cons hch] at hfits
      obtain ⟨hroom, hrest⟩ := hfits
      have hnext : (wrap framebuffer c).advance.mFramebuffer = some framebuffer := by simpa using hc
      obtain ⟨c', m', hc', hwrite⟩ := ih hnext hrest (framebuffer.drawChar (wrap framebuffer c).mCursorX
        (wrap framebuffer c).mCursorY ch color m)
      refine ⟨c', m', hc', fun scroller => ?_⟩
      rw [writeText_cons (by rw [putChar_drawn hc hch hroom]), putChar_drawn hc hch hroom]
      exact hwrite scroller

/-- One that does not comes to a `Scroll`. -/
theorem writeText_of_not_fits
    (hscroll : ∀ c m, c.mFramebuffer = some framebuffer → (scroller c m).returned = false)
    (hc : c.mFramebuffer = some framebuffer) (hfits : ¬ Fits framebuffer text c) :
    (writeText scroller text color c m).returned = false := by
  induction text generalizing c m with
  | nil => exact absurd trivial hfits
  | cons ch text ih =>
    by_cases hch : ch = '\n'.toUInt8
    · subst hch
      rw [fits_newline] at hfits
      rw [writeText_cons (by rw [putChar_newline hc]), putChar_newline hc]
      exact ih hc hfits
    · by_cases hbottom : AtBottom framebuffer (wrap framebuffer c)
      · -- this character comes to a `Scroll`
        have hstuck := hscroll (wrap framebuffer c) m (by simpa using hc)
        apply writeText_stuck
        rw [putChar_scrolled hc hch hbottom, if_neg (by rw [hstuck]; exact Bool.false_ne_true)]
        exact hstuck
      · rw [fits_cons hch] at hfits
        rw [writeText_cons (by rw [putChar_drawn hc hch hbottom]), putChar_drawn hc hch hbottom]
        exact ih (by simpa using hc) fun hrest => hfits ⟨hbottom, hrest⟩

theorem scroll_succ (hc : c.mFramebuffer = some framebuffer) (nesting : Nat) :
    scroll (nesting + 1) c m =
      writeText (scroll nesting) scrollMessage kColorInfo (home framebuffer) (c.clear kColorBackground m).2 := by
  conv => lhs; unfold scroll
  dsimp only
  rw [clear_console hc]

/-- **A message that does not fit.** Every `Scroll` needs another one, at whatever depth. -/
theorem scroll_stuck (hmessage : ¬ MessageFits framebuffer) (nesting : Nat) (hc : c.mFramebuffer = some framebuffer) :
    (scroll nesting c m).returned = false := by
  induction nesting generalizing c m with
  | zero => rfl
  | succ nesting ih =>
    rw [scroll_succ hc]
    exact writeText_of_not_fits (fun c m hc => ih hc) rfl hmessage

/-- **A message that fits.** A `Scroll` needs no other one. -/
theorem scroll_returns (hmessage : MessageFits framebuffer) (hc : c.mFramebuffer = some framebuffer) (m : Lib.Bytes) :
    ∃ c' m', c'.mFramebuffer = some framebuffer ∧ ∀ nesting, scroll (nesting + 1) c m = ⟨true, c', m'⟩ := by
  obtain ⟨c', m', hc', hwrite⟩ := writeText_of_fits (show (home framebuffer).mFramebuffer = some framebuffer from rfl)
    hmessage kColorInfo (c.clear kColorBackground m).2
  refine ⟨c', m', hc', fun nesting => ?_⟩
  rw [scroll_succ hc]
  exact hwrite (scroll nesting)

/-- Then every text is written. -/
theorem writeText_returns (hmessage : MessageFits framebuffer) (hc : c.mFramebuffer = some framebuffer)
    (text : List UInt8) (color : UInt32) (m : Lib.Bytes) :
    ∃ c' m', ∀ nesting, writeText (scroll (nesting + 1)) text color c m = ⟨true, c', m'⟩ := by
  induction text generalizing c m with
  | nil => exact ⟨c, m, fun nesting => rfl⟩
  | cons ch text ih =>
    by_cases hch : ch = '\n'.toUInt8
    · subst hch
      obtain ⟨c', m', hwrite⟩ := ih (show c.newLine.mFramebuffer = some framebuffer from hc) m
      refine ⟨c', m', fun nesting => ?_⟩
      rw [writeText_cons (by rw [putChar_newline hc]), putChar_newline hc]
      exact hwrite nesting
    by_cases hbottom : AtBottom framebuffer (wrap framebuffer c)
    · -- after the `Scroll` the cursor is wherever the message has left it
      obtain ⟨c₁, m₁, hc₁, hscroll⟩ := scroll_returns hmessage
        (show (wrap framebuffer c).mFramebuffer = some framebuffer by simpa using hc) m
      obtain ⟨c', m', hwrite⟩ := ih (show c₁.advance.mFramebuffer = some framebuffer from hc₁)
        (framebuffer.drawChar c₁.mCursorX c₁.mCursorY ch color m₁)
      refine ⟨c', m', fun nesting => ?_⟩
      have hput : putChar (scroll (nesting + 1)) ch color c m =
          ⟨true, c₁.advance, framebuffer.drawChar c₁.mCursorX c₁.mCursorY ch color m₁⟩ := by
        rw [putChar_scrolled hc hch hbottom, hscroll, if_pos rfl]
      rw [writeText_cons (by rw [hput]), hput]
      exact hwrite nesting
    · have hnext : (wrap framebuffer c).advance.mFramebuffer = some framebuffer := by simpa using hc
      obtain ⟨c', m', hwrite⟩ := ih hnext (framebuffer.drawChar (wrap framebuffer c).mCursorX
        (wrap framebuffer c).mCursorY ch color m)
      refine ⟨c', m', fun nesting => ?_⟩
      rw [writeText_cons (by rw [putChar_drawn hc hch hbottom]), putChar_drawn hc hch hbottom]
      exact hwrite nesting

/-- **When `Write` returns**, and then it is with one `Scroll` at a time. -/
theorem write_returns_iff (hc : c.mFramebuffer = some framebuffer) (text : List UInt8) {nesting : Nat} (h : 0 < nesting) :
    (c.write nesting text color m).returned = true ↔ MessageFits framebuffer ∨ Fits framebuffer text c := by
  constructor
  · intro hreturned
    by_contra hneither
    rw [not_or] at hneither
    have hstuck : (c.write nesting text color m).returned = false :=
      writeText_of_not_fits (fun c m hc => scroll_stuck hneither.1 nesting hc) hc hneither.2
    exact Bool.false_ne_true (hstuck.symm.trans hreturned)
  · rintro (hmessage | hfits)
    · obtain ⟨c', m', hwrite⟩ := writeText_returns hmessage hc text color m
      obtain ⟨nesting, rfl⟩ : ∃ n, nesting = n + 1 := ⟨nesting - 1, by omega⟩
      exact congrArg Drawn.returned (hwrite nesting)
    · obtain ⟨c', m', -, hwrite⟩ := writeText_of_fits hc hfits color m
      exact congrArg Drawn.returned (hwrite (scroll nesting))

end

/-! ## What is drawn is inside -/

/-- Between the two memories some pixels inside have been drawn, and nothing else has been. -/
def Inside (framebuffer : FramebufferInfo) (m m' : Lib.Bytes) : Prop := ∀ a, m' a ≠ m a → framebuffer.Draws a

namespace Inside

variable {framebuffer : FramebufferInfo} {m m₁ m₂ : Lib.Bytes}

theorem refl (m : Lib.Bytes) : Inside framebuffer m m := fun _ hne => absurd rfl hne

theorem trans (h₁ : Inside framebuffer m m₁) (h₂ : Inside framebuffer m₁ m₂) : Inside framebuffer m m₂ := by
  intro a hne
  by_cases heq : m₂ a = m₁ a
  · exact h₁ a fun h => hne (heq.trans h)
  · exact h₂ a heq

theorem foldl {α : Type} {f : Lib.Bytes → α → Lib.Bytes} (hf : ∀ m x, Inside framebuffer m (f m x)) (xs : List α)
    (m : Lib.Bytes) : Inside framebuffer m (xs.foldl f m) := by
  induction xs generalizing m with
  | nil => exact refl m
  | cons x xs ih => exact (hf m x).trans (ih (f m x))

theorem ite {p : Prop} [Decidable p] (h : Inside framebuffer m m₁) : Inside framebuffer m (if p then m₁ else m) := by
  split
  · exact h
  · exact refl m

end Inside

section

variable {framebuffer : FramebufferInfo} {c : KernelConsole}

theorem inside_drawPixel (x y color : UInt32) (m : Lib.Bytes) :
    Inside framebuffer m (framebuffer.drawPixel x y color m) := fun _ hne => ⟨x, y, color, m, hne⟩

theorem inside_drawChar (x y : UInt32) (ch : UInt8) (color : UInt32) (m : Lib.Bytes) :
    Inside framebuffer m (framebuffer.drawChar x y ch color m) := by
  unfold FramebufferInfo.drawChar
  refine Inside.foldl (fun m gy => Inside.foldl (fun m gx => Inside.ite ?_) _ m) _ m
  exact (((inside_drawPixel _ _ color m).trans (inside_drawPixel _ _ color _)).trans
    (inside_drawPixel _ _ color _)).trans (inside_drawPixel _ _ color _)

/-- A way to scroll that draws inside, and stays with the framebuffer. -/
def ScrollsInside (framebuffer : FramebufferInfo) (scroller : KernelConsole → Lib.Bytes → Drawn) : Prop :=
  ∀ c m, c.mFramebuffer = some framebuffer →
    Inside framebuffer m (scroller c m).memory ∧ (scroller c m).console.mFramebuffer = some framebuffer

variable {scroller : KernelConsole → Lib.Bytes → Drawn}

theorem inside_putChar (hscroll : ScrollsInside framebuffer scroller) (hc : c.mFramebuffer = some framebuffer)
    (ch : UInt8) (color : UInt32) (m : Lib.Bytes) :
    Inside framebuffer m (putChar scroller ch color c m).memory ∧
      (putChar scroller ch color c m).console.mFramebuffer = some framebuffer := by
  by_cases hch : ch = '\n'.toUInt8
  · subst hch
    rw [putChar_newline hc]
    exact ⟨.refl m, hc⟩
  by_cases hbottom : AtBottom framebuffer (wrap framebuffer c)
  · obtain ⟨hinside, hkept⟩ := hscroll (wrap framebuffer c) m (by simpa using hc)
    rw [putChar_scrolled hc hch hbottom]
    split
    · exact ⟨hinside.trans (inside_drawChar _ _ ch color _), hkept⟩
    · exact ⟨hinside, hkept⟩
  · rw [putChar_drawn hc hch hbottom]
    exact ⟨inside_drawChar _ _ ch color m, by simpa using hc⟩

theorem inside_writeText (hscroll : ScrollsInside framebuffer scroller) (hc : c.mFramebuffer = some framebuffer)
    (text : List UInt8) (color : UInt32) (m : Lib.Bytes) :
    Inside framebuffer m (writeText scroller text color c m).memory ∧
      (writeText scroller text color c m).console.mFramebuffer = some framebuffer := by
  induction text generalizing c m with
  | nil => exact ⟨.refl m, hc⟩
  | cons ch text ih =>
    obtain ⟨hinside, hkept⟩ := inside_putChar hscroll hc ch color m
    unfold writeText
    dsimp only
    split
    · obtain ⟨hrest, hlast⟩ := ih hkept (putChar scroller ch color c m).memory
      exact ⟨hinside.trans hrest, hlast⟩
    · exact ⟨hinside, hkept⟩

theorem scrollsInside_scroll (nesting : Nat) : ScrollsInside framebuffer (scroll nesting) := by
  induction nesting with
  | zero => exact fun c m hc => ⟨.refl m, hc⟩
  | succ nesting ih =>
    intro c m hc
    have hclear : Inside framebuffer m (c.clear kColorBackground m).2 := by
      unfold clear
      exact fun a hne => FramebufferInfo.fillRect_draws hc hne
    obtain ⟨hinside, hkept⟩ := inside_writeText ih (show (home framebuffer).mFramebuffer = some framebuffer from rfl)
      scrollMessage kColorInfo (c.clear kColorBackground m).2
    rw [scroll_succ hc]
    exact ⟨hclear.trans hinside, hkept⟩

/-- Whatever `Write` draws, also when it does not return, are pixels of the framebuffer. -/
theorem inside_write (hc : c.mFramebuffer = some framebuffer) (nesting : Nat) (text : List UInt8) (color : UInt32)
    (m : Lib.Bytes) : Inside framebuffer m (c.write nesting text color m).memory :=
  (inside_writeText (scrollsInside_scroll nesting) hc text color m).1

end

/-! ## Which screens are large enough -/

/-- The last line of the message, as the width breaks it. Margins that leave no room for a character break before each;
    a width below the margins is taken for a huge one. -/
def lastRow (width : Nat) : Nat :=
  if width < 32 ∨ 548 ≤ width then 0
  else if width < 80 then 27
  else 26 / ((width - 80) / 18 + 1)

section

variable {framebuffer : FramebufferInfo}

theorem toNat_sub_margin {size margin : UInt32} :
    (size - margin).toNat =
      if margin.toNat ≤ size.toNat then size.toNat - margin.toNat else 2 ^ 32 + size.toNat - margin.toNat := by
  have hsize := size.toNat_lt
  have hmargin := margin.toNat_lt
  rw [UInt32.toNat_sub]
  split <;> omega

/-- Where a character in column `j` of row `r` is drawn, and the column behind it. -/
theorem wrap_at {n : Nat} (hwrap : ∀ j, 1 ≤ j → j ≤ 27 → ((framebuffer.width - kMarginX).toNat < 48 + 18 * j ↔ n ≤ j))
    {c : KernelConsole} {r j : Nat} (hx : c.mCursorX.toNat = 32 + 18 * j) (hy : c.mCursorY.toNat = 28 + 22 * r)
    (hj : 1 ≤ j) (hj' : j ≤ 27) (hjn : j ≤ n) (hr : r < 30) :
    ∃ r' j', (wrap framebuffer c).mCursorY.toNat = 28 + 22 * r' ∧
      (wrap framebuffer c).advance.mCursorX.toNat = 32 + 18 * j' ∧
      ((j < n ∧ r' = r ∧ j' = j + 1) ∨ (j = n ∧ r' = r + 1 ∧ j' = 1)) := by
  have hglyph : (c.mCursorX + kGlyphWidth).toNat = 48 + 18 * j := by
    rw [UInt32.toNat_add, hx, show kGlyphWidth.toNat = 16 from rfl]
    omega
  have hcond : c.mCursorX + kGlyphWidth > framebuffer.width - kMarginX ↔ n ≤ j := by
    rw [← hwrap j hj hj', ← hglyph]
    exact UInt32.lt_iff_toNat_lt
  by_cases hlast : n ≤ j
  · have hwrapped : wrap framebuffer c = c.newLine := by
      unfold wrap
      rw [if_pos (hcond.mpr hlast)]
    refine ⟨r + 1, 1, ?_, ?_, Or.inr ⟨by omega, rfl, rfl⟩⟩
    · rw [hwrapped]
      show (c.mCursorY + kAdvanceY).toNat = _
      rw [UInt32.toNat_add, hy, show kAdvanceY.toNat = 22 from rfl]
      omega
    · rw [hwrapped]
      rfl
  · have hwrapped : wrap framebuffer c = c := by
      unfold wrap
      rw [if_neg fun h => hlast (hcond.mp h)]
    refine ⟨r, j + 1, by rw [hwrapped, hy], ?_, Or.inl ⟨by omega, rfl, rfl⟩⟩
    rw [hwrapped]
    show (c.mCursorX + kAdvanceX).toNat = _
    rw [UInt32.toNat_add, hx, show kAdvanceX.toNat = 18 from rfl]
    omega

theorem atBottom_at {c : KernelConsole} {r : Nat} (hy : c.mCursorY.toNat = 28 + 22 * r) (hr : r ≤ 30) :
    AtBottom framebuffer c ↔ (framebuffer.height - kMarginY).toNat < 44 + 22 * r := by
  have hglyph : (c.mCursorY + kGlyphHeight).toNat = 44 + 22 * r := by
    rw [UInt32.toNat_add, hy, show kGlyphHeight.toNat = 16 from rfl]
    omega
  unfold AtBottom
  rw [← hglyph]
  exact UInt32.lt_iff_toNat_lt

/-- The rest of a text without line breaks, where a line has room for `n` characters: it fits if its last line does. -/
theorem fits_plain {n : Nat} (hn : 0 < n)
    (hwrap : ∀ j, 1 ≤ j → j ≤ 27 → ((framebuffer.width - kMarginX).toNat < 48 + 18 * j ↔ n ≤ j))
    {line : List UInt8} (hline : line ≠ []) (hplain : '\n'.toUInt8 ∉ line) {c : KernelConsole} {r j : Nat}
    (hx : c.mCursorX.toNat = 32 + 18 * j) (hy : c.mCursorY.toNat = 28 + 22 * r) (hj : 1 ≤ j) (hjn : j ≤ n)
    (hcolumns : j + line.length ≤ 28) (hrows : r + line.length ≤ 30) :
    Fits framebuffer (line ++ ['\n'.toUInt8]) c ↔
      44 + 22 * (r + (j + line.length - 1) / n) ≤ (framebuffer.height - kMarginY).toNat := by
  induction line generalizing c r j with
  | nil => exact absurd rfl hline
  | cons ch line ih =>
    rw [List.mem_cons, not_or] at hplain
    rw [List.length_cons] at hcolumns hrows
    obtain ⟨r', j', hy', hx', hcases⟩ := wrap_at hwrap hx hy hj (by omega) hjn (by omega)
    -- the row of the last character is the same, counted from here
    have hrow : r + (j + (line.length + 1) - 1) / n = r' + (j' + line.length - 1) / n := by
      rcases hcases with ⟨-, rfl, rfl⟩ | ⟨rfl, rfl, rfl⟩
      · rw [show j + (line.length + 1) - 1 = j + 1 + line.length - 1 by omega]
      · rw [show j + (line.length + 1) - 1 = j + line.length by omega, Nat.add_div_left _ hn,
          show 1 + line.length - 1 = line.length by omega]
        omega
    have hbound : 1 ≤ j' ∧ j' ≤ n ∧ j' + line.length ≤ 28 ∧ r' + line.length ≤ 30 := by
      rcases hcases with ⟨hlt, rfl, rfl⟩ | ⟨rfl, rfl, rfl⟩ <;> omega
    rw [List.cons_append, fits_cons (Ne.symm hplain.1), atBottom_at hy' (by omega), List.length_cons, hrow]
    by_cases hlast : line = []
    · -- the line feed moves the cursor and tests nothing
      subst hlast
      have hzero : (j' + ([] : List UInt8).length - 1) / n = 0 := Nat.div_eq_of_lt (by rw [List.length_nil]; omega)
      rw [hzero, List.nil_append, fits_newline, Nat.not_lt]
      exact and_iff_left trivial
    · rw [ih hlast hplain.2 hx' hy' hbound.1 hbound.2.1 hbound.2.2.1 hbound.2.2.2, Nat.not_lt]
      -- this row is not below the last one
      refine and_iff_right_of_imp fun h => ?_
      have hle := Nat.zero_le ((j' + line.length - 1) / n)
      omega

/-- The message is one line of 27 characters, unless the width breaks it. -/
theorem scrollMessage_eq : ∃ ch line, scrollMessage = ch :: line ++ ['\n'.toUInt8] ∧ line.length = 26 ∧
    '\n'.toUInt8 ∉ ch :: line :=
  ⟨'['.toUInt8, "INFO] Console scroll reset".toList.map Char.toUInt8, by decide, by decide, by decide⟩

/-- The message, once its first character stands in row `r`. -/
theorem messageFits_at {n r : Nat} (hn : 0 < n)
    (hwrap : ∀ j, 1 ≤ j → j ≤ 27 → ((framebuffer.width - kMarginX).toNat < 48 + 18 * j ↔ n ≤ j)) (hr : r ≤ 1)
    (hx : (wrap framebuffer (home framebuffer)).mCursorX.toNat = 32)
    (hy : (wrap framebuffer (home framebuffer)).mCursorY.toNat = 28 + 22 * r) :
    MessageFits framebuffer ↔ 44 + 22 * (r + 26 / n) ≤ (framebuffer.height - kMarginY).toNat := by
  obtain ⟨ch, line, hmessage, hlength, hplain⟩ := scrollMessage_eq
  rw [List.mem_cons, not_or] at hplain
  have hne : line ≠ [] := by
    rintro rfl
    cases hlength
  have hx' : (wrap framebuffer (home framebuffer)).advance.mCursorX.toNat = 32 + 18 * 1 := by
    show ((wrap framebuffer (home framebuffer)).mCursorX + kAdvanceX).toNat = _
    rw [UInt32.toNat_add, hx]
    rfl
  -- the first character by hand: margins without room break the line before it, and no other line is empty
  unfold MessageFits
  rw [hmessage, List.cons_append, fits_cons (Ne.symm hplain.1), atBottom_at hy (by omega), Nat.not_lt,
    fits_plain hn hwrap hne hplain.2 hx' hy (Nat.le_refl 1) hn (by omega) (by omega), hlength]
  refine and_iff_right_of_imp fun h => ?_
  have hle := Nat.zero_le ((1 + 26 - 1) / n)
  omega

/-- **Which screens hold the message**: those that are lower than their margin, and those with room for its lines. -/
theorem messageFits_iff :
    MessageFits framebuffer ↔
      framebuffer.height.toNat < 28 ∨ 72 + 22 * lastRow framebuffer.width.toNat ≤ framebuffer.height.toNat := by
  have hwidth := framebuffer.width.toNat_lt
  have hheight := framebuffer.height.toNat_lt
  have hW : (framebuffer.width - kMarginX).toNat =
      if 32 ≤ framebuffer.width.toNat then framebuffer.width.toNat - 32 else 2 ^ 32 + framebuffer.width.toNat - 32 :=
    toNat_sub_margin
  have hH : (framebuffer.height - kMarginY).toNat =
      if 28 ≤ framebuffer.height.toNat then framebuffer.height.toNat - 28 else 2 ^ 32 + framebuffer.height.toNat - 28 :=
    toNat_sub_margin
  -- up to 28 rows make no difference to a height that is lower than its margin
  have hrows : ∀ rows ≤ 27, (44 + 22 * rows ≤ (framebuffer.height - kMarginY).toNat ↔
      framebuffer.height.toNat < 28 ∨ 72 + 22 * rows ≤ framebuffer.height.toNat) := by
    intro rows hrows
    rw [hH]
    split <;> omega
  have hfirst : (home framebuffer).mCursorX + kGlyphWidth > framebuffer.width - kMarginX ↔
      (framebuffer.width - kMarginX).toNat < 48 := UInt32.lt_iff_toNat_lt
  have hbreak : ¬ (framebuffer.width - kMarginX).toNat < 48 → wrap framebuffer (home framebuffer) = home framebuffer := by
    intro h
    unfold wrap
    rw [if_neg fun hgt => h (hfirst.mp hgt)]
  unfold lastRow
  by_cases hsmall : framebuffer.width.toNat < 32
  · -- no line is ever too long
    rw [if_neg (by omega)] at hW
    rw [messageFits_at (n := 28) (r := 0) (by omega) (by omega) (by omega) (by rw [hbreak (by omega)]; rfl)
      (by rw [hbreak (by omega)]; rfl), if_pos (Or.inl hsmall)]
    exact hrows 0 (by omega)
  rw [if_pos (by omega)] at hW
  by_cases hnarrow : framebuffer.width.toNat < 80
  · -- every line is too long, the empty one also
    have hwrapped : wrap framebuffer (home framebuffer) = (home framebuffer).newLine := by
      unfold wrap
      rw [if_pos (hfirst.mpr (by omega))]
    rw [messageFits_at (n := 1) (r := 1) (by omega) (by omega) (by omega) (by rw [hwrapped]; rfl)
      (by rw [hwrapped]; rfl), if_neg (by omega), if_pos hnarrow]
    exact hrows 27 (by omega)
  -- a line has room for `(width - 80) / 18 + 1` characters
  have hroom : ∀ j, 1 ≤ j → j ≤ 27 → ((framebuffer.width - kMarginX).toNat < 48 + 18 * j ↔
      (framebuffer.width.toNat - 80) / 18 + 1 ≤ j) := by
    intro j _ _
    omega
  rw [messageFits_at (r := 0) (by omega) hroom (by omega) (by rw [hbreak (by omega)]; rfl)
    (by rw [hbreak (by omega)]; rfl), Nat.zero_add]
  have hrow : 26 / ((framebuffer.width.toNat - 80) / 18 + 1) ≤ 26 := Nat.div_le_self _ _
  rw [hrows _ (by omega)]
  by_cases hwide : 548 ≤ framebuffer.width.toNat
  · have hzero : 26 / ((framebuffer.width.toNat - 80) / 18 + 1) = 0 := Nat.div_eq_of_lt (by omega)
    rw [if_pos (Or.inr hwide), hzero]
  · rw [if_neg (by omega), if_neg hnarrow]

end

/-! ## What `Write` promises -/

/-- `Write` returns, with one `Scroll` at a time if it does, and draws inside the framebuffer. -/
structure WriteLaw (c : KernelConsole) (framebuffer : FramebufferInfo) (text : List UInt8) (color : UInt32)
    (m : Lib.Bytes) : Prop where
  returns : ∃ nesting, (c.write nesting text color m).returned = true
  bounded : ∀ nesting, (c.write nesting text color m).returned = true → (c.write 1 text color m).returned = true
  inside  : ∀ nesting a, (c.write nesting text color m).memory a ≠ m a →
    ∃ x < framebuffer.width, ∃ y < framebuffer.height, a ∈ Lib.ByteRange.mk (framebuffer.pixelAddress x y) 4

section

variable {c : KernelConsole} {framebuffer : FramebufferInfo} {m : Lib.Bytes}

theorem init_console (h : (c.init (some framebuffer) m).1 = true) :
    (c.init (some framebuffer) m).2.1 = home framebuffer := by
  have haccepts := init_iff.mp h
  unfold init
  dsimp only
  rw [if_neg (not_not.mpr haccepts)]
  exact clear_console rfl kColorBackground

theorem writeLaw_ready_iff (hc : c.mFramebuffer = some framebuffer) (text : List UInt8) (color : UInt32) :
    WriteLaw c framebuffer text color m ↔ MessageFits framebuffer ∨ Fits framebuffer text c := by
  constructor
  · rintro ⟨⟨nesting, hreturns⟩, hone, -⟩
    exact (write_returns_iff hc text Nat.one_pos).mp (hone nesting hreturns)
  · intro h
    have hreturns : (c.write 1 text color m).returned = true := (write_returns_iff hc text Nat.one_pos).mpr h
    refine ⟨⟨1, hreturns⟩, fun _ _ => hreturns, fun nesting a hne => ?_⟩
    exact FramebufferInfo.draws_iff.mp (inside_write hc nesting text color m a hne)

/-- **When `Write` keeps its promise.** On a framebuffer that `Init` has accepted, and wherever the cursor has come to
    since, exactly when the message of `Scroll` has room, or the text never comes to a `Scroll`. -/
theorem writeLaw_iff {c₀ : KernelConsole} {m₀ : Lib.Bytes} (h : (c₀.init (some framebuffer) m₀).1 = true)
    (hc : c.mFramebuffer = (c₀.init (some framebuffer) m₀).2.1.mFramebuffer) (text : List UInt8) (color : UInt32) :
    WriteLaw c framebuffer text color m ↔
      (framebuffer.height.toNat < 28 ∨ 72 + 22 * lastRow framebuffer.width.toNat ≤ framebuffer.height.toNat) ∨
        Fits framebuffer text c := by
  rw [init_console h] at hc
  rw [writeLaw_ready_iff hc, messageFits_iff]

end

/-- A screen of 640 by 480 pixels at 3 GiB, and `"A"`. -/
theorem writeLaw_iff_vga :
    WriteLaw (({} : KernelConsole).init (some ⟨0xC0000000, 640, 480, 640, 1⟩) fun _ => 0).2.1
        ⟨0xC0000000, 640, 480, 640, 1⟩ ['A'.toUInt8] 0xFFE8E8E8
        (({} : KernelConsole).init (some ⟨0xC0000000, 640, 480, 640, 1⟩) fun _ => 0).2.2 ↔
      ((480 : UInt32).toNat < 28 ∨ 72 + 22 * lastRow (640 : UInt32).toNat ≤ (480 : UInt32).toNat) ∨
        Fits ⟨0xC0000000, 640, 480, 640, 1⟩ ['A'.toUInt8]
          (({} : KernelConsole).init (some ⟨0xC0000000, 640, 480, 640, 1⟩) fun _ => 0).2.1 :=
  writeLaw_iff (init_iff.mpr (by decide)) rfl ['A'.toUInt8] 0xFFE8E8E8

/-- On a screen of 640 by 64 pixels there is no room for a line, and `"A"` scrolls for ever. -/
theorem not_writeLaw :
    ¬ ∀ (c : KernelConsole) (framebuffer : FramebufferInfo) (m : Lib.Bytes),
      (c.init (some framebuffer) m).1 = true → ∀ text color,
        WriteLaw (c.init (some framebuffer) m).2.1 framebuffer text color (c.init (some framebuffer) m).2.2 := by
  intro h
  have hinit : (({} : KernelConsole).init (some ⟨0xC0000000, 640, 64, 640, 1⟩) fun _ => 0).1 = true :=
    init_iff.mpr (by decide)
  have hlaw := h _ _ _ hinit ['A'.toUInt8] 0xFFE8E8E8
  have hready : (home ⟨0xC0000000, 640, 64, 640, 1⟩).mFramebuffer = some ⟨0xC0000000, 640, 64, 640, 1⟩ := rfl
  rw [init_console hinit, writeLaw_ready_iff hready, messageFits_iff] at hlaw
  rcases hlaw with hmessage | hfits
  · exact absurd hmessage (by decide)
  · rw [fits_cons (by decide)] at hfits
    exact hfits.1 (by decide)

end KernelConsole
end UefiBoot
