import UefiBoot.Gui.Dispatch
import UefiBoot.Gui.Drawing

/-!
# `Gui.Contents` — what the applications draw

`DrawApplicationContents` draws at fixed offsets from the corner of the window and never looks at its size, but for the
lines that a list still has room for. So whether the contents stay in the window is a question of the texts and of the
size: `ContentsFit` is what each application needs, and `contents_hold` that it is enough. The margin around a window
counts as room, since a repaint takes it along.
-/

namespace UefiBoot
namespace Gui

/-- `TerminalSession.rows`, as `TerminalReflowForWindow` sets it. -/
def terminalRows (window : Window) : UInt32 :=
  let contentHeight := if window.bounds.height > kTitleBarHeight + 36
    then window.bounds.height - kTitleBarHeight - 36 else window.bounds.height
  let rows := contentHeight / 20
  if rows = 0 then 1 else rows

/-- The first line of the transcript that `DrawTerminalContents` shows. -/
def terminalStart (terminal : Terminal) (rows : UInt32) : Nat :=
  let visibleRows := if rows > 1 then rows.toNat - 1 else 1
  let visibleCount := if terminal.lines.length < visibleRows then terminal.lines.length else visibleRows
  let scrollback := if terminal.lines.length > visibleCount then terminal.lines.length - visibleCount else 0
  if terminal.scrollOffset > 0 then
    let offset := terminal.scrollOffset.toUInt32.toNat
    if offset > scrollback then 0 else scrollback - offset
  else scrollback

/-- The loop of `DrawTerminalContents` from a line on. -/
def terminalLines (info : FramebufferInfo) (x bottom : UInt32) : List TerminalLine → UInt32 → List Dot
  | [], _ => []
  | line :: lines, y =>
    (if line.text = [] then [] else drawText info x y line.text line.color) ++
      (if y + 20 + 16 ≥ bottom then [] else terminalLines info x bottom lines (y + 20))

/-- The loop of the task manager from a runtime on. -/
def taskLines (info : FramebufferInfo) (x bottom : UInt32) : List AppRuntimeState → UInt32 → List Dot
  | [], _ => []
  | runtime :: runtimes, y =>
    if y + 18 < bottom then
      if !runtime.valid || runtime.state = .notRunning then taskLines info x bottom runtimes y
      else
        drawText info x y (text "app  native      active 3%  1M  1")
            (if runtime.state = .notResponding then kTheme.minimize else kTheme.text) ++
          taskLines info x bottom runtimes (y + 22)
    else []

namespace Desktop

variable {K : Type} (d : Desktop K) (window : Window)

def drawTerminalContents : List Dot :=
  let info := d.wm.framebuffer
  let terminal := d.apps.terminal
  let x := window.bounds.x + 18
  let y := window.bounds.y + kTitleBarHeight + 18
  let bottom := window.bounds.y + window.bounds.height
  let prompt := appendText (copyText (kTerminalInputLength + 4) (text "> ")) (kTerminalInputLength + 4) terminal.session.input
  terminalLines info x bottom (terminal.lines.drop (terminalStart terminal (terminalRows window))) y ++
    drawText info x (bottom - 28) prompt kTheme.accent ++
    (if terminal.session.cursorVisible then
      fillRect info ⟨x + 24 + UInt32.ofNat terminal.session.cursor * 12, bottom - 13, 10, 2⟩ cursorColor
    else []) ++
    (if terminal.session.selectionActive then
      drawText info (x + 280) (bottom - 28) (text "copied") kTheme.textMuted
    else [])

def drawSystemMonitorContents : List Dot :=
  let info := d.wm.framebuffer
  let x := window.bounds.x + 18
  let y := window.bounds.y + kTitleBarHeight + 18
  drawText info x y (text "CPU 3%") kTheme.text ++
    drawText info x (y + 24) (text "RAM 12 MB") kTheme.text ++
    drawText info x (y + 24 + 24) (text "FPS 60") kTheme.text ++
    fillRect info ⟨x, y + 24 + 24 + 28, 150, 10⟩ 0xFF1B2632 ++
    fillRect info ⟨x, y + 24 + 24 + 28, 48, 10⟩ kTheme.accent

def drawApplicationContents : List Dot :=
  let info := d.wm.framebuffer
  let x := window.bounds.x + 18
  let y := window.bounds.y + kTitleBarHeight + 18
  match window.app with
  | .fileManager      =>
    drawText info x y d.apps.fileManager.currentPath kTheme.accent ++
      drawText info x (y + 24) (text "back forward new rename copy move del") kTheme.textMuted ++
      drawText info x (y + 52) (text "boot  kernel  tmp  readme  notes.txt") kTheme.text ++
      drawText info x (y + 80) d.apps.fileManager.selectedPath kTheme.text ++
      (if d.apps.fileManager.error = [] then []
      else drawText info x (y + 108) d.apps.fileManager.error kTheme.close)
  | .textEditor       =>
    drawText info x y d.apps.editor.path (if d.apps.editor.dirty then kTheme.minimize else kTheme.accent) ++
      drawText info x (y + 24) (text "new open save save-as") kTheme.textMuted ++
      drawRect info ⟨x, y + 48, if window.bounds.width > 44 then window.bounds.width - 44 else 120, 130⟩
        kDesktopTheme.borderInactive ++
      drawText info (x + 10) (y + 66) d.apps.editor.text kTheme.text ++
      (if d.apps.editor.selectionActive then drawText info (x + 10) (y + 94) (text "selection active") kTheme.accent
      else []) ++
      fillRect info ⟨x + 10 + UInt32.ofNat (d.apps.editor.cursor % 40) * 12, y + 82, 10, 2⟩ cursorColor
  | .imageViewer      =>
    drawText info x y (text "SO.png") kTheme.text ++
      fillRect info ⟨x, y + 26, 150, 84⟩ 0xFF1E2D34 ++
      drawImage info ⟨x + 18, y + 38, 114, 60⟩ kTheme.accent
  | .calculator       =>
    drawText info x y d.apps.calculator.expression kTheme.text ++
      ((List.range 4).flatMap fun row => (List.range 4).flatMap fun col =>
        drawRect info ⟨x + UInt32.ofNat col * 34, y + 30 + UInt32.ofNat row * 28, 26, 20⟩ kDesktopTheme.borderInactive) ++
      drawText info (x + 8) (y + 38) (text "789/") kTheme.textMuted ++
      drawText info (x + 8) (y + 66) (text "456*") kTheme.textMuted ++
      drawText info (x + 8) (y + 94) (text "123-") kTheme.textMuted ++
      drawText info (x + 8) (y + 122) (text "C0=+") kTheme.textMuted
  | .settings         =>
    drawText info x y (text "Display Wall Theme Sound Mouse Keys Net Sys") kTheme.text ++
      fillRect info ⟨x, y + 30, 34 + d.apps.settings.page * 42, 10⟩ kTheme.accent ++
      drawText info x (y + 54) (text (if d.apps.settings.darkTheme then "theme: dark" else "theme: light")) kTheme.text ++
      drawText info x (y + 78) (text "volume adjustable") kTheme.textMuted
  | .taskManager      =>
    drawText info x y (text "PID  Name        State CPU MEM WIN") kTheme.textMuted ++
      taskLines info x (window.bounds.y + window.bounds.height) ((List.finRange kApplicationCapacity).map d.apps.runtimes)
        (y + 24)
  | .packageManager   =>
    drawText info x y (text "base  gui  net  dev") kTheme.text ++
      drawText info x (y + 28) (text "updates: none") kTheme.maximize
  | .systemMonitor    => d.drawSystemMonitorContents window
  | .terminalEmulator => d.drawTerminalContents window
  | .softwareCenter   =>
    drawText info x y (text "Installed: Terminal Files Settings") kTheme.text ++
      drawText info x (y + 28) (text "Catalog cache ready") kTheme.accent

end Desktop

/-! ## Room for the contents -/

/-- The width of the widest of some texts. -/
def widest (texts : List Text) : Nat := texts.foldr (fun t width => max (12 * t.length) width) 0

theorem le_widest {texts : List Text} {t : Text} (h : t ∈ texts) : 12 * t.length ≤ widest texts := by
  induction texts with
  | nil => cases h
  | cons u texts ih =>
      show _ ≤ max (12 * u.length) (widest texts)
      rcases List.mem_cons.mp h with rfl | h
      · exact Nat.le_max_left _ _
      · exact Nat.le_trans (ih h) (Nat.le_max_right _ _)

namespace Desktop

variable {K : Type} (d : Desktop K) (window : Window)

/-- What the contents need to the right of their corner, which is 18 pixels into the window. -/
def contentsWidth : Nat :=
  match window.app with
  | .fileManager      =>
    widest [d.apps.fileManager.currentPath, text "back forward new rename copy move del",
      text "boot  kernel  tmp  readme  notes.txt", d.apps.fileManager.selectedPath, d.apps.fileManager.error]
  | .textEditor       =>
    max (widest [d.apps.editor.path, text "new open save save-as"])
      (10 + max (widest [d.apps.editor.text, text "selection active"]) (d.apps.editor.cursor % 40 * 12 + 10))
  | .imageViewer      => 150
  | .calculator       => max (widest [d.apps.calculator.expression]) 128
  | .settings         =>
    max (widest [text "Display Wall Theme Sound Mouse Keys Net Sys"]) (34 + d.apps.settings.page.toNat * 42)
  | .taskManager      => widest [text "PID  Name        State CPU MEM WIN"]
  | .packageManager   => widest [text "base  gui  net  dev"]
  | .systemMonitor    => 150
  | .terminalEmulator =>
    max (widest (d.apps.terminal.lines.map TerminalLine.text)) (max (12 * (2 + d.apps.terminal.session.input.length))
      (max (if d.apps.terminal.session.cursorVisible then 34 + d.apps.terminal.session.cursor * 12 else 0)
        (if d.apps.terminal.session.selectionActive then 352 else 0)))
  | .softwareCenter   => widest [text "Installed: Terminal Files Settings"]

/-- And below it. -/
def contentsHeight : AppKind → Nat
  | .fileManager      => 122
  | .textEditor       => 178
  | .imageViewer      => 110
  | .calculator       => 136
  | .settings         => 92
  | .taskManager      => 14
  | .packageManager   => 42
  | .systemMonitor    => 86
  | .terminalEmulator => 14
  | .softwareCenter   => 42

/-- The contents stay in the window and its margin. -/
def ContentsFit : Prop :=
  d.contentsWidth window ≤ window.bounds.width.toNat ∧ contentsHeight window.app + 30 ≤ window.bounds.height.toNat

instance : Decidable (d.ContentsFit window) := inferInstanceAs (Decidable (_ ∧ _))

end Desktop

/-- The window with the margin of `WindowVisualRect`. -/
def visualArea (window : Window) : Area :=
  { left := window.bounds.x.toNat - 18
    top := window.bounds.y.toNat - 18
    right := window.bounds.x.toNat + window.bounds.width.toNat + 18
    bottom := window.bounds.y.toNat + window.bounds.height.toNat + 18 }

/-- The window ends where the largest screen does. -/
structure InBuffer (window : Window) : Prop where
  right  : window.bounds.x.toNat + window.bounds.width.toNat ≤ 2048
  bottom : window.bounds.y.toNat + window.bounds.height.toNat ≤ 2048

/-- The corner of the contents. -/
structure Corner (window : Window) (x y : UInt32) : Prop where
  inBuffer : InBuffer window
  x        : x.toNat = window.bounds.x.toNat + 18
  y        : y.toNat = window.bounds.y.toNat + 48

theorem InBuffer.corner {window : Window} (h : InBuffer window) :
    Corner window (window.bounds.x + 18) (window.bounds.y + kTitleBarHeight + 18) := by
  have hright := h.right
  have hbottom := h.bottom
  have htitle : kTitleBarHeight.toNat = 30 := rfl
  have height : (18 : UInt32).toNat = 18 := rfl
  have hy : (window.bounds.y + kTitleBarHeight).toNat = window.bounds.y.toNat + 30 := toNat_add (by omega)
  refine ⟨h, toNat_add (by omega), ?_⟩
  rw [toNat_add (by omega), hy]
  omega

namespace Corner

variable {window : Window} {info : FramebufferInfo} {x y px py : UInt32} {t : Text}

/-- A place at an offset from the corner. -/
theorem offset (h : Corner window x y) (dx dy : Nat) (hpx : px = x + UInt32.ofNat dx) (hpy : py = y + UInt32.ofNat dy)
    (hx : dx < 2 ^ 20) (hy : dy < 2 ^ 20) :
    px.toNat = window.bounds.x.toNat + 18 + dx ∧ py.toNat = window.bounds.y.toNat + 48 + dy := by
  have hright := h.inBuffer.right
  have hbottom := h.inBuffer.bottom
  have hdx : (UInt32.ofNat dx).toNat = dx := UInt32.toNat_ofNat_of_lt' (Nat.lt_trans hx (by decide))
  have hdy : (UInt32.ofNat dy).toNat = dy := UInt32.toNat_ofNat_of_lt' (Nat.lt_trans hy (by decide))
  have hcx := h.x
  have hcy := h.y
  constructor
  · rw [hpx, toNat_add (by omega), hdx, hcx]
  · rw [hpy, toNat_add (by omega), hdy, hcy]

/-- A text with room for it. -/
theorem text (h : Corner window x y) (dx dy : Nat) (hpx : px = x + UInt32.ofNat dx) (hpy : py = y + UInt32.ofNat dy)
    (hwidth : dx + 12 * t.length ≤ window.bounds.width.toNat) (hheight : dy + 14 + 30 ≤ window.bounds.height.toNat)
    (color : UInt32) : (visualArea window).Holds (drawText info px py t color) := by
  have hright := h.inBuffer.right
  have hbottom := h.inBuffer.bottom
  obtain ⟨hx, hy⟩ := h.offset dx dy hpx hpy (by omega) (by omega)
  unfold visualArea
  exact Area.holds_drawText color ⟨by dsimp only; omega, by dsimp only; omega, by dsimp only; omega,
    by dsimp only; omega, by dsimp only; omega⟩

/-- The edges of a rectangle with room for it. -/
theorem spans (h : Corner window x y) (dx dy w l : Nat) {width height : UInt32} (hpx : px = x + UInt32.ofNat dx)
    (hpy : py = y + UInt32.ofNat dy) (hw : width.toNat = w) (hl : height.toNat = l)
    (hwidth : dx + w ≤ window.bounds.width.toNat) (hheight : dy + l + 30 ≤ window.bounds.height.toNat) :
    (visualArea window).Spans px.toNat py.toNat width.toNat height.toNat := by
  have hright := h.inBuffer.right
  have hbottom := h.inBuffer.bottom
  obtain ⟨hx, hy⟩ := h.offset dx dy hpx hpy (by omega) (by omega)
  unfold visualArea
  exact ⟨by dsimp only; omega, by dsimp only; omega, by dsimp only; omega, by dsimp only; omega, by dsimp only; omega⟩

theorem fill (h : Corner window x y) (dx dy w l : Nat) {width height : UInt32} (hpx : px = x + UInt32.ofNat dx)
    (hpy : py = y + UInt32.ofNat dy) (hw : width.toNat = w) (hl : height.toNat = l)
    (hwidth : dx + w ≤ window.bounds.width.toNat) (hheight : dy + l + 30 ≤ window.bounds.height.toNat) (color : UInt32) :
    (visualArea window).Holds (fillRect info ⟨px, py, width, height⟩ color) :=
  Area.holds_fillRect color (h.spans dx dy w l hpx hpy hw hl hwidth hheight)

theorem frame (h : Corner window x y) (dx dy w l : Nat) {width height : UInt32} (hpx : px = x + UInt32.ofNat dx)
    (hpy : py = y + UInt32.ofNat dy) (hw : width.toNat = w) (hl : height.toNat = l) (htwo : 2 ≤ w ∧ 2 ≤ l)
    (hwidth : dx + w ≤ window.bounds.width.toNat) (hheight : dy + l + 30 ≤ window.bounds.height.toNat) (color : UInt32) :
    (visualArea window).Holds (drawRect info ⟨px, py, width, height⟩ color) :=
  Area.holds_drawRect color (h.spans dx dy w l hpx hpy hw hl hwidth hheight) (hw ▸ htwo.1) (hl ▸ htwo.2)

end Corner

section Loops

variable {window : Window} {info : FramebufferInfo} {x y bottom : UInt32}

/-- The lines of the transcript, from one that has room. -/
theorem holds_terminalLines (hin : InBuffer window) (hx : x.toNat = window.bounds.x.toNat + 18)
    (hbottom : bottom.toNat = window.bounds.y.toNat + window.bounds.height.toNat) {lines : List TerminalLine}
    (hlines : ∀ line ∈ lines, 12 * line.text.length ≤ window.bounds.width.toNat)
    (hy : window.bounds.y.toNat ≤ y.toNat ∧ y.toNat + 14 ≤ bottom.toNat + 18) :
    (visualArea window).Holds (terminalLines info x bottom lines y) := by
  have hright := hin.right
  have hlast := hin.bottom
  induction lines generalizing y with
  | nil => exact Area.holds_nil _
  | cons line lines ih =>
      have hline := hlines line List.mem_cons_self
      have hnext : (y + 20).toNat = y.toNat + 20 := toNat_add (by have : (20 : UInt32).toNat = 20 := rfl; omega)
      have hedge : (y + 20 + 16).toNat = y.toNat + 36 := by
        rw [toNat_add (by have : (16 : UInt32).toNat = 16 := rfl; omega), hnext]
        rfl
      unfold terminalLines
      rw [Area.holds_append]
      constructor
      · split
        next => exact Area.holds_nil _
        next =>
          exact Area.holds_drawText _ ⟨by unfold visualArea; dsimp only; omega, by unfold visualArea; dsimp only; omega,
            by unfold visualArea; dsimp only; omega, by unfold visualArea; dsimp only; omega,
            by unfold visualArea; dsimp only; omega⟩
      · split
        next => exact Area.holds_nil _
        next hroom =>
          rw [ge_iff_le, UInt32.le_iff_toNat_le, hedge] at hroom
          exact ih (fun line' hline' => hlines line' (List.mem_cons_of_mem line hline')) ⟨by omega, by omega⟩

/-- The lines of the task manager. -/
theorem holds_taskLines (hin : InBuffer window) (hx : x.toNat = window.bounds.x.toNat + 18)
    (hbottom : bottom.toNat = window.bounds.y.toNat + window.bounds.height.toNat)
    (hwidth : 396 ≤ window.bounds.width.toNat) (runtimes : List AppRuntimeState)
    (hy : window.bounds.y.toNat ≤ y.toNat ∧ y.toNat < 2 ^ 20) :
    (visualArea window).Holds (taskLines info x bottom runtimes y) := by
  have hright := hin.right
  have hlast := hin.bottom
  have htext : (Gui.text "app  native      active 3%  1M  1").length = 33 := rfl
  induction runtimes generalizing y with
  | nil => exact Area.holds_nil _
  | cons runtime runtimes ih =>
      have hedge : (y + 18).toNat = y.toNat + 18 := toNat_add (by have : (18 : UInt32).toNat = 18 := rfl; omega)
      have hnext : (y + 22).toNat = y.toNat + 22 := toNat_add (by have : (22 : UInt32).toNat = 22 := rfl; omega)
      unfold taskLines
      split
      next hroom =>
        rw [UInt32.lt_iff_toNat_lt, hedge] at hroom
        split
        next => exact ih hy
        next =>
          rw [Area.holds_append]
          refine ⟨?_, ih ⟨by omega, by omega⟩⟩
          exact Area.holds_drawText _ ⟨by unfold visualArea; dsimp only; omega, by unfold visualArea; dsimp only; omega,
            by unfold visualArea; dsimp only; omega, by unfold visualArea; dsimp only; omega,
            by unfold visualArea; dsimp only; omega⟩
      next => exact Area.holds_nil _

end Loops

namespace Desktop

variable {K : Type} {d : Desktop K} {window : Window}

theorem holds_terminal (hin : InBuffer window) (happ : window.app = .terminalEmulator) (hfit : d.ContentsFit window) :
    (visualArea window).Holds (d.drawTerminalContents window) := by
  have hcorner := hin.corner
  have hright := hin.right
  have hlast := hin.bottom
  have hx := hcorner.x
  have hy := hcorner.y
  obtain ⟨hwidth, hheight⟩ := hfit
  unfold contentsWidth at hwidth
  rw [happ] at hwidth hheight
  have hheight : 14 + 30 ≤ window.bounds.height.toNat := hheight
  dsimp only at hwidth
  have hbottom : (window.bounds.y + window.bounds.height).toNat = window.bounds.y.toNat + window.bounds.height.toNat :=
    toNat_add (by omega)
  have hprompt : (window.bounds.y + window.bounds.height - 28).toNat =
      window.bounds.y.toNat + window.bounds.height.toNat - 28 := by
    have hvalue : (28 : UInt32).toNat = 28 := rfl
    rw [UInt32.toNat_sub_of_le _ _ (UInt32.le_iff_toNat_le.mpr (by omega)), hbottom, hvalue]
  have hline : (window.bounds.y + window.bounds.height - 13).toNat =
      window.bounds.y.toNat + window.bounds.height.toNat - 13 := by
    have hvalue : (13 : UInt32).toNat = 13 := rfl
    rw [UInt32.toNat_sub_of_le _ _ (UInt32.le_iff_toNat_le.mpr (by omega)), hbottom, hvalue]
  unfold drawTerminalContents
  dsimp only
  generalize window.bounds.x + 18 = x at hx ⊢
  generalize window.bounds.y + kTitleBarHeight + 18 = y at hy ⊢
  generalize window.bounds.y + window.bounds.height = bottom at hbottom hprompt hline ⊢
  simp only [Area.holds_append]
  refine ⟨⟨⟨?_, ?_⟩, ?_⟩, ?_⟩
  · refine holds_terminalLines hin hx hbottom (fun line hmem => ?_) ⟨by omega, by omega⟩
    have hline := le_widest (List.mem_map_of_mem (f := TerminalLine.text) (List.mem_of_mem_drop hmem))
    omega
  · have hlength : (appendText (copyText (kTerminalInputLength + 4) (Gui.text "> ")) (kTerminalInputLength + 4)
        d.apps.terminal.session.input).length ≤ 2 + d.apps.terminal.session.input.length := by
      unfold appendText
      rw [List.length_append, List.length_take]
      exact Nat.add_le_add (le_refl 2) (Nat.min_le_right _ _)
    unfold visualArea
    exact Area.holds_drawText _ ⟨by dsimp only; omega, by dsimp only; omega, by dsimp only; omega, by dsimp only; omega,
      by dsimp only; omega⟩
  · split
    next hvisible =>
      rw [if_pos hvisible] at hwidth
      have hcursor : (x + 24 + UInt32.ofNat d.apps.terminal.session.cursor * 12).toNat =
          x.toNat + 24 + d.apps.terminal.session.cursor * 12 := by
        have h24 : (24 : UInt32).toNat = 24 := rfl
        have h12 : (12 : UInt32).toNat = 12 := rfl
        rw [UInt32.toNat_add, UInt32.toNat_add, UInt32.toNat_mul, UInt32.toNat_ofNat', h24, h12]
        omega
      have h10 : (10 : UInt32).toNat = 10 := rfl
      have h2 : (2 : UInt32).toNat = 2 := rfl
      unfold visualArea
      exact Area.holds_fillRect _ ⟨by dsimp only; omega, by dsimp only; omega, by dsimp only; omega, by dsimp only; omega,
        by dsimp only; omega⟩
    next => exact Area.holds_nil _
  · split
    next hselection =>
      rw [if_pos hselection] at hwidth
      have hlength : (Gui.text "copied").length = 6 := rfl
      have hpx : (x + 280).toNat = x.toNat + 280 := toNat_add (by have : (280 : UInt32).toNat = 280 := rfl; omega)
      unfold visualArea
      exact Area.holds_drawText _ ⟨by dsimp only; omega, by dsimp only; omega, by dsimp only; omega, by dsimp only; omega,
        by dsimp only; omega⟩
    next => exact Area.holds_nil _

theorem holds_fileManager (hin : InBuffer window) (happ : window.app = .fileManager) (hfit : d.ContentsFit window) :
    (visualArea window).Holds (d.drawApplicationContents window) := by
  have hcorner := hin.corner
  obtain ⟨hwidth, hheight⟩ := hfit
  unfold contentsWidth at hwidth
  rw [happ] at hwidth hheight
  have hheight : 122 + 30 ≤ window.bounds.height.toNat := hheight
  dsimp only at hwidth
  have hroom : ∀ t ∈ [d.apps.fileManager.currentPath, Gui.text "back forward new rename copy move del",
      Gui.text "boot  kernel  tmp  readme  notes.txt", d.apps.fileManager.selectedPath, d.apps.fileManager.error],
      0 + 12 * t.length ≤ window.bounds.width.toNat := fun t ht => by
    have := le_widest ht
    omega
  unfold drawApplicationContents
  rw [happ]
  simp only [Area.holds_append]
  refine ⟨⟨⟨⟨?_, ?_⟩, ?_⟩, ?_⟩, ?_⟩
  · exact hcorner.text 0 0 (UInt32.add_zero _).symm (UInt32.add_zero _).symm (hroom _ (by simp)) (by omega) _
  · exact hcorner.text 0 24 (UInt32.add_zero _).symm rfl (hroom _ (by simp)) (by omega) _
  · exact hcorner.text 0 52 (UInt32.add_zero _).symm rfl (hroom _ (by simp)) (by omega) _
  · exact hcorner.text 0 80 (UInt32.add_zero _).symm rfl (hroom _ (by simp)) (by omega) _
  · split
    next => exact Area.holds_nil _
    next => exact hcorner.text 0 108 (UInt32.add_zero _).symm rfl (hroom _ (by simp)) (by omega) _

theorem holds_textEditor (hin : InBuffer window) (happ : window.app = .textEditor) (hfit : d.ContentsFit window) :
    (visualArea window).Holds (d.drawApplicationContents window) := by
  have hcorner := hin.corner
  have hright := hin.right
  obtain ⟨hwidth, hheight⟩ := hfit
  unfold contentsWidth at hwidth
  rw [happ] at hwidth hheight
  have hheight : 178 + 30 ≤ window.bounds.height.toNat := hheight
  dsimp only at hwidth
  have hpath : ∀ t ∈ [d.apps.editor.path, Gui.text "new open save save-as"],
      0 + 12 * t.length ≤ window.bounds.width.toNat := fun t ht => by
    have := le_widest ht
    omega
  have htext : ∀ t ∈ [d.apps.editor.text, Gui.text "selection active"],
      10 + 12 * t.length ≤ window.bounds.width.toNat := fun t ht => by
    have := le_widest ht
    omega
  have hmenu := hpath (Gui.text "new open save save-as") (by simp)
  rw [show (Gui.text "new open save save-as").length = 21 from rfl] at hmenu
  have h44 : (44 : UInt32).toNat = 44 := rfl
  have hframe : (if window.bounds.width > 44 then window.bounds.width - 44 else 120).toNat =
      window.bounds.width.toNat - 44 := by
    rw [if_pos (UInt32.lt_iff_toNat_lt.mpr (by omega)),
      UInt32.toNat_sub_of_le _ _ (UInt32.le_iff_toNat_le.mpr (by omega)), h44]
  unfold drawApplicationContents
  rw [happ]
  simp only [Area.holds_append]
  refine ⟨⟨⟨⟨⟨?_, ?_⟩, ?_⟩, ?_⟩, ?_⟩, ?_⟩
  · exact hcorner.text 0 0 (UInt32.add_zero _).symm (UInt32.add_zero _).symm (hpath _ (by simp)) (by omega) _
  · exact hcorner.text 0 24 (UInt32.add_zero _).symm rfl (hpath _ (by simp)) (by omega) _
  · exact hcorner.frame 0 48 _ 130 (UInt32.add_zero _).symm rfl hframe rfl ⟨by omega, by decide⟩ (by omega) (by omega) _
  · exact hcorner.text 10 66 rfl rfl (htext _ (by simp)) (by omega) _
  · split
    next => exact hcorner.text 10 94 rfl rfl (htext _ (by simp)) (by omega) _
    next => exact Area.holds_nil _
  · refine hcorner.fill (10 + d.apps.editor.cursor % 40 * 12) 82 10 2 ?_ rfl rfl rfl (by omega) (by omega) _
    rw [UInt32.add_assoc, UInt32.ofNat_add, UInt32.ofNat_mul]
    rfl

theorem holds_imageViewer (hin : InBuffer window) (happ : window.app = .imageViewer) (hfit : d.ContentsFit window) :
    (visualArea window).Holds (d.drawApplicationContents window) := by
  have hcorner := hin.corner
  obtain ⟨hwidth, hheight⟩ := hfit
  unfold contentsWidth at hwidth
  rw [happ] at hwidth hheight
  have hwidth : 150 ≤ window.bounds.width.toNat := hwidth
  have hheight : 110 + 30 ≤ window.bounds.height.toNat := hheight
  have hname : (Gui.text "SO.png").length = 6 := rfl
  unfold drawApplicationContents drawImage
  rw [happ]
  simp only [Area.holds_append]
  refine ⟨⟨?_, ?_⟩, ?_⟩
  · exact hcorner.text 0 0 (UInt32.add_zero _).symm (UInt32.add_zero _).symm (by omega) (by omega) _
  · exact hcorner.fill 0 26 150 84 (UInt32.add_zero _).symm rfl rfl rfl (by omega) (by omega) _
  · exact hcorner.fill 18 38 114 60 rfl rfl rfl rfl (by omega) (by omega) _

theorem holds_calculator (hin : InBuffer window) (happ : window.app = .calculator) (hfit : d.ContentsFit window) :
    (visualArea window).Holds (d.drawApplicationContents window) := by
  have hcorner := hin.corner
  obtain ⟨hwidth, hheight⟩ := hfit
  unfold contentsWidth at hwidth
  rw [happ] at hwidth hheight
  have hheight : 136 + 30 ≤ window.bounds.height.toNat := hheight
  dsimp only at hwidth
  have hexpression : 12 * d.apps.calculator.expression.length ≤ widest [d.apps.calculator.expression] :=
    le_widest List.mem_cons_self
  have hkeys : ∀ s ∈ [Gui.text "789/", Gui.text "456*", Gui.text "123-", Gui.text "C0=+"], s.length = 4 := by decide
  unfold drawApplicationContents
  rw [happ]
  simp only [Area.holds_append]
  refine ⟨⟨⟨⟨⟨?_, ?_⟩, ?_⟩, ?_⟩, ?_⟩, ?_⟩
  · exact hcorner.text 0 0 (UInt32.add_zero _).symm (UInt32.add_zero _).symm (by omega) (by omega) _
  · refine Area.holds_flatMap fun row hrow => Area.holds_flatMap fun col hcol => ?_
    rw [List.mem_range] at hrow hcol
    refine hcorner.frame (col * 34) (30 + row * 28) 26 20 ?_ ?_ rfl rfl (by decide) (by omega) (by omega) _
    · rw [UInt32.ofNat_mul]
      rfl
    · rw [UInt32.ofNat_add, UInt32.ofNat_mul, ← UInt32.add_assoc]
      rfl
  · exact hcorner.text 8 38 rfl rfl (by rw [hkeys _ (by simp)]; omega) (by omega) _
  · exact hcorner.text 8 66 rfl rfl (by rw [hkeys _ (by simp)]; omega) (by omega) _
  · exact hcorner.text 8 94 rfl rfl (by rw [hkeys _ (by simp)]; omega) (by omega) _
  · exact hcorner.text 8 122 rfl rfl (by rw [hkeys _ (by simp)]; omega) (by omega) _

theorem holds_settings (hin : InBuffer window) (happ : window.app = .settings) (hfit : d.ContentsFit window) :
    (visualArea window).Holds (d.drawApplicationContents window) := by
  have hcorner := hin.corner
  have hright := hin.right
  obtain ⟨hwidth, hheight⟩ := hfit
  unfold contentsWidth at hwidth
  rw [happ] at hwidth hheight
  have hheight : 92 + 30 ≤ window.bounds.height.toNat := hheight
  dsimp only at hwidth
  have hlength : (Gui.text "Display Wall Theme Sound Mouse Keys Net Sys").length = 43 := rfl
  have hpages : 12 * (Gui.text "Display Wall Theme Sound Mouse Keys Net Sys").length ≤
      widest [Gui.text "Display Wall Theme Sound Mouse Keys Net Sys"] := le_widest List.mem_cons_self
  have htheme : (Gui.text (if d.apps.settings.darkTheme then "theme: dark" else "theme: light")).length ≤ 12 := by
    split <;> decide
  have hvolume : (Gui.text "volume adjustable").length = 17 := rfl
  have hbar : (34 + d.apps.settings.page * 42).toNat = 34 + d.apps.settings.page.toNat * 42 := by
    have h34 : (34 : UInt32).toNat = 34 := rfl
    have h42 : (42 : UInt32).toNat = 42 := rfl
    rw [UInt32.toNat_add, UInt32.toNat_mul, h34, h42]
    omega
  unfold drawApplicationContents
  rw [happ]
  simp only [Area.holds_append]
  refine ⟨⟨⟨?_, ?_⟩, ?_⟩, ?_⟩
  · exact hcorner.text 0 0 (UInt32.add_zero _).symm (UInt32.add_zero _).symm (by omega) (by omega) _
  · exact hcorner.fill 0 30 _ 10 (UInt32.add_zero _).symm rfl hbar rfl (by omega) (by omega) _
  · exact hcorner.text 0 54 (UInt32.add_zero _).symm rfl (by omega) (by omega) _
  · exact hcorner.text 0 78 (UInt32.add_zero _).symm rfl (by omega) (by omega) _

theorem holds_taskManager (hin : InBuffer window) (happ : window.app = .taskManager) (hfit : d.ContentsFit window) :
    (visualArea window).Holds (d.drawApplicationContents window) := by
  have hcorner := hin.corner
  have hright := hin.right
  have hlast := hin.bottom
  obtain ⟨hwidth, hheight⟩ := hfit
  unfold contentsWidth at hwidth
  rw [happ] at hwidth hheight
  have hheight : 14 + 30 ≤ window.bounds.height.toNat := hheight
  dsimp only at hwidth
  have hlength : (Gui.text "PID  Name        State CPU MEM WIN").length = 34 := rfl
  have htitle : 12 * (Gui.text "PID  Name        State CPU MEM WIN").length ≤
      widest [Gui.text "PID  Name        State CPU MEM WIN"] := le_widest List.mem_cons_self
  have hfirst : (window.bounds.y + kTitleBarHeight + 18 + 24).toNat = window.bounds.y.toNat + 48 + 24 :=
    (hcorner.offset 0 24 rfl rfl (by decide) (by decide)).2
  unfold drawApplicationContents
  rw [happ]
  simp only [Area.holds_append]
  refine ⟨?_, ?_⟩
  · exact hcorner.text 0 0 (UInt32.add_zero _).symm (UInt32.add_zero _).symm (by omega) (by omega) _
  · exact holds_taskLines hin hcorner.x (toNat_add (by omega)) (by omega) _ ⟨by omega, by omega⟩

/-- Two short lines, as the package manager and the software center have them. -/
theorem holds_lines {info : FramebufferInfo} {first second : Text} {color color' : UInt32} (hin : InBuffer window)
    (hfirst : 12 * first.length ≤ window.bounds.width.toNat) (hsecond : 12 * second.length ≤ window.bounds.width.toNat)
    (hheight : 42 + 30 ≤ window.bounds.height.toNat) :
    (visualArea window).Holds (drawText info (window.bounds.x + 18) (window.bounds.y + kTitleBarHeight + 18) first color ++
      drawText info (window.bounds.x + 18) (window.bounds.y + kTitleBarHeight + 18 + 28) second color') := by
  have hcorner := hin.corner
  rw [Area.holds_append]
  exact ⟨hcorner.text 0 0 (UInt32.add_zero _).symm (UInt32.add_zero _).symm (by omega) (by omega) _,
    hcorner.text 0 28 (UInt32.add_zero _).symm rfl (by omega) (by omega) _⟩

theorem holds_systemMonitor (hin : InBuffer window) (happ : window.app = .systemMonitor) (hfit : d.ContentsFit window) :
    (visualArea window).Holds (d.drawSystemMonitorContents window) := by
  have hcorner := hin.corner
  obtain ⟨hwidth, hheight⟩ := hfit
  unfold contentsWidth at hwidth
  rw [happ] at hwidth hheight
  have hwidth : 150 ≤ window.bounds.width.toNat := hwidth
  have hheight : 86 + 30 ≤ window.bounds.height.toNat := hheight
  have hcpu : (Gui.text "CPU 3%").length = 6 := rfl
  have hram : (Gui.text "RAM 12 MB").length = 9 := rfl
  have hfps : (Gui.text "FPS 60").length = 6 := rfl
  have hbar : window.bounds.y + kTitleBarHeight + 18 + 24 + 24 + 28 =
      window.bounds.y + kTitleBarHeight + 18 + UInt32.ofNat 76 := by
    rw [UInt32.add_assoc, UInt32.add_assoc]
    rfl
  unfold drawSystemMonitorContents
  simp only [Area.holds_append]
  refine ⟨⟨⟨⟨?_, ?_⟩, ?_⟩, ?_⟩, ?_⟩
  · exact hcorner.text 0 0 (UInt32.add_zero _).symm (UInt32.add_zero _).symm (by omega) (by omega) _
  · exact hcorner.text 0 24 (UInt32.add_zero _).symm rfl (by omega) (by omega) _
  · exact hcorner.text 0 48 (UInt32.add_zero _).symm (UInt32.add_assoc _ _ _) (by omega) (by omega) _
  · exact hcorner.fill 0 76 150 10 (UInt32.add_zero _).symm hbar rfl rfl (by omega) (by omega) _
  · exact hcorner.fill 0 76 48 10 (UInt32.add_zero _).symm hbar rfl rfl (by omega) (by omega) _

/-- **Contents that fit stay in the window and its margin.** -/
theorem contents_hold (hin : InBuffer window) (hfit : d.ContentsFit window) :
    (visualArea window).Holds (d.drawApplicationContents window) := by
  cases happ : window.app with
  | fileManager => exact holds_fileManager hin happ hfit
  | textEditor => exact holds_textEditor hin happ hfit
  | imageViewer => exact holds_imageViewer hin happ hfit
  | calculator => exact holds_calculator hin happ hfit
  | settings => exact holds_settings hin happ hfit
  | taskManager => exact holds_taskManager hin happ hfit
  | packageManager =>
      obtain ⟨hwidth, hheight⟩ := hfit
      unfold contentsWidth at hwidth
      rw [happ] at hwidth hheight
      have hheight : 42 + 30 ≤ window.bounds.height.toNat := hheight
      have hfirst : 228 ≤ window.bounds.width.toNat := hwidth
      unfold drawApplicationContents
      rw [happ]
      exact holds_lines hin hfirst (Nat.le_trans (by decide) hfirst) hheight
  | systemMonitor =>
      have h := holds_systemMonitor hin happ hfit
      unfold drawApplicationContents
      rw [happ]
      exact h
  | terminalEmulator =>
      have h := holds_terminal hin happ hfit
      unfold drawApplicationContents
      rw [happ]
      exact h
  | softwareCenter =>
      obtain ⟨hwidth, hheight⟩ := hfit
      unfold contentsWidth at hwidth
      rw [happ] at hwidth hheight
      have hheight : 42 + 30 ≤ window.bounds.height.toNat := hheight
      have hfirst : 408 ≤ window.bounds.width.toNat := hwidth
      unfold drawApplicationContents
      rw [happ]
      exact holds_lines hin hfirst (Nat.le_trans (by decide) hfirst) hheight

end Desktop

end Gui
end UefiBoot
