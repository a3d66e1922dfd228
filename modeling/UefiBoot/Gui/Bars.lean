import UefiBoot.Gui.Canvas
import UefiBoot.Gui.Dispatch

/-!
# `Gui.Bars` — the buttons that are drawn and the buttons that are clicked

`DrawBars` draws a row of buttons that launch applications and `DrawTaskbar` one of buttons of windows, two rows of
pixels of which are the same. `FindLauncherAppAt` and `FindTaskbarWindowAt` lay both rows out once more. A button of the
first row that does not fit on the screen is not drawn, but it is found; where the rows overlap, the button of the
window is painted over the other one, but the application is launched. `Clear` says that a point is free of this, and
`hits_agree_iff` that drawing and clicking agree there and nowhere else.
-/

namespace UefiBoot
namespace Gui

/-- The buttons of the two bars. -/
inductive Button where
  | launcher (app : ApplicationDescriptor)
  | window (index : Nat)
  deriving DecidableEq

/-! ## What is drawn -/

/-- The row of the launcher. -/
def launcherY (framebuffer : FramebufferInfo) : UInt32 := framebuffer.height - kTaskBarHeight + 8

/-- The row of the windows. -/
def taskbarY (framebuffer : FramebufferInfo) : UInt32 := framebuffer.height - kTaskBarHeight + 40

/-- The loop of `DrawBars` over the launcher from an application on: it ends where a button does not fit. -/
def launcherButtons (framebuffer : FramebufferInfo) :
    List ApplicationDescriptor → UInt32 → List (ApplicationDescriptor × Rect)
  | [], _ => []
  | app :: apps, x =>
    if x + kLauncherButtonWidth < framebuffer.width then
      (app, ⟨x, launcherY framebuffer, kLauncherButtonWidth, kLauncherButtonHeight⟩) ::
        launcherButtons framebuffer apps (x + (kLauncherButtonWidth + 8))
    else []

/-- The launcher buttons of `DrawBars`. -/
def drawBars (framebuffer : FramebufferInfo) : List (ApplicationDescriptor × Rect) :=
  launcherButtons framebuffer kApplications 18

/-- The loop of `DrawTaskbar` from a window on. -/
def taskbarButtons (framebuffer : FramebufferInfo) (activeDesktop : UInt8) :
    List Window → Nat → UInt32 → List (Nat × Rect)
  | [], _, _ => []
  | window :: windows, i, x =>
    if !window.visible || window.desktop != activeDesktop then
      taskbarButtons framebuffer activeDesktop windows (i + 1) x
    else
      let buttonWidth : UInt32 := if window.app = .terminalEmulator then 112 else 156
      (i, ⟨x, taskbarY framebuffer, buttonWidth, 26⟩) ::
        taskbarButtons framebuffer activeDesktop windows (i + 1) (x + (buttonWidth + 10))

/-- The buttons of `DrawTaskbar`. -/
def drawTaskbar (wm : WindowManager) : List (Nat × Rect) :=
  taskbarButtons wm.framebuffer wm.activeDesktop wm.windows 0 18

/-- Both rows, in the order in which they are painted. -/
def painted (wm : WindowManager) : List (Button × Rect) :=
  (drawBars wm.framebuffer).map (fun b => (.launcher b.1, b.2)) ++ (drawTaskbar wm).map fun b => (.window b.1, b.2)

/-- The button that is seen at a point. -/
def lastPainted (wm : WindowManager) (x y : Int32) : Option Button :=
  (((painted wm).filter fun b => decide (b.2.Covers x y)).getLast?).map Prod.fst

/-! ## What is clicked -/

/-- The button that `HandleMouseClick` takes a click for. -/
def clicked (wm : WindowManager) (x y : Int32) : Option Button :=
  match wm.findLauncherAppAt x y with
  | some app => some (.launcher app)
  | none     => (wm.findTaskbarWindowAt x y).map .window

/-- What a click on a button does. -/
def Desktop.activate {K : Type} (k : AppKernel K) (d : Desktop K) : Button → Desktop K
  | .launcher app => (d.launchApplicationById k (some app.id)).2
  | .window index => d.restoreWindowFromTaskbar index

theorem Desktop.handleMouseClick_clicked {K : Type} (k : AppKernel K) (d : Desktop K) {x y : Int32} {b : Button}
    (h : clicked d.wm x y = some b) : d.handleMouseClick k x y 0 = d.activate k b := by
  unfold clicked at h
  unfold handleMouseClick
  rw [if_neg (by decide)]
  cases hlauncher : d.wm.findLauncherAppAt x y with
  | some app =>
      rw [hlauncher] at h
      cases h
      rfl
  | none =>
      rw [hlauncher] at h
      dsimp only at h ⊢
      cases htaskbar : d.wm.findTaskbarWindowAt x y with
      | some index =>
          rw [htaskbar] at h
          cases h
          rfl
      | none =>
          rw [htaskbar] at h
          cases h

/-- The launcher buttons as `FindLauncherAppAt` lays them out: all of them. -/
def launcherRects (framebuffer : FramebufferInfo) :
    List ApplicationDescriptor → UInt32 → List (ApplicationDescriptor × Rect)
  | [], _ => []
  | app :: apps, x =>
    (app, ⟨x, launcherY framebuffer, kLauncherButtonWidth, kLauncherButtonHeight⟩) ::
      launcherRects framebuffer apps (x + (kLauncherButtonWidth + 8))

def launcher (framebuffer : FramebufferInfo) : List (ApplicationDescriptor × Rect) :=
  launcherRects framebuffer kApplications 18

/-! ## The claim of the bars -/

/-- Drawing and hit testing agree on a point. -/
structure Agrees (wm : WindowManager) (x y : Int32) : Prop where
  launcher : ∀ app, wm.findLauncherAppAt x y = some app ↔
    ∃ rect, (app, rect) ∈ drawBars wm.framebuffer ∧ rect.Covers x y
  taskbar  : ∀ i, wm.findTaskbarWindowAt x y = some i ↔ ∃ rect, (i, rect) ∈ drawTaskbar wm ∧ rect.Covers x y
  click    : ∀ b, lastPainted wm x y = some b → clicked wm x y = some b

/-- The point is in no button of the launcher that is left out, and in at most one button; and the lower edge of its
    button is a coordinate. -/
structure Clear (wm : WindowManager) (x y : Int32) : Prop where
  drawn : ∀ b ∈ launcher wm.framebuffer, b.2.Covers x y →
    (b ∈ drawBars wm.framebuffer ↔ wm.framebuffer.height.toNat < 2 ^ 31 + 36)
  edge  : ∀ b ∈ drawTaskbar wm, b.2.Covers x y → wm.framebuffer.height.toNat < 2 ^ 31 + 12
  apart : ∀ b ∈ drawBars wm.framebuffer, ∀ c ∈ drawTaskbar wm, ¬ (b.2.Covers x y ∧ c.2.Covers x y)

/-! ## A row of buttons -/

/-- Buttons from the left to the right in one row, each to the right of the one before. -/
def IsRow {β : Type} (top height : UInt32) : Nat → List (β × Rect) → Prop
  | _, []              => True
  | left, b :: buttons =>
    b.2.y = top ∧ b.2.height = height ∧ left ≤ b.2.x.toNat ∧ b.2.x.toNat + b.2.width.toNat < 2 ^ 31 ∧
      IsRow top height (b.2.x.toNat + b.2.width.toNat) buttons

variable {β : Type} {top height : UInt32} {left : Nat} {buttons : List (β × Rect)} {b c : β × Rect} {x y : Int32}

theorem IsRow.mem (h : IsRow top height left buttons) (hb : b ∈ buttons) :
    b.2.y = top ∧ b.2.height = height ∧ left ≤ b.2.x.toNat ∧ b.2.x.toNat + b.2.width.toNat < 2 ^ 31 := by
  induction buttons generalizing left with
  | nil => cases hb
  | cons first rest ih =>
      obtain ⟨hy, hheight, hleft, hright, hrest⟩ := h
      rcases List.mem_cons.mp hb with rfl | hb
      · exact ⟨hy, hheight, hleft, hright⟩
      · obtain ⟨hy', hheight', hleft', hright'⟩ := ih hrest hb
        exact ⟨hy', hheight', by omega, hright'⟩

/-- A point is in one button of a row at most. -/
theorem IsRow.unique (h : IsRow top height left buttons) (hb : b ∈ buttons) (hc : c ∈ buttons)
    (hbxy : b.2.Covers x y) (hcxy : c.2.Covers x y) : b = c := by
  unfold Rect.Covers at hbxy hcxy
  induction buttons generalizing left with
  | nil => cases hb
  | cons first rest ih =>
      obtain ⟨-, -, -, -, hrest⟩ := h
      rcases List.mem_cons.mp hb with rfl | hb'
      · rcases List.mem_cons.mp hc with rfl | hc'
        · rfl
        · obtain ⟨-, -, hleft, -⟩ := hrest.mem hc'
          omega
      · rcases List.mem_cons.mp hc with rfl | hc'
        · obtain ⟨-, -, hleft, -⟩ := hrest.mem hb'
          omega
        · exact ih hrest hb' hc'

/-- The button that a scan of a row finds. -/
theorem IsRow.find_iff (h : IsRow top height left buttons) (hbottom : top.toNat + height.toNat < 2 ^ 32)
    (hx : 0 ≤ x.toInt) (hy : 0 ≤ y.toInt) :
    buttons.find? (fun b => pointInRect x y b.2) = some b ↔
      b ∈ buttons ∧ b.2.Covers x y ∧ top.toNat + height.toNat < 2 ^ 31 := by
  have hpoint : ∀ c ∈ buttons, pointInRect x y c.2 = true ↔
      c.2.Covers x y ∧ top.toNat + height.toNat < 2 ^ 31 := by
    intro c hc
    obtain ⟨hcy, hcheight, -, hright⟩ := h.mem hc
    rw [← hcy, ← hcheight] at hbottom ⊢
    exact pointInRect_iff hx hy hright hbottom
  constructor
  · intro hfind
    have hmem := List.mem_of_find?_eq_some hfind
    have htrue := List.find?_some hfind
    exact ⟨hmem, (hpoint b hmem).mp htrue⟩
  · rintro ⟨hmem, hcovers⟩
    cases hfind : buttons.find? (fun b => pointInRect x y b.2) with
    | none =>
        have hnot := List.find?_eq_none.mp hfind b hmem
        exact absurd ((hpoint b hmem).mpr hcovers) hnot
    | some c =>
        have hcmem := List.mem_of_find?_eq_some hfind
        have htrue := List.find?_some hfind
        obtain ⟨hcxy, -⟩ := (hpoint c hcmem).mp htrue
        rw [h.unique hmem hcmem hcovers.1 hcxy]

/-! ## The launcher -/

section Launcher

variable {framebuffer : FramebufferInfo} {apps : List ApplicationDescriptor} {x₀ : UInt32}

theorem isRow_launcherRects (hx : x₀.toNat + 104 * apps.length < 2 ^ 31) (hleft : left ≤ x₀.toNat) :
    IsRow (launcherY framebuffer) kLauncherButtonHeight left (launcherRects framebuffer apps x₀) := by
  induction apps generalizing x₀ left with
  | nil => trivial
  | cons app apps ih =>
      have hwidth : kLauncherButtonWidth.toNat = 96 := rfl
      have hstep : (kLauncherButtonWidth + 8).toNat = 104 := rfl
      rw [List.length_cons] at hx
      have hnext : (x₀ + (kLauncherButtonWidth + 8)).toNat = x₀.toNat + 104 := by
        rw [toNat_add (by omega), hstep]
      refine ⟨rfl, rfl, hleft, ?_, ih ?_ ?_⟩
      · show x₀.toNat + kLauncherButtonWidth.toNat < 2 ^ 31
        omega
      · omega
      · show x₀.toNat + kLauncherButtonWidth.toNat ≤ _
        omega

/-- `DrawBars` draws the buttons up to the first one that does not fit. -/
theorem launcherButtons_eq (framebuffer : FramebufferInfo) (apps : List ApplicationDescriptor) (x₀ : UInt32) :
    launcherButtons framebuffer apps x₀ = (launcherRects framebuffer apps x₀).takeWhile fun b =>
      decide (b.2.x + kLauncherButtonWidth < framebuffer.width) := by
  induction apps generalizing x₀ with
  | nil => rfl
  | cons app apps ih =>
      unfold launcherButtons launcherRects
      rw [List.takeWhile_cons, ih]
      dsimp only
      split_ifs with hfits hdec
      · rfl
      · exact absurd (decide_eq_true hfits) hdec
      · rename_i hdec
        exact absurd (of_decide_eq_true hdec) hfits
      · rfl

/-- The loop of `FindLauncherAppAt` goes over the same rectangles. -/
theorem launcherScan_eq (hx : x₀.toNat + 104 * apps.length < 2 ^ 31) :
    WindowManager.launcherScan x y (launcherY framebuffer).toInt32 apps x₀.toInt32 =
      ((launcherRects framebuffer apps x₀).find? fun b => pointInRect x y b.2).map Prod.fst := by
  induction apps generalizing x₀ with
  | nil => rfl
  | cons app apps ih =>
      have hstep : (kLauncherButtonWidth + 8).toNat = 104 := rfl
      rw [List.length_cons] at hx
      have hroom : (x₀ + (kLauncherButtonWidth + 8)).toNat + 104 * apps.length < 2 ^ 31 := by
        rw [toNat_add (by omega), hstep]
        omega
      have hnext := ih hroom
      unfold WindowManager.launcherScan launcherRects
      rw [List.find?_cons]
      dsimp only
      rw [UInt32.toUInt32_toInt32, UInt32.toUInt32_toInt32]
      cases pointInRect x y ⟨x₀, launcherY framebuffer, kLauncherButtonWidth, kLauncherButtonHeight⟩ with
      | true => rfl
      | false =>
          rw [if_neg Bool.false_ne_true, ← hnext]
          rfl

theorem toNat_launcherY (h : 200 ≤ framebuffer.height.toNat) :
    (launcherY framebuffer).toNat = framebuffer.height.toNat - 70 := by
  have hlt := framebuffer.height.toNat_lt
  have hbar : kTaskBarHeight.toNat = 78 := rfl
  have height : (8 : UInt32).toNat = 8 := rfl
  unfold launcherY
  rw [UInt32.toNat_add, UInt32.toNat_sub, hbar, height]
  omega

theorem isRow_launcher (framebuffer : FramebufferInfo) :
    IsRow (launcherY framebuffer) kLauncherButtonHeight 18 (launcher framebuffer) :=
  isRow_launcherRects (by decide) (by decide)

/-- `FindLauncherAppAt` finds the button at a point, drawn or not, if its lower edge is a coordinate. -/
theorem findLauncherAppAt_iff {wm : WindowManager} (hheight : 200 ≤ wm.framebuffer.height.toNat) (hx : 0 ≤ x.toInt)
    (hy : 0 ≤ y.toInt) (app : ApplicationDescriptor) :
    wm.findLauncherAppAt x y = some app ↔
      ∃ rect, (app, rect) ∈ launcher wm.framebuffer ∧ rect.Covers x y ∧
        wm.framebuffer.height.toNat < 2 ^ 31 + 36 := by
  have hrow := isRow_launcher wm.framebuffer
  have htop := toNat_launcherY hheight
  have hlt := wm.framebuffer.height.toNat_lt
  have hbutton : kLauncherButtonHeight.toNat = 34 := rfl
  have hbottom : (launcherY wm.framebuffer).toNat + kLauncherButtonHeight.toNat < 2 ^ 32 := by omega
  have hedge : (launcherY wm.framebuffer).toNat + kLauncherButtonHeight.toNat < 2 ^ 31 ↔
      wm.framebuffer.height.toNat < 2 ^ 31 + 36 := by omega
  unfold WindowManager.findLauncherAppAt
  show (if y < (launcherY wm.framebuffer).toInt32 ∨
    y ≥ (launcherY wm.framebuffer).toInt32 + kLauncherButtonHeight.toInt32 then none
    else WindowManager.launcherScan x y (launcherY wm.framebuffer).toInt32 kApplications (18 : UInt32).toInt32) = _ ↔ _
  split_ifs with hout
  · -- the point is above or below the row
    refine iff_of_false (by simp) ?_
    rintro ⟨rect, hmem, hcovers, hheight'⟩
    obtain ⟨hrecty, hrecth, -, -⟩ := hrow.mem hmem
    unfold Rect.Covers at hcovers
    rw [hrecty, hrecth] at hcovers
    have hcast := toInt32_toInt (launcherY wm.framebuffer)
    have hcast' := toInt32_toInt (launcherY wm.framebuffer + kLauncherButtonHeight)
    rw [toNat_add hbottom, UInt32.toInt32_add] at hcast'
    rw [ge_iff_le, Int32.lt_iff_toInt_lt, Int32.le_iff_toInt_le] at hout
    omega
  · rw [launcherScan_eq (by decide), Option.map_eq_some_iff]
    constructor
    · rintro ⟨b, hfind, rfl⟩
      obtain ⟨hmem, hcovers, hle⟩ := (hrow.find_iff hbottom hx hy).mp hfind
      exact ⟨b.2, hmem, hcovers, hedge.mp hle⟩
    · rintro ⟨rect, hmem, hcovers, hle⟩
      exact ⟨(app, rect), (hrow.find_iff hbottom hx hy).mpr ⟨hmem, hcovers, hedge.mpr hle⟩, rfl⟩

end Launcher

/-! ## The windows -/

section Taskbar

variable {framebuffer : FramebufferInfo} {activeDesktop : UInt8} {windows : List Window} {i : Nat} {x₀ : UInt32}

theorem isRow_taskbarButtons (hx : x₀.toNat + 166 * windows.length < 2 ^ 31) (hleft : left ≤ x₀.toNat) :
    IsRow (taskbarY framebuffer) 26 left (taskbarButtons framebuffer activeDesktop windows i x₀) := by
  induction windows generalizing x₀ left i with
  | nil => trivial
  | cons window windows ih =>
      rw [List.length_cons] at hx
      unfold taskbarButtons
      have hwidth : (if window.app = .terminalEmulator then (112 : UInt32) else 156).toNat ≤ 156 := by
        split_ifs
        · decide
        · decide
      dsimp only
      generalize (if window.app = .terminalEmulator then (112 : UInt32) else 156) = width at hwidth ⊢
      split_ifs with hskip
      · exact ih (by omega) hleft
      · have hten : (10 : UInt32).toNat = 10 := rfl
        have hstep : (width + 10).toNat = width.toNat + 10 := toNat_add (by omega)
        have hnext : (x₀ + (width + 10)).toNat = x₀.toNat + (width + 10).toNat := toNat_add (by omega)
        refine ⟨rfl, rfl, hleft, ?_, ih ?_ ?_⟩
        · show x₀.toNat + width.toNat < 2 ^ 31
          omega
        · omega
        · show x₀.toNat + width.toNat ≤ (x₀ + (width + 10)).toNat
          omega

/-- The loop of `FindTaskbarWindowAt` goes over the rectangles of `DrawTaskbar`. -/
theorem taskbarScan_eq (framebuffer : FramebufferInfo) :
    WindowManager.taskbarScan activeDesktop x y (taskbarY framebuffer).toInt32 windows i x₀.toInt32 =
      ((taskbarButtons framebuffer activeDesktop windows i x₀).find? fun b => pointInRect x y b.2).map Prod.fst := by
  induction windows generalizing x₀ i with
  | nil => rfl
  | cons window windows ih =>
      unfold WindowManager.taskbarScan taskbarButtons
      cases hskip : !window.visible || window.desktop != activeDesktop with
      | true =>
          rw [if_pos rfl, if_pos rfl]
          exact ih
      | false =>
          have hwidth : (if window.app = .terminalEmulator then (112 : Int32) else 156) =
              (if window.app = .terminalEmulator then (112 : UInt32) else 156).toInt32 := by
            split_ifs
            · rfl
            · rfl
          rw [if_neg Bool.false_ne_true, if_neg Bool.false_ne_true]
          dsimp only
          rw [hwidth]
          generalize (if window.app = .terminalEmulator then (112 : UInt32) else 156) = width
          rw [UInt32.toUInt32_toInt32, UInt32.toUInt32_toInt32, UInt32.toUInt32_toInt32, List.find?_cons]
          cases pointInRect x y ⟨x₀, taskbarY framebuffer, width, 26⟩ with
          | true => rfl
          | false =>
              rw [if_neg Bool.false_ne_true]
              exact @ih (i + 1) (x₀ + (width + 10))

theorem toNat_taskbarY (h : 200 ≤ framebuffer.height.toNat) :
    (taskbarY framebuffer).toNat = framebuffer.height.toNat - 38 := by
  have hlt := framebuffer.height.toNat_lt
  have hbar : kTaskBarHeight.toNat = 78 := rfl
  have hforty : (40 : UInt32).toNat = 40 := rfl
  unfold taskbarY
  rw [UInt32.toNat_add, UInt32.toNat_sub, hbar, hforty]
  omega

theorem isRow_drawTaskbar {wm : WindowManager} (hcount : wm.windows.length ≤ kMaxWindows) :
    IsRow (taskbarY wm.framebuffer) 26 18 (drawTaskbar wm) := by
  apply isRow_taskbarButtons
  · have hmax : kMaxWindows = 12 := rfl
    show 18 + 166 * wm.windows.length < 2 ^ 31
    omega
  · exact Nat.le_refl 18

/-- `FindTaskbarWindowAt` finds the button that is drawn, if its lower edge is a coordinate. -/
theorem findTaskbarWindowAt_iff {wm : WindowManager} (hheight : 200 ≤ wm.framebuffer.height.toNat)
    (hcount : wm.windows.length ≤ kMaxWindows) (hx : 0 ≤ x.toInt) (hy : 0 ≤ y.toInt) :
    wm.findTaskbarWindowAt x y = some i ↔
      ∃ rect, (i, rect) ∈ drawTaskbar wm ∧ rect.Covers x y ∧ wm.framebuffer.height.toNat < 2 ^ 31 + 12 := by
  have hrow := isRow_drawTaskbar hcount
  have htop := toNat_taskbarY hheight
  have hlt := wm.framebuffer.height.toNat_lt
  have hbutton : (26 : UInt32).toNat = 26 := rfl
  have hbottom : (taskbarY wm.framebuffer).toNat + (26 : UInt32).toNat < 2 ^ 32 := by omega
  have hedge : (taskbarY wm.framebuffer).toNat + (26 : UInt32).toNat < 2 ^ 31 ↔
      wm.framebuffer.height.toNat < 2 ^ 31 + 12 := by omega
  unfold WindowManager.findTaskbarWindowAt
  show (if y < (wm.framebuffer.height - kTaskBarHeight + 36).toInt32 then none
    else WindowManager.taskbarScan wm.activeDesktop x y (taskbarY wm.framebuffer).toInt32 wm.windows 0
      (18 : UInt32).toInt32) = _ ↔ _
  split_ifs with hout
  · -- the point is above the row
    refine iff_of_false (by simp) ?_
    rintro ⟨rect, hmem, hcovers, hheight'⟩
    obtain ⟨hrecty, hrecth, -, -⟩ := hrow.mem hmem
    unfold Rect.Covers at hcovers
    rw [hrecty, hrecth] at hcovers
    have hbar : kTaskBarHeight.toNat = 78 := rfl
    have hstart : (36 : UInt32).toNat = 36 := rfl
    have hcast := toInt32_toInt (wm.framebuffer.height - kTaskBarHeight + 36)
    rw [UInt32.toNat_add, UInt32.toNat_sub, hbar, hstart] at hcast
    rw [Int32.lt_iff_toInt_lt] at hout
    omega
  · rw [taskbarScan_eq wm.framebuffer, Option.map_eq_some_iff]
    constructor
    · rintro ⟨b, hfind, rfl⟩
      obtain ⟨hmem, hcovers, hle⟩ := (hrow.find_iff hbottom hx hy).mp hfind
      exact ⟨b.2, hmem, hcovers, hedge.mp hle⟩
    · rintro ⟨rect, hmem, hcovers, hle⟩
      exact ⟨(i, rect), (hrow.find_iff hbottom hx hy).mpr ⟨hmem, hcovers, hedge.mpr hle⟩, rfl⟩

end Taskbar

/-! ## Drawing and clicking -/

section Screen

variable {wm : WindowManager}

theorem drawBars_subset {b : ApplicationDescriptor × Rect} (h : b ∈ drawBars wm.framebuffer) :
    b ∈ launcher wm.framebuffer := by
  unfold drawBars at h
  rw [launcherButtons_eq] at h
  exact (List.takeWhile_sublist _).subset h

/-- The windows are painted after the launcher. -/
theorem lastPainted_eq (wm : WindowManager) (x y : Int32) :
    lastPainted wm x y =
      ((((drawTaskbar wm).filter fun c => decide (c.2.Covers x y)).getLast?).map fun c => Button.window c.1).or
        ((((drawBars wm.framebuffer).filter fun b => decide (b.2.Covers x y)).getLast?).map fun b =>
          Button.launcher b.1) := by
  unfold lastPainted painted
  rw [List.filter_append, List.getLast?_append, Option.map_or, List.filter_map, List.filter_map, List.getLast?_map,
    List.getLast?_map, Option.map_map, Option.map_map]
  rfl

theorem mem_filter_covers {b : β × Rect} (h : (buttons.filter fun b => decide (b.2.Covers x y)).getLast? = some b) :
    b ∈ buttons ∧ b.2.Covers x y := by
  have hmem := List.mem_filter.mp (List.mem_of_getLast? h)
  exact ⟨hmem.1, of_decide_eq_true hmem.2⟩

/-- A button that is seen is one of a window, or one of the launcher that no other covers. -/
theorem lastPainted_cases {b : Button} (h : lastPainted wm x y = some b) :
    (∃ c ∈ drawTaskbar wm, c.2.Covers x y ∧ b = .window c.1) ∨
    ∃ c ∈ drawBars wm.framebuffer, c.2.Covers x y ∧ b = .launcher c.1 := by
  rw [lastPainted_eq, Option.or_eq_some_iff] at h
  rcases h with h | ⟨-, h⟩
  · obtain ⟨c, hc, rfl⟩ := Option.map_eq_some_iff.mp h
    obtain ⟨hmem, hcovers⟩ := mem_filter_covers hc
    exact Or.inl ⟨c, hmem, hcovers, rfl⟩
  · obtain ⟨c, hc, rfl⟩ := Option.map_eq_some_iff.mp h
    obtain ⟨hmem, hcovers⟩ := mem_filter_covers hc
    exact Or.inr ⟨c, hmem, hcovers, rfl⟩

/-- Where there is a button of a window, it is the one that is seen. -/
theorem lastPainted_window {c : Nat × Rect} (hc : c ∈ drawTaskbar wm) (hcovers : c.2.Covers x y) :
    ∃ i, lastPainted wm x y = some (.window i) := by
  rw [lastPainted_eq]
  have hmem : c ∈ (drawTaskbar wm).filter fun c => decide (c.2.Covers x y) :=
    List.mem_filter.mpr ⟨hc, decide_eq_true hcovers⟩
  obtain ⟨last, hlast⟩ := Option.ne_none_iff_exists'.mp
    fun hnone => List.ne_nil_of_mem hmem (List.getLast?_eq_none_iff.mp hnone)
  refine ⟨last.1, ?_⟩
  rw [hlast]
  rfl

/-- **When drawing and clicking agree.** At a point of the screen the two hit tests find the buttons that are drawn, and
    a click takes the button that is seen, if and only if the point is in no button of the launcher that is left out
    and in no two buttons, and the lower edge of its button is a coordinate. What a click takes is what
    `HandleMouseClick` activates. -/
theorem hits_agree_iff (wm : WindowManager) (x y : Int32) (hvalid : framebufferValid wm.framebuffer = true)
    (hcount : wm.windows.length ≤ kMaxWindows) (hx : 0 ≤ x.toInt) (hy : 0 ≤ y.toInt) :
    (Agrees wm x y ↔ Clear wm x y) ∧
    ∀ (K : Type) (k : AppKernel K) (d : Desktop K) (b : Button), d.wm = wm → clicked wm x y = some b →
      d.handleMouseClick k x y 0 = d.activate k b := by
  refine ⟨?_, fun K k d b hd hclick => Desktop.handleMouseClick_clicked k d (hd ▸ hclick)⟩
  have hheight : 200 ≤ wm.framebuffer.height.toNat := by
    unfold framebufferValid at hvalid
    simp only [Bool.and_eq_true, decide_eq_true_eq] at hvalid
    obtain ⟨⟨-, hheight⟩, -⟩ := hvalid
    exact UInt32.le_iff_toNat_le.mp hheight
  have hfind := findLauncherAppAt_iff hheight hx hy
  have hwindow := fun i => findTaskbarWindowAt_iff (i := i) hheight hcount hx hy
  constructor
  · intro h
    refine ⟨fun b hb hcovers => ⟨fun hdrawn => ?_, fun hle => ?_⟩, fun c hc hcovers => ?_, fun b hb c hc hboth => ?_⟩
    · obtain ⟨-, -, -, hle⟩ := (hfind b.1).mp ((h.launcher b.1).mpr ⟨b.2, hdrawn, hcovers⟩)
      exact hle
    · obtain ⟨rect, hmem, hrect⟩ := (h.launcher b.1).mp ((hfind b.1).mpr ⟨b.2, hb, hcovers, hle⟩)
      rw [(isRow_launcher wm.framebuffer).unique hb (drawBars_subset hmem) hcovers hrect]
      exact hmem
    · obtain ⟨-, -, -, hle⟩ := (hwindow c.1).mp ((h.taskbar c.1).mpr ⟨c.2, hc, hcovers⟩)
      exact hle
    · -- the application is launched, the window is seen
      obtain ⟨i, hseen⟩ := lastPainted_window hc hboth.2
      have hclick := h.click _ hseen
      unfold clicked at hclick
      rw [(h.launcher b.1).mpr ⟨b.2, hb, hboth.1⟩] at hclick
      cases hclick
  · intro h
    have hlauncher : ∀ app, wm.findLauncherAppAt x y = some app ↔
        ∃ rect, (app, rect) ∈ drawBars wm.framebuffer ∧ rect.Covers x y := by
      intro app
      rw [hfind]
      constructor
      · rintro ⟨rect, hmem, hcovers, hle⟩
        exact ⟨rect, (h.drawn (app, rect) hmem hcovers).mpr hle, hcovers⟩
      · rintro ⟨rect, hmem, hcovers⟩
        have hall := drawBars_subset hmem
        exact ⟨rect, hall, hcovers, (h.drawn (app, rect) hall hcovers).mp hmem⟩
    have htaskbar : ∀ i, wm.findTaskbarWindowAt x y = some i ↔
        ∃ rect, (i, rect) ∈ drawTaskbar wm ∧ rect.Covers x y := by
      intro i
      rw [hwindow]
      constructor
      · rintro ⟨rect, hmem, hcovers, -⟩
        exact ⟨rect, hmem, hcovers⟩
      · rintro ⟨rect, hmem, hcovers⟩
        exact ⟨rect, hmem, hcovers, h.edge (i, rect) hmem hcovers⟩
    refine ⟨hlauncher, htaskbar, fun b hseen => ?_⟩
    unfold clicked
    rcases lastPainted_cases hseen with ⟨c, hc, hcovers, rfl⟩ | ⟨c, hc, hcovers, rfl⟩
    · have hnone : wm.findLauncherAppAt x y = none := by
        by_contra hsome
        obtain ⟨app, happ⟩ := Option.ne_none_iff_exists'.mp hsome
        obtain ⟨rect, hmem, hrect⟩ := (hlauncher app).mp happ
        exact h.apart (app, rect) hmem c hc ⟨hrect, hcovers⟩
      rw [hnone, (htaskbar c.1).mpr ⟨c.2, hc, hcovers⟩]
      rfl
    · rw [(hlauncher c.1).mpr ⟨c.2, hc, hcovers⟩]

/-- A screen of 1024 by 768 pixels without windows, at the first button of the launcher. -/
theorem hits_agree_first : Agrees { framebuffer := smallScreen } 20 700 :=
  (hits_agree_iff { framebuffer := smallScreen } 20 700 (by decide) (by decide) (by decide) (by decide)).1.mpr
    ⟨by decide +kernel, by decide +kernel, by decide +kernel⟩

/-- **A button that is not drawn is clicked.** On a screen of 1024 by 768 pixels there is no room for the button of the
    software center, but it is found; and where a button of a window is painted over one of the launcher, the
    application is launched. -/
theorem undrawn_found :
    ¬ Agrees { framebuffer := smallScreen } 960 700 ∧
    ¬ Agrees { framebuffer := smallScreen, windows := [{ visible := true }] } 20 731 := by
  constructor
  · intro h
    have hfound : ({ framebuffer := smallScreen } : WindowManager).findLauncherAppAt 960 700 = some (application 9) := by
      decide +kernel
    have hdrawn : ∀ b ∈ drawBars smallScreen, ¬ b.2.Covers 960 700 := by decide +kernel
    obtain ⟨rect, hmem, hcovers⟩ := (h.launcher (application 9)).mp hfound
    exact hdrawn (application 9, rect) hmem hcovers
  · intro h
    have hseen : lastPainted { framebuffer := smallScreen, windows := [{ visible := true }] } 20 731 =
        some (.window 0) := by decide +kernel
    have hclick : clicked { framebuffer := smallScreen, windows := [{ visible := true }] } 20 731 ≠
        some (.window 0) := by decide +kernel
    exact hclick (h.click (.window 0) hseen)

end Screen

end Gui
end UefiBoot
