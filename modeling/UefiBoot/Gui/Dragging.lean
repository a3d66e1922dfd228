import UefiBoot.Gui.Focus

/-!
# `Gui.Dragging` — which window a press takes hold of

A press asks two questions: which window is under the pointer, and which window has its title bar there. The second
ignores what covers the title bar, and bringing a window to the front stores its new index as the one that is dragged
whether or not it was pressed at its title bar. `pressTarget` is the window that comes out of this, and
`mouseDown_target_iff` says for which presses it is the one that a user expects.
-/

namespace UefiBoot
namespace Gui

/-- The pointer is not on a control of the window, and the window can be moved. -/
def Movable (x y : Int32) (window : Window) : Prop :=
  hitWindowControl x y window = .none ∧ window.maximized = false

namespace WindowManager

variable {wm : WindowManager} {x y : Int32} {i j : Nat} {w : Window}

/-- The window at `i` is the topmost one of those on the screen that contain the point. -/
structure TopmostAt (wm : WindowManager) (x y : Int32) (i : Nat) (w : Window) : Prop where
  window   : wm.windows[i]? = some w
  shown    : w.visible = true ∧ w.minimized = false ∧ w.desktop = wm.activeDesktop
  contains : pointInRect x y w.bounds = true
  above    : ∀ j v, i < j → wm.windows[j]? = some v → wm.shown v = true → pointInRect x y v.bounds = false

/-- What is dragged after a press is the topmost window under the pointer, taken at its title bar and not at a
    control, not maximized, and now in front. -/
def DragTargetOk (before after : WindowManager) : Prop :=
  ∀ i, after.dragWindowIndex = some i →
    ∃ j window, TopmostAt before after.mouseX after.mouseY j window ∧
      pointInTitleBar after.mouseX after.mouseY window = true ∧ Movable after.mouseX after.mouseY window ∧
      i + 1 = after.windowCount ∧ ∃ window', after.windows[i]? = some window' ∧ unfocus window' = unfocus window

theorem findTopWindowAt_false_iff :
    wm.findTopWindowAt x y false = some i ↔ ∃ w, TopmostAt wm x y i w := by
  constructor
  · intro h
    obtain ⟨w, hw, htest, habove⟩ := Lib.topIdx_eq_some h
    rw [Bool.and_eq_true] at htest
    refine ⟨w, hw, shown_iff.mp htest.1, htest.2, fun j v hj hv hshown => ?_⟩
    have hno := habove j v hj hv
    rw [hshown, Bool.true_and] at hno
    exact hno
  · rintro ⟨w, hw, hshown, hcontains, habove⟩
    refine Lib.topIdx_of_top hw ?_ fun j v hj hv => ?_
    · rw [shown_iff.mpr hshown, Bool.true_and]
      exact hcontains
    · cases hshown' : wm.shown v with
      | false => rfl
      | true =>
          rw [Bool.true_and]
          exact habove j v hj hv hshown'

/-- Where the pointer is recorded has no part in it. -/
theorem topmostAt_congr {wm' : WindowManager} (hwindows : wm'.windows = wm.windows)
    (hdesktop : wm'.activeDesktop = wm.activeDesktop) : TopmostAt wm' x y i w ↔ TopmostAt wm x y i w := by
  have hshown : wm'.shown = wm.shown := by
    unfold shown
    rw [hdesktop]
  constructor
  · rintro ⟨hw, hs, hcontains, habove⟩
    rw [hwindows] at hw habove
    rw [hdesktop] at hs
    rw [hshown] at habove
    exact ⟨hw, hs, hcontains, habove⟩
  · rintro ⟨hw, hs, hcontains, habove⟩
    rw [← hwindows] at hw habove
    rw [← hdesktop] at hs
    rw [← hshown] at habove
    exact ⟨hw, hs, hcontains, habove⟩

/-- The window that a press of the left button takes hold of, before the controls are looked at: the one under the
    pointer if it has to come to the front, else the topmost one with its title bar under the pointer. -/
def pressTarget (wm : WindowManager) (x y : Int32) : Option Nat :=
  match wm.findTopWindowAt x y false with
  | some j => if j + 1 = wm.windowCount then wm.findTopWindowAt x y true else some j
  | none   => wm.findTopWindowAt x y true

/-- The presses after which the dragged window is the right one. Another button leaves the drag as it is. -/
def PressOk (wm : WindowManager) (event : GuiEvent) : Prop :=
  let x := clampToScreen event.x wm.framebuffer.width
  let y := clampToScreen event.y wm.framebuffer.height
  if event.button = 0 then
    ∀ j window, wm.pressTarget x y = some j → wm.windows[j]? = some window → Movable x y window →
      wm.findTopWindowAt x y false = some j ∧ pointInTitleBar x y window = true
  else
    ∀ i, wm.dragWindowIndex = some i →
      ∃ window, TopmostAt wm x y i window ∧ pointInTitleBar x y window = true ∧ Movable x y window ∧
        i + 1 = wm.windowCount

/-- Where the window that was at `j` is once the window under the pointer has come to the front. -/
def pressIndex (wm : WindowManager) (x y : Int32) (j : Nat) : Nat :=
  if wm.findTopWindowAt x y false = some j then wm.windowCount - 1 else j

end WindowManager

open WindowManager

namespace Desktop

variable {wm : WindowManager} {i j : Nat} {w : Window}

/-! ## A press of the left button -/

theorem startDrag_drag (wm : WindowManager) (i : Nat) :
    (startDrag wm).dragWindowIndex = some i ↔
      wm.dragWindowIndex = some i ∧ ∀ w, wm.windows[i]? = some w → Movable wm.mouseX wm.mouseY w := by
  unfold startDrag
  cases hwindow : wm.dragWindowIndex.bind fun i => wm.windows[i]? with
  | none =>
      dsimp only
      refine ⟨fun h => ⟨h, fun w hw => ?_⟩, fun h => h.1⟩
      rw [h, Option.bind_some, hw] at hwindow
      exact absurd hwindow (by simp)
  | some window =>
      dsimp only
      obtain ⟨m, hm, hw⟩ := Option.bind_eq_some_iff.mp hwindow
      by_cases hmovable : Movable wm.mouseX wm.mouseY window
      · rw [if_neg (by rw [hmovable.1, hmovable.2]; simp)]
        refine ⟨fun h => ⟨h, fun w hw' => ?_⟩, fun h => h.1⟩
        have hmi : m = i := Option.some.inj (hm.symm.trans h)
        rw [← hmi, hw] at hw'
        rw [← Option.some.inj hw']
        exact hmovable
      · rw [if_pos]
        · refine iff_of_false (by simp) fun h => hmovable (h.2 window ?_)
          have hmi : m = i := Option.some.inj (hm.symm.trans h.1)
          rw [← hmi]
          exact hw
        · by_contra hnot
          simp only [not_or, not_not, Bool.not_eq_true] at hnot
          exact hmovable hnot

/-- The window manager with the window under the pointer in front. -/
theorem raisePressed_eq (wm : WindowManager) :
    raisePressed (pressDown wm) =
      match wm.findTopWindowAt wm.mouseX wm.mouseY false with
      | none   => pressDown wm
      | some j =>
        { pressDown wm with
          windows := wm.raised j
          activeWindowIndex := some (wm.windowCount - 1)
          dragWindowIndex :=
            if j + 1 = wm.windowCount then wm.findTopWindowAt wm.mouseX wm.mouseY true
            else some (wm.windowCount - 1) } := by
  unfold raisePressed
  cases htop : wm.findTopWindowAt wm.mouseX wm.mouseY false with
  | none =>
      have hunder : (pressDown wm).mouseDownWindowIndex = none := htop
      rw [hunder]
  | some j =>
      have hunder : (pressDown wm).mouseDownWindowIndex = some j := htop
      obtain ⟨w, hw⟩ := findTopWindowAt_false_iff.mp htop
      have hlt : j < wm.windowCount := (List.getElem?_eq_some_iff.mp hw.window).1
      have hcount : ((pressDown wm).raised j).length = wm.windowCount := length_raised (pressDown wm) j
      rw [hunder]
      dsimp only
      rw [focusWindow_eq (show (pressDown wm).windows[j]? = some w from hw.window) (shown_iff.mpr hw.shown)]
      unfold dragAfter
      by_cases hfront : j + 1 = wm.windowCount
      · -- the window is in front already, and keeps its index
        have hlast : wm.windowCount - 1 = j := by omega
        rw [if_pos hfront, if_pos (show j + 1 = (pressDown wm).windowCount from hfront)]
        dsimp only
        split_ifs with htitle
        · have htitle' : wm.findTopWindowAt wm.mouseX wm.mouseY true = some j := htitle
          rw [htitle']
          unfold windowCount
          dsimp only
          rw [hcount, hlast]
          rfl
        · rfl
      · rw [if_neg hfront, if_neg (show ¬ j + 1 = (pressDown wm).windowCount from hfront)]
        dsimp only
        rw [if_neg fun h => hfront (by
          have : wm.windowCount - 1 = j := Option.some.inj h
          omega)]
        rfl

/-- What is held after a press is `pressTarget`, wherever the window is now. -/
theorem press_target (wm : WindowManager) :
    (raisePressed (pressDown wm)).dragWindowIndex =
      (wm.pressTarget wm.mouseX wm.mouseY).map (wm.pressIndex wm.mouseX wm.mouseY) := by
  rw [raisePressed_eq]
  unfold pressTarget pressIndex
  cases htop : wm.findTopWindowAt wm.mouseX wm.mouseY false with
  | none =>
      dsimp only
      simp only [reduceCtorEq, if_false]
      exact Option.map_id'.symm
  | some j =>
      dsimp only
      by_cases hfront : j + 1 = wm.windowCount
      · have hlast : wm.windowCount - 1 = j := by omega
        rw [if_pos hfront, if_pos hfront, hlast]
        cases wm.findTopWindowAt wm.mouseX wm.mouseY true with
        | none => rfl
        | some m =>
            rw [Option.map_some]
            split_ifs with hm
            · rw [Option.some.inj hm]
            · rfl
      · rw [if_neg hfront, if_neg hfront, Option.map_some, if_pos rfl]

/-- Every window is still there, and only the one under the pointer may have another index. -/
theorem press_window (wm : WindowManager) (hw : wm.windows[j]? = some w)
    (htarget : wm.pressTarget wm.mouseX wm.mouseY = some j) :
    ∃ w', (raisePressed (pressDown wm)).windows[wm.pressIndex wm.mouseX wm.mouseY j]? = some w' ∧
      unfocus w' = unfocus w := by
  rw [raisePressed_eq]
  unfold pressTarget at htarget
  unfold pressIndex
  cases htop : wm.findTopWindowAt wm.mouseX wm.mouseY false with
  | none =>
      simp only [reduceCtorEq, if_false]
      exact ⟨w, hw, rfl⟩
  | some m =>
      rw [htop] at htarget
      dsimp only at htarget ⊢
      by_cases hmj : m = j
      · rw [hmj, if_pos rfl]
        exact ⟨setFocus w, raised_top hw, rfl⟩
      · rw [if_neg fun h => hmj (Option.some.inj h)]
        -- another window is held only if the one under the pointer was in front
        have hfront : m + 1 = wm.windowCount := by
          by_contra hne
          rw [if_neg hne] at htarget
          exact hmj (Option.some.inj htarget)
        refine ⟨unfocus w, ?_, rfl⟩
        unfold raised
        have hlen : m + 1 = (wm.windows.map unfocus).length := by
          rw [List.length_map]
          exact hfront
        rw [Lib.toTop_last hlen, List.getElem?_modify_ne _ _ (by omega), List.getElem?_map, hw]
        rfl

/-! ## The event -/

theorem updateHoverState_drag (wm : WindowManager) : wm.updateHoverState.dragWindowIndex = wm.dragWindowIndex := by
  unfold updateHoverState
  dsimp only
  split_ifs
  · rfl
  · split
    · rfl
    · split_ifs <;> rfl

/-- What the hover state does not touch decides. -/
theorem dragTargetOk_congr {before before' after after' : WindowManager} (hwindows : before'.windows = before.windows)
    (hdesktop : before'.activeDesktop = before.activeDesktop) (hsame : SameWindows after after')
    (hdrag : after'.dragWindowIndex = after.dragWindowIndex) :
    DragTargetOk before' after' ↔ DragTargetOk before after := by
  unfold DragTargetOk windowCount
  rw [hdrag, hsame.windows, hsame.mouseX, hsame.mouseY]
  simp only [topmostAt_congr hwindows hdesktop]

/-- A property of the place and the flags of a window does not depend on the focus. -/
theorem of_unfocus {P : Window → Prop} (hP : ∀ w, P (unfocus w) ↔ P w) {w' : Window} (h : unfocus w' = unfocus w) :
    P w' ↔ P w := by
  rw [← hP w', h, hP w]

theorem movable_congr {x y : Int32} {w' : Window} (h : unfocus w' = unfocus w) : Movable x y w' ↔ Movable x y w :=
  of_unfocus (fun _ => Iff.rfl) h

theorem press_rest (wm : WindowManager) :
    (raisePressed (pressDown wm)).mouseX = wm.mouseX ∧ (raisePressed (pressDown wm)).mouseY = wm.mouseY ∧
      (raisePressed (pressDown wm)).windowCount = wm.windowCount := by
  rw [raisePressed_eq]
  split
  · exact ⟨rfl, rfl, rfl⟩
  · exact ⟨rfl, rfl, length_raised wm _⟩

theorem pressTarget_window {x y : Int32} (h : wm.pressTarget x y = some j) : ∃ w, wm.windows[j]? = some w := by
  have hfound : ∀ titleBarOnly, wm.findTopWindowAt x y titleBarOnly = some j → ∃ w, wm.windows[j]? = some w := by
    intro titleBarOnly hfind
    obtain ⟨w, hw, -⟩ := Lib.topIdx_eq_some hfind
    exact ⟨w, hw⟩
  unfold pressTarget at h
  cases htop : wm.findTopWindowAt x y false with
  | none =>
      rw [htop] at h
      exact hfound true h
  | some m =>
      rw [htop] at h
      dsimp only at h
      split_ifs at h
      · exact hfound true h
      · rw [← Option.some.inj h]
        obtain ⟨w, hw⟩ := findTopWindowAt_false_iff.mp htop
        exact ⟨w, hw.window⟩

/-- A window that is held without coming to the front is in front if it is the one under the pointer. -/
theorem pressTarget_front {x y : Int32} {m : Nat} (h : wm.pressTarget x y = some j)
    (htop : wm.findTopWindowAt x y false = some m) (hne : m ≠ j) : m + 1 = wm.windowCount := by
  unfold pressTarget at h
  rw [htop] at h
  dsimp only at h
  by_contra hfront
  rw [if_neg hfront] at h
  exact hne (Option.some.inj h)

/-- The left button: the pointer is where the press is. -/
theorem pressLeft_target_iff (wm : WindowManager) :
    DragTargetOk wm (pressLeft wm) ↔
      ∀ j window, wm.pressTarget wm.mouseX wm.mouseY = some j → wm.windows[j]? = some window →
        Movable wm.mouseX wm.mouseY window →
          wm.findTopWindowAt wm.mouseX wm.mouseY false = some j ∧ pointInTitleBar wm.mouseX wm.mouseY window = true := by
  obtain ⟨hx, hy, hcount⟩ := press_rest wm
  have hsame := startDrag_same (raisePressed (pressDown wm))
  have htarget := press_target wm
  unfold DragTargetOk pressLeft windowCount
  rw [hsame.windows, hsame.mouseX, hsame.mouseY, hx, hy]
  change (∀ i, _ → ∃ j window, _ ∧ _ ∧ _ ∧ i + 1 = (raisePressed (pressDown wm)).windowCount ∧ _) ↔ _
  rw [hcount]
  constructor
  · intro h j window hj hw hmovable
    obtain ⟨w', hw', hun⟩ := press_window wm hw hj
    have hdrag : (startDrag (raisePressed (pressDown wm))).dragWindowIndex =
        some (wm.pressIndex wm.mouseX wm.mouseY j) := by
      refine (startDrag_drag _ _).mpr ⟨by rw [htarget, hj, Option.map_some], fun v hv => ?_⟩
      rw [hw'] at hv
      rw [← Option.some.inj hv, hx, hy]
      exact (movable_congr hun).mpr hmovable
    obtain ⟨m, u, htop, htitle, -, hlast, v, hv, hvu⟩ := h _ hdrag
    have hfind := findTopWindowAt_false_iff.mpr ⟨u, htop⟩
    -- the window at the drag index is the topmost one, and the one that was taken
    have huw : unfocus u = unfocus window := by
      rw [hw'] at hv
      rw [← hvu, ← Option.some.inj hv, hun]
    refine ⟨?_, (of_unfocus (P := fun w => pointInTitleBar wm.mouseX wm.mouseY w = true) (fun _ => Iff.rfl) huw).mp
      htitle⟩
    by_cases hmj : m = j
    · rw [hfind, hmj]
    · have hfront := pressTarget_front hj hfind hmj
      have hnot : ¬ wm.findTopWindowAt wm.mouseX wm.mouseY false = some j := by
        rw [hfind]
        exact fun hsome => hmj (Option.some.inj hsome)
      unfold pressIndex at hlast
      rw [if_neg hnot] at hlast
      exact absurd (by omega) hmj
  · intro h i hi
    obtain ⟨hdrag, hmovable⟩ := (startDrag_drag _ _).mp hi
    rw [htarget] at hdrag
    obtain ⟨j, hj, rfl⟩ := Option.map_eq_some_iff.mp hdrag
    obtain ⟨window, hw⟩ := pressTarget_window hj
    obtain ⟨w', hw', hun⟩ := press_window wm hw hj
    have hmov := hmovable w' hw'
    rw [hx, hy] at hmov
    obtain ⟨hfind, htitle⟩ := h j window hj hw ((movable_congr hun).mp hmov)
    obtain ⟨u, htop⟩ := findTopWindowAt_false_iff.mp hfind
    have huw : u = window := Option.some.inj (htop.window.symm.trans hw)
    subst huw
    refine ⟨j, u, htop, htitle, (movable_congr hun).mp hmov, ?_, w', hw', hun⟩
    have hlt : j < wm.windowCount := (List.getElem?_eq_some_iff.mp hw).1
    unfold pressIndex
    rw [if_pos hfind]
    omega

/-- Another button: the drag goes on as it was. -/
theorem keepDrag_target_iff (wm : WindowManager) :
    DragTargetOk wm wm ↔ ∀ i, wm.dragWindowIndex = some i →
      ∃ window, TopmostAt wm wm.mouseX wm.mouseY i window ∧ pointInTitleBar wm.mouseX wm.mouseY window = true ∧
        Movable wm.mouseX wm.mouseY window ∧ i + 1 = wm.windowCount := by
  refine forall_congr' fun i => imp_congr_right fun _ => ?_
  constructor
  · rintro ⟨j, window, htop, htitle, hmovable, hlast, w', hw', hun⟩
    -- the window at the drag index is in front and contains the point too
    have hij : j = i := by
      by_contra hne
      have hlt : j < wm.windowCount := (List.getElem?_eq_some_iff.mp htop.window).1
      have hno := htop.above i w' (by omega) hw'
        ((of_unfocus (P := fun w => wm.shown w = true) (fun _ => Iff.rfl) hun).mpr (shown_iff.mpr htop.shown))
      have hin := (of_unfocus (P := fun w => pointInRect wm.mouseX wm.mouseY w.bounds = true) (fun _ => Iff.rfl) hun).mpr
        htop.contains
      rw [hno] at hin
      exact absurd hin (by simp)
    exact ⟨window, hij ▸ htop, htitle, hmovable, hlast⟩
  · rintro ⟨window, htop, htitle, hmovable, hlast⟩
    exact ⟨i, window, htop, htitle, hmovable, hlast, window, htop.window, rfl⟩

/-- **Which presses take hold of the right window**: in any state, after a press the dragged window is the topmost
    one under the pointer, taken at its title bar, iff `PressOk` held of the state before. -/
theorem mouseDown_target_iff {K : Type} (k : AppKernel K) (d : Desktop K) (event : GuiEvent) :
    DragTargetOk d.wm (d.dispatchEvent k { event with type := .mouseDown }).wm ↔ PressOk d.wm event := by
  unfold dispatchEvent mouseDown PressOk
  dsimp only
  set pointed := { d.wm with leftButtonDown := event.button == 0 }.setMouse event.x event.y with hpointed
  have hrefresh : ∀ wm : WindowManager, DragTargetOk d.wm wm.updateHoverState ↔ DragTargetOk pointed wm := fun wm =>
    dragTargetOk_congr rfl rfl (updateHoverState_same wm) (updateHoverState_drag wm)
  by_cases hbutton : event.button = 0
  · have hleft : pointed.leftButtonDown = true := beq_iff_eq.mpr hbutton
    rw [if_pos hleft, if_pos hbutton]
    exact (hrefresh _).trans (pressLeft_target_iff pointed)
  · have hleft : ¬ pointed.leftButtonDown = true := fun h => hbutton (beq_iff_eq.mp h)
    rw [if_neg hleft, if_neg hbutton]
    refine (hrefresh _).trans ((keepDrag_target_iff pointed).trans ?_)
    simp only [show ∀ x y i w, TopmostAt pointed x y i w ↔ TopmostAt d.wm x y i w from
      fun _ _ _ _ => topmostAt_congr rfl rfl]
    exact Iff.rfl

/-- On a screen of 1024 by 768 the terminal lies over the file manager. A press into the text of the terminal, where
    the title bar of the file manager is below it, takes hold of the file manager. -/
theorem press_takes_covered :
    let d := start countingKernel { baseAddress := 0x80000000, width := 1024, height := 768, pixelsPerScanline := 1024 } 0
    let event : GuiEvent := { type := .mouseDown, x := 200, y := 160 }
    ¬ DragTargetOk d.wm (d.dispatchEvent countingKernel event).wm := by
  intro d event h
  obtain ⟨j, window, -, -, -, hlast, -⟩ := h 0 (by decide +kernel)
  exact absurd hlast (by decide +kernel)

end Desktop
end Gui
end UefiBoot
