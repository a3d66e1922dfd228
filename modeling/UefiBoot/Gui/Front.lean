import UefiBoot.Gui.Handlers

/-!
# `Gui.Front` — an application that is launched comes to the front

`RestoreOrFocusRunningApp` finds the window of an application, switches to its desktop, and then focuses the window
under the index that it had before. Switching brings the topmost window of the desktop to the front. If that is another
window, it lay above and the index is still good; if it is the window of the application itself, the index may now be
that of a window which lay above it, and no such window can be shown, so `FocusWindow` refuses it and the focus stays.
`restoreOrFocus_front` makes the two cases one.

What a launch needs besides is that an application has one window at most, on its own desktop. Only launching adds
windows; nothing else changes `homes`, the applications and desktops of the windows.
-/

namespace UefiBoot
namespace Gui

namespace WindowManager

variable {wm : WindowManager} {i j : Nat} {w : Window}

/-! ## The window under the old index -/

/-- The active window is a window of the application on its desktop, neither hidden nor minimized. -/
structure InFront (wm : WindowManager) (app : ApplicationDescriptor) : Prop where
  desktop : wm.activeDesktop = app.desktop
  window  : ∃ i w, wm.activeWindowIndex = some i ∧ wm.windows[i]? = some w ∧ w.app = app.app ∧
    w.visible = true ∧ w.minimized = false

variable {app : ApplicationDescriptor}

/-- A window that is shown comes to the front when it is given the focus. -/
theorem focusWindow_front (hw : wm.windows[i]? = some w) (hshown : wm.shown w = true) (happ : w.app = app.app)
    (hdesktop : wm.activeDesktop = app.desktop) : (wm.focusWindow i).2.InFront app := by
  obtain ⟨hvisible, hminimized, -⟩ := shown_iff.mp hshown
  rw [focusWindow_eq hw hshown]
  exact ⟨hdesktop, wm.windowCount - 1, setFocus w, rfl, raised_top hw, happ, hvisible, hminimized⟩

/-- Losing or getting the focus does not hide a window. -/
theorem shown_raised (wm wm' : WindowManager) (i j : Nat) (hdesktop : wm'.activeDesktop = wm.activeDesktop) :
    ((wm.raised i)[j]?).any wm'.shown = ((Lib.toTop wm.windows i)[j]?).any wm.shown := by
  unfold raised
  have hmap : Lib.toTop (wm.windows.map unfocus) i = (Lib.toTop wm.windows i).map unfocus := Lib.toTop_map _ _ _
  rw [hmap, List.getElem?_modify, List.getElem?_map]
  have hshown : ∀ w, wm'.shown w = wm.shown w := fun w => by
    unfold shown
    rw [hdesktop]
  cases (Lib.toTop wm.windows i)[j]? with
  | none => rfl
  | some w =>
      simp only [Option.map_eq_map, Option.map_some, Option.any_some]
      split_ifs
      · exact hshown _
      · exact hshown _

/-- **The index that was found before the switch.** The topmost window of the desktop gets the focus, and then the window
    under the index at which a window of the application was: in the end the active window is one of the application. -/
theorem focusTop_then_front (hw : wm.windows[i]? = some w) (hshown : wm.shown w = true) (happ : w.app = app.app)
    (hdesktop : wm.activeDesktop = app.desktop) : (wm.focusTopVisibleWindow.focusWindow i).2.InFront app := by
  cases htop : wm.findTopVisibleWindow with
  | none =>
      -- the window of the application is shown, so there is a topmost one
      rw [Lib.topIdx_eq_none htop (List.mem_of_getElem? hw)] at hshown
      cases hshown
  | some top =>
      obtain ⟨w', hw', hshown'⟩ := findTopVisibleWindow_shown htop
      have hfocus : wm.focusTopVisibleWindow = (wm.focusWindow top).2 := by
        unfold focusTopVisibleWindow
        rw [htop]
      have hraised := focusWindow_eq hw' hshown'
      rw [hfocus]
      rcases Lib.getElem?_toTop_old hw hshown htop with ⟨hlt, hold⟩ | ⟨rfl, hlast | hfails⟩
      · -- another window was above: the index is still good
        have hcount : i ≠ wm.windowCount - 1 := by
          have hk : top < wm.windows.length := Lib.topIdx_lt htop
          unfold windowCount
          omega
        have hsame : (wm.focusWindow top).2.windows[i]? = some (unfocus w) := by
          rw [hraised]
          show (wm.raised top)[i]? = _
          unfold raised
          rw [List.getElem?_modify_ne _ _ (Ne.symm hcount), Lib.toTop_map, List.getElem?_map, hold]
          rfl
        have hactive : (wm.focusWindow top).2.activeDesktop = wm.activeDesktop := (focusWindow_rest wm top).2.1
        refine focusWindow_front hsame ?_ happ (hactive.trans hdesktop)
        rw [shown_iff, hactive]
        exact shown_iff.mp hshown
      · -- it was on top of all: it gets the focus twice
        have hsame : (wm.focusWindow i).2.windows[i]? = some (setFocus w) := by
          have hi : i = wm.windowCount - 1 := by
            unfold windowCount
            omega
          rw [hraised]
          show (wm.raised i)[i]? = _
          conv => lhs; rhs; rw [hi]
          exact raised_top hw
        have hactive : (wm.focusWindow i).2.activeDesktop = wm.activeDesktop := (focusWindow_rest wm i).2.1
        refine focusWindow_front hsame ?_ happ (hactive.trans hdesktop)
        rw [shown_iff, hactive]
        exact shown_iff.mp hshown
      · -- it has moved, and what is under the index now is refused
        have hfront : (wm.focusWindow i).2.InFront app := focusWindow_front hw hshown happ hdesktop
        have hrefused : ((wm.focusWindow i).2.windows[i]?).any (wm.focusWindow i).2.shown = false := by
          have hactive : (wm.focusWindow i).2.activeDesktop = wm.activeDesktop := (focusWindow_rest wm i).2.1
          have hwindows : (wm.focusWindow i).2.windows = wm.raised i := by rw [hraised]
          rw [hwindows, shown_raised wm _ i i hactive]
          exact hfails
        rw [focusWindow_refused hrefused]
        exact hfront

end WindowManager

namespace Desktop

open WindowManager

variable {K : Type} {d d' : Desktop K} {app : ApplicationDescriptor} {i : Fin kApplicationCapacity}

/-- **Restoring an application** that has a window brings the window to the front. -/
theorem restoreOrFocus_front (hdesktop : app.desktop < kVirtualDesktopCount)
    (htrue : (d.restoreOrFocusRunningApp app).1 = true) : (d.restoreOrFocusRunningApp app).2.wm.InFront app := by
  unfold restoreOrFocusRunningApp at htrue ⊢
  cases hfind : d.wm.findWindowByApp app.app app.desktop with
  | none =>
      rw [hfind] at htrue
      cases htrue
  | some existing =>
      obtain ⟨hlt, htest, -⟩ := List.findIdx?_eq_some_iff_getElem.mp hfind
      obtain ⟨happ, hhome⟩ : d.wm.windows[existing].app = app.app ∧ d.wm.windows[existing].desktop = app.desktop := by
        simpa using htest
      -- the window is on show now, on whatever desktop
      set wm := (d.wm.setWindow existing fun window =>
        { window with visible := true, minimized := false, maximized := false }) with hwm
      have hw : wm.windows[existing]? =
          some { d.wm.windows[existing] with visible := true, minimized := false, maximized := false } := by
        rw [hwm, getElem?_setWindow, List.getElem?_eq_getElem hlt, if_pos rfl]
        rfl
      dsimp only
      rw [changeState_wm]
      show (((wm.switchTo app.desktop).focusWindow existing).2.showNotification _ _).InFront app
      have hfront : ((wm.switchTo app.desktop).focusWindow existing).2.InFront app := by
        unfold switchTo
        by_cases hactive : wm.activeDesktop = app.desktop
        · rw [if_neg (not_not.mpr hactive)]
          exact focusWindow_front hw (shown_iff.mpr ⟨rfl, rfl, hhome.trans hactive.symm⟩) happ hactive
        · rw [if_pos hactive]
          unfold switchVirtualDesktop
          rw [if_neg (UInt8.not_le.mpr hdesktop)]
          exact focusTop_then_front hw
            (shown_iff.mpr ⟨rfl, rfl, hhome⟩) happ rfl
      exact ⟨hfront.desktop, hfront.window⟩

theorem desktop_application (i : Fin kApplicationCapacity) : (application i).desktop < kVirtualDesktopCount := by
  revert i
  decide

/-- An application that has a window is restored. -/
theorem restoreOrFocus_true (h : Wf d) (hwindow : (view d i).window ≠ none) :
    (d.restoreOrFocusRunningApp (application i)).1 = true := by
  rcases findWindowByApp_eq h i with ⟨-, hnone⟩ | ⟨j, w, hfind, -, -⟩
  · exact absurd hnone hwindow
  · unfold restoreOrFocusRunningApp
    rw [show d.wm.findWindowByApp (application i).app (application i).desktop = some j from hfind]

theorem launchStarted_front (h : Wf d) (i : Fin kApplicationCapacity) {processId : UInt64} (threadId : UInt64)
    (hwindow : (view d i).window = some (AppView.opened processId)) :
    (d.launchStarted (application i) i processId threadId).wm.InFront (application i) := by
  have hrunning := markRunning_turns h i threadId hwindow
  have hopen : (view (d.markRunning (application i) i processId threadId) i).window ≠ none := by
    rw [hrunning.self]
    exact Option.some_ne_none _
  have hfront := restoreOrFocus_front (desktop_application i) (restoreOrFocus_true hrunning.1 hopen)
  exact ⟨hfront.desktop, hfront.window⟩

theorem launchEventLoop_front (k : AppKernel K) (h : Wf d) (i : Fin kApplicationCapacity) {processId : UInt64}
    (hwindow : (view d i).window = some (AppView.opened processId))
    (htrue : (d.launchEventLoop k (application i) i processId).1 = true) :
    (d.launchEventLoop k (application i) i processId).2.wm.InFront (application i) := by
  unfold launchEventLoop at htrue ⊢
  dsimp only at htrue ⊢
  split_ifs at htrue ⊢
  · cases htrue
  · have hkernel : Wf { d with kernel := (k.start d.kernel processId (application i).id).2 } :=
      ⟨h.registered, h.windows⟩
    exact launchStarted_front hkernel i _ hwindow

theorem launchInWindow_front (k : AppKernel K) (h : Wf d) (i : Fin kApplicationCapacity) (processId threadId : UInt64)
    (htrue : (d.launchInWindow k (application i) i processId threadId).1 = true) :
    (d.launchInWindow k (application i) i processId threadId).2.wm.InFront (application i) := by
  have hlaunched := launchWindow_turns h i (d.apps.runtimes i).launchCount processId threadId
  unfold launchInWindow at htrue ⊢
  dsimp only at hlaunched htrue ⊢
  split_ifs at htrue ⊢ with hadded
  · cases htrue
  · rcases hlaunched with ⟨hrefused, -⟩ | ⟨-, hopened⟩
    · rw [hrefused] at hadded
      exact absurd rfl hadded
    · exact launchEventLoop_front k hopened.1 i (congrArg AppView.window hopened.self) htrue

/-- **Launching an application** brings its window to the front, whether it runs already or not. -/
theorem launchApplication_front (k : AppKernel K) (h : Wf d) (i : Fin kApplicationCapacity)
    (htrue : (d.launchApplication k (application i)).1 = true) :
    (d.launchApplication k (application i)).2.wm.InFront (application i) := by
  unfold launchApplication at htrue ⊢
  rw [show d.apps.findAppRuntime (application i).app = some i from h.findAppRuntime i] at htrue ⊢
  dsimp only at htrue ⊢
  split_ifs at htrue ⊢ with hruns
  · exact restoreOrFocus_front (desktop_application i) htrue
  · have hopening := (Turns.of_setRuntime (i := i) (f := fun runtime =>
      { runtime with state := .opening, transitionTicks := kLaunchTransitionTicks }) h fun r => ⟨rfl, rfl⟩).1
    unfold launchProcess at htrue ⊢
    dsimp only at htrue ⊢
    split_ifs at htrue ⊢
    · cases htrue
    · exact launchInWindow_front k (d := { setRuntime d i _ with kernel := _ })
        ⟨hopening.registered, hopening.windows⟩ i _ _ htrue

/-! ## One window for each application -/

/-- What is quiet keeps the windows of the applications. -/
theorem Quiet.wf (hquiet : Quiet d d') (h : Wf d) : Wf d' where
  registered := fun i => by
    rw [(hquiet.apps.registry i).1, (hquiet.apps.registry i).2]
    exact h.registered i
  windows    := h.windows.of_homes hquiet.homes

theorem launchApplicationById_wf (k : AppKernel K) (h : Wf d) (appId : Option String) :
    Wf (d.launchApplicationById k appId).2 := by
  unfold launchApplicationById
  cases hfind : findApplicationById appId with
  | none => exact ⟨h.registered, h.windows⟩
  | some app =>
      obtain ⟨n, hlt, rfl⟩ := List.mem_iff_getElem.mp (List.mem_of_find?_eq_some hfind)
      show Wf (d.launchApplication k (application ⟨n, hlt⟩)).2
      by_cases hruns : AppView.Runs (view d ⟨n, hlt⟩).state
      · rw [launchApplication_running k h _ hruns]
        exact (restoreOrFocusRunningApp_quiet d _).wf h
      · rcases launchApplication_cases k h _ hruns with ⟨-, -, hturns⟩ | ⟨-, -, -, hturns⟩ | ⟨-, -, -, hturns⟩
        · exact hturns.1
        · exact hturns.1
        · exact hturns.1

/-- **Launching brings to the front.** From `InitWindowManager` on, whatever the kernel answers and whatever happens:
    no application has two windows, and if restoring or launching an application returns true, its desktop is the
    active one and the active window is its own, neither hidden nor minimized. -/
theorem launch_bringsToFront (k : AppKernel K) (framebuffer : FramebufferInfo) (kernel : K) (uses : List Use)
    (i : Fin kApplicationCapacity) :
    let d := Lib.run (useStep k) (start k framebuffer kernel) uses
    OneWindowEach d.wm.windows ∧
      ((d.restoreOrFocusRunningApp (application i)).1 = true →
        (d.restoreOrFocusRunningApp (application i)).2.wm.InFront (application i)) ∧
      ((d.launchApplication k (application i)).1 = true →
        (d.launchApplication k (application i)).2.wm.InFront (application i)) := by
  intro d
  have hwf : Wf d := uses_keep (fun _ _ hquiet h => hquiet.wf h) (fun _ appId h => launchApplicationById_wf k h appId)
    (start_alive k framebuffer kernel).1.wf uses
  exact ⟨hwf.windows.oneEach, restoreOrFocus_front (desktop_application i), launchApplication_front k hwf i⟩

/-- The calculator is on desktop 1 below the text editor, and the user is on desktop 0. -/
def calculatorBelow : List Use :=
  [.launch (some "calc"), .launch (some "edit"), .launch (some "files")]

theorem launch_bringsToFront_calculator :
    let d := Lib.run (useStep countingKernel) (start countingKernel smallScreen 0) calculatorBelow
    (d.launchApplication countingKernel (application 3)).2.wm.InFront (application 3) :=
  (launch_bringsToFront countingKernel smallScreen 0 calculatorBelow 3).2.2 (by decide +kernel)

end Desktop

end Gui
end UefiBoot
