import UefiBoot.Gui.Works

/-!
# `Gui.Focus` — one window has the focus, and it is on the screen

The focus is kept twice, as a flag in every window and as `g_ActiveWindowIndex`, and the index is an index into a
list that is reordered whenever the focus moves. `FocusOk` is the agreement of the two together with what the active
window has to be. Two operations establish it whatever was before, `focusWindow` on a window that is shown and
`focusTopVisibleWindow`; the others keep it.
-/

namespace UefiBoot
namespace Gui
namespace WindowManager

structure FocusOk (wm : WindowManager) : Prop where
  focused : ∀ i w, wm.windows[i]? = some w → (w.focused = true ↔ wm.activeWindowIndex = some i)
  active  : ∀ i, wm.activeWindowIndex = some i →
    ∃ w, wm.windows[i]? = some w ∧ w.visible = true ∧ w.minimized = false ∧ w.desktop = wm.activeDesktop

variable {wm : WindowManager} {i : Nat} {w : Window}

theorem shown_iff : wm.shown w = true ↔ w.visible = true ∧ w.minimized = false ∧ w.desktop = wm.activeDesktop := by
  unfold shown
  simp only [Bool.and_eq_true, Bool.not_eq_true', beq_iff_eq, and_assoc]

/-! ## What a change of focus does to the windows -/

/-- A window without the focus. -/
def unfocus (window : Window) : Window := { window with focused := false }

/-- A window with the focus. -/
def setFocus (window : Window) : Window := { window with focused := true }

/-- The windows once the one at `i` has been brought to the front and has the focus. -/
def raised (wm : WindowManager) (i : Nat) : List Window :=
  (Lib.toTop (wm.windows.map unfocus) i).modify (wm.windowCount - 1) setFocus

@[simp] theorem length_raised (wm : WindowManager) (i : Nat) : (wm.raised i).length = wm.windowCount := by
  unfold raised
  rw [List.length_modify, Lib.length_toTop, List.length_map]
  rfl

theorem raised_top (hw : wm.windows[i]? = some w) : (wm.raised i)[wm.windowCount - 1]? = some (setFocus w) := by
  have hmap : (wm.windows.map unfocus)[i]? = some (unfocus w) := by
    rw [List.getElem?_map, hw]
    rfl
  have htop := Lib.toTop_top hmap
  rw [List.length_map] at htop
  unfold raised windowCount
  rw [List.getElem?_modify_eq, htop]
  rfl

/-- The other windows have lost the focus. -/
theorem raised_below {j : Nat} (hj : j ≠ wm.windowCount - 1) (hw : (wm.raised i)[j]? = some w) :
    ∃ u ∈ wm.windows, w = unfocus u := by
  unfold raised at hw
  rw [List.getElem?_modify_ne _ _ (Ne.symm hj)] at hw
  have hmem := Lib.mem_toTop.mp (List.mem_of_getElem? hw)
  obtain ⟨u, hu, rfl⟩ := List.mem_map.mp hmem
  exact ⟨u, hu, rfl⟩

/-- The drag index after a window has come to the front. -/
def dragAfter (wm : WindowManager) (i : Nat) : Option Nat :=
  if i + 1 = wm.windowCount then wm.dragWindowIndex else some (wm.windowCount - 1)

theorem bringWindowToFront_eq (wm : WindowManager) (h : i < wm.windowCount) :
    wm.bringWindowToFront i =
      (some (wm.windowCount - 1), { wm with windows := Lib.toTop wm.windows i, dragWindowIndex := wm.dragAfter i }) := by
  unfold bringWindowToFront dragAfter
  by_cases hfront : i + 1 = wm.windowCount
  · rw [if_pos (.inr hfront), if_pos h, if_pos hfront, Lib.toTop_last hfront]
    have hi : wm.windowCount - 1 = i := by omega
    rw [hi]
  · rw [if_neg (by omega), if_neg hfront]

/-- The window comes to the front, and there it has the focus alone. -/
theorem focusWindow_eq (hw : wm.windows[i]? = some w) (hshown : wm.shown w = true) :
    wm.focusWindow i =
      (true, { wm with
        windows := wm.raised i
        activeWindowIndex := some (wm.windowCount - 1)
        dragWindowIndex := wm.dragAfter i }) := by
  have hlt : i < wm.windowCount := (List.getElem?_eq_some_iff.mp hw).1
  have hcount : wm.clearWindowFocus.windowCount = wm.windowCount := List.length_map _
  have hfront := bringWindowToFront_eq wm.clearWindowFocus (hcount.symm ▸ hlt)
  unfold focusWindow
  rw [hw, Option.any_some, hshown, hfront, hcount]
  unfold dragAfter
  rw [hcount]
  rfl

theorem focusWindow_refused (h : (wm.windows[i]?).any wm.shown = false) : wm.focusWindow i = (false, wm) := by
  unfold focusWindow
  rw [h]
  rfl

theorem findTopVisibleWindow_shown (h : wm.findTopVisibleWindow = some i) :
    ∃ w, wm.windows[i]? = some w ∧ wm.shown w = true := by
  obtain ⟨w, hw, hshown, -⟩ := Lib.topIdx_eq_some h
  exact ⟨w, hw, hshown⟩

/-! ## What a change of focus leaves alone -/

/-- The windows are the same but for the focus and the order. -/
theorem mem_focusWindow (i : Nat) (hw : w ∈ (wm.focusWindow i).2.windows) :
    ∃ u ∈ wm.windows, ∃ focused, w = { u with focused := focused } := by
  cases hshown : (wm.windows[i]?).any wm.shown with
  | false =>
      rw [focusWindow_refused hshown] at hw
      exact ⟨w, hw, w.focused, rfl⟩
  | true =>
      obtain ⟨front, hfront, hshown⟩ := Option.any_eq_true _ _ |>.mp hshown
      rw [focusWindow_eq hfront hshown] at hw
      obtain ⟨j, hj⟩ := List.mem_iff_getElem?.mp hw
      by_cases htop : j = wm.windowCount - 1
      · subst htop
        refine ⟨front, List.mem_of_getElem? hfront, true, ?_⟩
        have := raised_top hfront
        exact Option.some.inj (hj.symm.trans this)
      · obtain ⟨u, hu, rfl⟩ := raised_below htop hj
        exact ⟨u, hu, false, rfl⟩

theorem mem_focusTopVisibleWindow (hw : w ∈ wm.focusTopVisibleWindow.windows) :
    ∃ u ∈ wm.windows, ∃ focused, w = { u with focused := focused } := by
  unfold focusTopVisibleWindow at hw
  split at hw
  · exact mem_focusWindow _ hw
  · obtain ⟨u, hu, rfl⟩ := List.mem_map.mp hw
    exact ⟨u, hu, false, rfl⟩

/-- The rest of the window manager. -/
theorem focusWindow_rest (wm : WindowManager) (i : Nat) :
    (wm.focusWindow i).2.framebuffer = wm.framebuffer ∧ (wm.focusWindow i).2.activeDesktop = wm.activeDesktop ∧
      (wm.focusWindow i).2.mouseX = wm.mouseX ∧ (wm.focusWindow i).2.mouseY = wm.mouseY ∧
      (wm.focusWindow i).2.leftButtonDown = wm.leftButtonDown := by
  cases hshown : (wm.windows[i]?).any wm.shown with
  | false =>
      rw [focusWindow_refused hshown]
      exact ⟨rfl, rfl, rfl, rfl, rfl⟩
  | true =>
      obtain ⟨front, hfront, hshown⟩ := Option.any_eq_true _ _ |>.mp hshown
      rw [focusWindow_eq hfront hshown]
      exact ⟨rfl, rfl, rfl, rfl, rfl⟩

theorem focusTopVisibleWindow_rest (wm : WindowManager) :
    wm.focusTopVisibleWindow.framebuffer = wm.framebuffer ∧
      wm.focusTopVisibleWindow.activeDesktop = wm.activeDesktop ∧
      wm.focusTopVisibleWindow.mouseX = wm.mouseX ∧ wm.focusTopVisibleWindow.mouseY = wm.mouseY ∧
      wm.focusTopVisibleWindow.leftButtonDown = wm.leftButtonDown := by
  unfold focusTopVisibleWindow
  split
  · exact focusWindow_rest wm _
  · exact ⟨rfl, rfl, rfl, rfl, rfl⟩

/-! ## What establishes the agreement -/

theorem focusWindow_ok (hw : wm.windows[i]? = some w) (hshown : wm.shown w = true) : FocusOk (wm.focusWindow i).2 := by
  rw [focusWindow_eq hw hshown]
  constructor
  · intro j v hv
    show _ ↔ some (wm.windowCount - 1) = some j
    by_cases hj : j = wm.windowCount - 1
    · subst hj
      rw [raised_top hw] at hv
      rw [← Option.some.inj hv]
      exact iff_of_true rfl rfl
    · obtain ⟨u, -, rfl⟩ := raised_below hj hv
      exact iff_of_false Bool.false_ne_true fun h => hj (Option.some.inj h).symm
  · intro j hj
    obtain rfl := Option.some.inj hj
    exact ⟨setFocus w, raised_top hw, shown_iff.mp hshown⟩

theorem clearWindowFocus_ok (wm : WindowManager) : FocusOk wm.clearWindowFocus := by
  constructor
  · intro j v hv
    obtain ⟨u, -, rfl⟩ := List.mem_map.mp (List.mem_of_getElem? hv)
    exact iff_of_false (by simp) (by simp [clearWindowFocus])
  · intro j hj
    exact absurd hj (by simp [clearWindowFocus])

theorem focusTopVisibleWindow_ok (wm : WindowManager) : FocusOk wm.focusTopVisibleWindow := by
  unfold focusTopVisibleWindow
  cases htop : wm.findTopVisibleWindow with
  | none => exact clearWindowFocus_ok wm
  | some top =>
      obtain ⟨w, hw, hshown⟩ := findTopVisibleWindow_shown htop
      exact focusWindow_ok hw hshown

/-! ## What keeps it -/

theorem FocusOk.edit (h : FocusOk wm) {f : Window → Window}
    (hfocus : ∀ w, wm.windows[i]? = some w → (f w).focused = true → w.focused = true)
    (hactive : wm.activeWindowIndex = some i → ∀ w, wm.windows[i]? = some w →
      (f w).focused = w.focused ∧ (wm.shown w = true → wm.shown (f w) = true)) : FocusOk (wm.setWindow i f) := by
  constructor
  · intro j v hv
    rw [getElem?_setWindow] at hv
    obtain ⟨u, hu, rfl⟩ := Option.map_eq_some_iff.mp hv
    show _ ↔ wm.activeWindowIndex = some j
    by_cases hij : i = j
    · subst hij
      rw [if_pos rfl, ← h.focused i u hu]
      refine ⟨hfocus u hu, fun hfocused => ?_⟩
      rw [(hactive ((h.focused i u hu).mp hfocused) u hu).1]
      exact hfocused
    · rw [if_neg hij]
      exact h.focused j u hu
  · intro j hj
    obtain ⟨u, hu, hshown⟩ := h.active j hj
    rw [getElem?_setWindow, hu]
    refine ⟨_, rfl, ?_⟩
    by_cases hij : i = j
    · subst hij
      rw [if_pos rfl]
      exact shown_iff.mp ((hactive hj u hu).2 (shown_iff.mpr hshown))
    · rw [if_neg hij]
      exact hshown

theorem FocusOk.add (h : FocusOk wm) (hfocus : w.focused = false) :
    FocusOk { wm with windows := wm.windows ++ [w] } := by
  -- the active window is one of those that were there before
  have hlt : ∀ j, wm.activeWindowIndex = some j → j < wm.windows.length := by
    intro j hj
    obtain ⟨u, hu, -⟩ := h.active j hj
    exact (List.getElem?_eq_some_iff.mp hu).1
  constructor
  · intro j v hv
    by_cases hj : j < wm.windows.length
    · rw [List.getElem?_append_left hj] at hv
      exact h.focused j v hv
    · rw [List.getElem?_append_right (by omega)] at hv
      obtain ⟨hlen, rfl⟩ := List.getElem?_eq_some_iff.mp hv
      refine iff_of_false ?_ fun hactive => hj (hlt j hactive)
      rw [List.getElem_singleton, hfocus]
      exact Bool.false_ne_true
  · intro j hj
    obtain ⟨u, hu, hshown⟩ := h.active j hj
    refine ⟨u, ?_, hshown⟩
    rw [List.getElem?_append_left (hlt j hj)]
    exact hu

theorem FocusOk.only {wm' : WindowManager} (h : FocusOk wm) (hwindows : wm'.windows = wm.windows)
    (hdesktop : wm'.activeDesktop = wm.activeDesktop) (hactive : wm'.activeWindowIndex = wm.activeWindowIndex) :
    FocusOk wm' := by
  constructor
  · rw [hwindows, hactive]
    exact h.focused
  · rw [hwindows, hactive, hdesktop]
    exact h.active

theorem FocusOk.change {wm' : WindowManager} (hchange : Change wm wm') (h : FocusOk wm) : FocusOk wm' := by
  cases hchange with
  | hold hsame => exact h.only hsame.windows hsame.activeDesktop hsame.activeWindowIndex
  | edit i f _ hfocus hactive => exact h.edit hfocus hactive
  | refocus i f _ => exact focusTopVisibleWindow_ok _
  | switch desktop => exact focusTopVisibleWindow_ok _
  | focus i =>
      cases hshown : (wm.windows[i]?).any wm.shown with
      | false =>
          rw [focusWindow_refused hshown]
          exact h
      | true =>
          obtain ⟨w, hw, hshown⟩ := Option.any_eq_true _ _ |>.mp hshown
          exact focusWindow_ok hw hshown
  | add window bounds _ hfocus => exact h.add hfocus

end WindowManager

open WindowManager

namespace Desktop

variable {K : Type}

theorem focusOk_invariant : WindowInvariant FocusOk :=
  ⟨fun h _ hwindows hdesktop hactive => h.only hwindows hdesktop hactive, FocusOk.change⟩

/-- **The focus is consistent in every run**: whatever the kernel answers, after any actions a window has the focus
    iff it is the active one, and the active window exists and is on the screen. -/
theorem focus_consistent (k : AppKernel K) (framebuffer : FramebufferInfo) (kernel : K) (actions : List Action) :
    FocusOk (Lib.run (step k) (start k framebuffer kernel) actions).wm := by
  refine focusOk_invariant.run ?_ actions
  -- there are no windows yet
  constructor
  · intro i w hw
    exact absurd hw (by simp [reset])
  · intro i hi
    exact absurd hi (by simp [reset])

end Desktop
end Gui
end UefiBoot
