import UefiBoot.Gui.Focus

/-!
# `Gui.Geometry` — every window lies in the usable area

Wherever bounds come from, `ClampWindowToUsableArea` is what they go through last. `clampSize_le`, `clampSize_ge` and
`clampOffset_inside` are its three branches over the naturals, where nothing wraps because the usable area of an
accepted framebuffer ends below `2 ^ 32`.
-/

namespace UefiBoot
namespace Gui

/-! ## The clamp -/

theorem clampSize_le (size minimum usable : UInt32) : (clampSize size minimum usable).toNat ≤ usable.toNat := by
  unfold clampSize
  dsimp only
  by_cases h : (if size < minimum ∧ usable ≥ minimum then minimum else size) > usable
  · rw [if_pos h]
  · rw [if_neg h]
    exact UInt32.le_iff_toNat_le.mp (UInt32.not_lt.mp h)

theorem clampSize_ge (size : UInt32) {minimum usable : UInt32} (h : minimum.toNat ≤ usable.toNat) :
    minimum.toNat ≤ (clampSize size minimum usable).toNat := by
  have husable : usable ≥ minimum := UInt32.le_iff_toNat_le.mpr h
  have hraised : minimum.toNat ≤ (if size < minimum ∧ usable ≥ minimum then minimum else size).toNat := by
    by_cases hsize : size < minimum
    · rw [if_pos ⟨hsize, husable⟩]
    · rw [if_neg fun hboth => hsize hboth.1]
      exact UInt32.le_iff_toNat_le.mp (UInt32.not_lt.mp hsize)
  unfold clampSize
  dsimp only
  generalize (if size < minimum ∧ usable ≥ minimum then minimum else size) = raised at hraised ⊢
  split_ifs
  · exact h
  · exact hraised

theorem clampOffset_inside (offset start : UInt32) {size usable : UInt32} (hsize : size.toNat ≤ usable.toNat)
    (hend : start.toNat + usable.toNat < 2 ^ 32) :
    start.toNat ≤ (clampOffset offset size start usable).toNat ∧
      (clampOffset offset size start usable).toNat + size.toNat ≤ start.toNat + usable.toNat := by
  -- the last offset at which the window still fits
  have hlimit : (if usable > size then start + usable - size else start).toNat =
      start.toNat + usable.toNat - size.toNat := by
    have hsum : (start + usable).toNat = start.toNat + usable.toNat := by
      rw [UInt32.toNat_add]
      exact Nat.mod_eq_of_lt hend
    split_ifs with h
    · rw [UInt32.toNat_sub_of_le _ _ (UInt32.le_iff_toNat_le.mpr (by omega)), hsum]
    · have hle : usable.toNat ≤ size.toNat := UInt32.le_iff_toNat_le.mp (UInt32.not_lt.mp h)
      omega
  unfold clampOffset
  dsimp only
  generalize (if usable > size then start + usable - size else start) = limit at hlimit ⊢
  split_ifs with hlow hhigh
  · exact ⟨le_refl _, by omega⟩
  · omega
  · have hge : start.toNat ≤ offset.toNat := UInt32.le_iff_toNat_le.mp (UInt32.not_lt.mp hlow)
    have hle : offset.toNat ≤ limit.toNat := UInt32.le_iff_toNat_le.mp (UInt32.not_lt.mp hhigh)
    omega

/-! ## The usable area -/

variable {framebuffer : FramebufferInfo}

/-- The area between the bars: the whole width, from below the top bar to above the task bar. -/
theorem usableDesktopRect_toNat (h : framebufferValid framebuffer = true) :
    (usableDesktopRect framebuffer).x.toNat = 0 ∧ (usableDesktopRect framebuffer).y.toNat = 46 ∧
      (usableDesktopRect framebuffer).width.toNat = framebuffer.width.toNat ∧
      (usableDesktopRect framebuffer).height.toNat + 132 = framebuffer.height.toNat := by
  unfold framebufferValid at h
  simp only [Bool.and_eq_true, decide_eq_true_eq] at h
  have hheight : 200 ≤ framebuffer.height.toNat := UInt32.le_iff_toNat_le.mp h.1.2
  have hlt : framebuffer.height.toNat < 2 ^ 32 := framebuffer.height.toNat_lt
  have htask : framebuffer.height > kTaskBarHeight + 8 := UInt32.lt_iff_toNat_lt.mpr (by
    have : (kTaskBarHeight + 8).toNat = 86 := by decide
    omega)
  refine ⟨rfl, rfl, rfl, ?_⟩
  have hbottom : (framebuffer.height - kTaskBarHeight - 8).toNat = framebuffer.height.toNat - 86 := by
    rw [UInt32.toNat_sub, UInt32.toNat_sub]
    have htaskBar : kTaskBarHeight.toNat = 78 := by decide
    have height : (8 : UInt32).toNat = 8 := by decide
    omega
  unfold usableDesktopRect
  simp only [if_pos htask]
  have htop : (kTopBarHeight + 8).toNat = 46 := by decide
  rw [if_pos (UInt32.lt_iff_toNat_lt.mpr (by omega)), UInt32.toNat_sub, hbottom, htop]
  omega

/-- The window lies in the usable area, and its coordinates do not wrap; each dimension is at least the minimum of
    the application, if the area is. -/
structure Inside (framebuffer : FramebufferInfo) (window : Window) : Prop where
  left      : (usableDesktopRect framebuffer).x.toNat ≤ window.bounds.x.toNat
  right     : window.bounds.x.toNat + window.bounds.width.toNat ≤
    (usableDesktopRect framebuffer).x.toNat + (usableDesktopRect framebuffer).width.toNat
  top       : (usableDesktopRect framebuffer).y.toNat ≤ window.bounds.y.toNat
  bottom    : window.bounds.y.toNat + window.bounds.height.toNat ≤
    (usableDesktopRect framebuffer).y.toNat + (usableDesktopRect framebuffer).height.toNat
  no_wrap_x : window.bounds.x.toNat + window.bounds.width.toNat < 2 ^ 32
  no_wrap_y : window.bounds.y.toNat + window.bounds.height.toNat < 2 ^ 32
  minWidth  : appMinWidth window.app ≤ (usableDesktopRect framebuffer).width →
    appMinWidth window.app ≤ window.bounds.width
  minHeight : appMinHeight window.app ≤ (usableDesktopRect framebuffer).height →
    appMinHeight window.app ≤ window.bounds.height

/-- What the clamp gives is inside. -/
theorem Inside.of_clamp (h : framebufferValid framebuffer = true) {window : Window} (bounds : Rect)
    (hbounds : window.bounds = clampWindowToUsableArea framebuffer bounds window.app) : Inside framebuffer window := by
  obtain ⟨hx, hy, hwidth, hheight⟩ := usableDesktopRect_toNat h
  have hwidthLt : framebuffer.width.toNat < 2 ^ 32 := framebuffer.width.toNat_lt
  have hheightLt : framebuffer.height.toNat < 2 ^ 32 := framebuffer.height.toNat_lt
  have hxs := clampOffset_inside bounds.x (usableDesktopRect framebuffer).x
    (clampSize_le bounds.width (appMinWidth window.app) (usableDesktopRect framebuffer).width) (by omega)
  have hys := clampOffset_inside bounds.y (usableDesktopRect framebuffer).y
    (clampSize_le bounds.height (appMinHeight window.app) (usableDesktopRect framebuffer).height) (by omega)
  unfold clampWindowToUsableArea at hbounds
  dsimp only at hbounds
  constructor
  · rw [hbounds]
    exact hxs.1
  · rw [hbounds]
    exact hxs.2
  · rw [hbounds]
    exact hys.1
  · rw [hbounds]
    exact hys.2
  · rw [hbounds]
    dsimp only
    omega
  · rw [hbounds]
    dsimp only
    omega
  · intro hmin
    rw [hbounds]
    exact UInt32.le_iff_toNat_le.mpr (clampSize_ge bounds.width (UInt32.le_iff_toNat_le.mp hmin))
  · intro hmin
    rw [hbounds]
    exact UInt32.le_iff_toNat_le.mpr (clampSize_ge bounds.height (UInt32.le_iff_toNat_le.mp hmin))

/-- Only the bounds and the application count. -/
theorem Inside.congr {window window' : Window} (h : Inside framebuffer window) (happ : window'.app = window.app)
    (hbounds : window'.bounds = window.bounds) : Inside framebuffer window' := by
  obtain ⟨hleft, hright, htop, hbottom, hwrapX, hwrapY, hminWidth, hminHeight⟩ := h
  rw [← hbounds] at *
  rw [← happ] at *
  exact ⟨hleft, hright, htop, hbottom, hwrapX, hwrapY, hminWidth, hminHeight⟩

/-! ## Every window of every run -/

namespace WindowManager

/-- All windows of a window manager on this screen are inside. -/
def AllInside (framebuffer : FramebufferInfo) (wm : WindowManager) : Prop :=
  wm.framebuffer = framebuffer ∧ ∀ w ∈ wm.windows, Inside framebuffer w

variable {wm wm' : WindowManager}

theorem Inside.of_placed (h : framebufferValid framebuffer = true) {window window' : Window}
    (hplaced : Placed framebuffer window window') (hinside : Inside framebuffer window) :
    Inside framebuffer window' := by
  obtain ⟨happ, hbounds | ⟨bounds, hclamp⟩⟩ := hplaced
  · exact hinside.congr happ hbounds
  · refine Inside.of_clamp h bounds ?_
    rw [hclamp, happ]

theorem AllInside.edit (h : framebufferValid framebuffer = true) (hall : AllInside framebuffer wm) {i : Nat}
    {f : Window → Window} (hplaced : ∀ w, wm.windows[i]? = some w → Placed wm.framebuffer w (f w)) :
    AllInside framebuffer (wm.setWindow i f) := by
  refine ⟨hall.1, fun w hw => ?_⟩
  obtain ⟨j, hj⟩ := List.mem_iff_getElem?.mp hw
  rw [getElem?_setWindow] at hj
  obtain ⟨u, hu, rfl⟩ := Option.map_eq_some_iff.mp hj
  have hinside : Inside framebuffer u := hall.2 u (List.mem_of_getElem? hu)
  split_ifs with hij
  · subst hij
    have := hplaced u hu
    rw [hall.1] at this
    exact Inside.of_placed h this hinside
  · exact hinside

theorem AllInside.focusTopVisibleWindow (hall : AllInside framebuffer wm) :
    AllInside framebuffer wm.focusTopVisibleWindow := by
  refine ⟨(focusTopVisibleWindow_rest wm).1.trans hall.1, fun w hw => ?_⟩
  obtain ⟨u, hu, focused, rfl⟩ := mem_focusTopVisibleWindow hw
  exact (hall.2 u hu).congr rfl rfl

theorem AllInside.change (h : framebufferValid framebuffer = true) (hchange : Change wm wm')
    (hall : AllInside framebuffer wm) : AllInside framebuffer wm' := by
  cases hchange with
  | hold hsame => exact ⟨hsame.framebuffer.trans hall.1, hsame.windows ▸ hall.2⟩
  | edit i f hplaced _ _ => exact hall.edit h hplaced
  | refocus i f hplaced => exact (hall.edit h fun w _ => hplaced w).focusTopVisibleWindow
  | switch desktop =>
      have hswitched : AllInside framebuffer { wm with activeDesktop := desktop } := hall
      exact hswitched.focusTopVisibleWindow
  | focus i =>
      refine ⟨(focusWindow_rest wm i).1.trans hall.1, fun w hw => ?_⟩
      obtain ⟨u, hu, focused, rfl⟩ := mem_focusWindow i hw
      exact (hall.2 u hu).congr rfl rfl
  | add window bounds hbounds _ =>
      refine ⟨hall.1, fun w hw => ?_⟩
      rcases List.mem_append.mp hw with hold | hnew
      · exact hall.2 w hold
      · obtain rfl := List.mem_singleton.mp hnew
        rw [hall.1] at hbounds
        exact Inside.of_clamp h bounds hbounds

end WindowManager

open WindowManager

namespace Desktop

variable {K : Type}

theorem allInside_invariant (h : framebufferValid framebuffer = true) : WindowInvariant (AllInside framebuffer) :=
  ⟨fun hall hsame hwindows _ _ => ⟨hsame.trans hall.1, hwindows ▸ hall.2⟩, fun hchange hall => hall.change h hchange⟩

/-- **Every window of every run is inside**: on an accepted framebuffer, whatever actions with whatever coordinates
    and sizes come. -/
theorem windows_inside (k : AppKernel K) {framebuffer : FramebufferInfo} (h : framebufferValid framebuffer = true)
    (kernel : K) (actions : List Action) :
    let wm := (Lib.run (step k) (start k framebuffer kernel) actions).wm
    wm.framebuffer = framebuffer ∧ ∀ w ∈ wm.windows, Inside framebuffer w := by
  have hreset : AllInside framebuffer (reset framebuffer kernel).wm := ⟨rfl, fun w hw => absurd hw (by simp [reset])⟩
  exact (allInside_invariant h).run hreset actions

/-- On the smallest screen, with a window at the end of the coordinates and larger than the screen. -/
theorem windows_inside_small :
    let framebuffer : FramebufferInfo := { baseAddress := 0x80000000, width := 320, height := 200, pixelsPerScanline := 320 }
    let wm := (Lib.run (step countingKernel) (start countingKernel framebuffer 0)
      [.addWindow (some "w") ⟨0xFFFFFFFF, 0xFFFFFFFF, 0xFFFFFFFF, 1⟩ 0 .calculator 0 0 0]).wm
    wm.framebuffer = framebuffer ∧ ∀ w ∈ wm.windows, Inside framebuffer w :=
  windows_inside countingKernel (by decide) 0 _

end Desktop
end Gui
end UefiBoot
