import UefiBoot.Gui.Geometry

/-!
# `Gui.Maximize` — maximising and back

Bounds that `ClampWindowToUsableArea` could have given are given back by it unchanged (`Fits.clamp_eq`): the size already
has its final value before the position is looked at, and then no comparison of the eight makes a change. Clamping twice
is therefore clamping once, and a window that is maximised and restored has the bounds it had, because what is remembered
in between goes through the clamp once more.
-/

namespace UefiBoot
namespace Gui

/-- The rectangle lies in the usable area, and each dimension is at least the minimum of the application if the area
    is. -/
structure Fits (framebuffer : FramebufferInfo) (bounds : Rect) (app : AppKind) : Prop where
  left      : (usableDesktopRect framebuffer).x.toNat ≤ bounds.x.toNat
  right     : bounds.x.toNat + bounds.width.toNat ≤
    (usableDesktopRect framebuffer).x.toNat + (usableDesktopRect framebuffer).width.toNat
  top       : (usableDesktopRect framebuffer).y.toNat ≤ bounds.y.toNat
  bottom    : bounds.y.toNat + bounds.height.toNat ≤
    (usableDesktopRect framebuffer).y.toNat + (usableDesktopRect framebuffer).height.toNat
  minWidth  : appMinWidth app ≤ (usableDesktopRect framebuffer).width → appMinWidth app ≤ bounds.width
  minHeight : appMinHeight app ≤ (usableDesktopRect framebuffer).height → appMinHeight app ≤ bounds.height

/-- What the clamp is for, on one screen. -/
structure ClampLaws (framebuffer : FramebufferInfo) : Prop where
  idempotent : ∀ bounds app, clampWindowToUsableArea framebuffer (clampWindowToUsableArea framebuffer bounds app) app =
    clampWindowToUsableArea framebuffer bounds app
  identity   : ∀ bounds app, Fits framebuffer bounds app → clampWindowToUsableArea framebuffer bounds app = bounds
  round_trip : ∀ (wm : WindowManager) (i : Nat) (window : Window), wm.framebuffer = framebuffer →
    wm.windows[i]? = some window → Inside framebuffer window → window.maximized = false →
    ((wm.toggleMaximizeWindow i).toggleMaximizeWindow i).windows =
      wm.windows.set i { window with restoreBounds := window.bounds }

/-! ## Where the clamp changes nothing -/

theorem clampSize_eq {size minimum usable : UInt32} (hmin : minimum ≤ usable → minimum ≤ size)
    (hle : size.toNat ≤ usable.toNat) : clampSize size minimum usable = size := by
  have hraise : ¬ (size < minimum ∧ usable ≥ minimum) := by
    rintro ⟨hlt, hfits⟩
    exact UInt32.not_lt.mpr (hmin hfits) hlt
  unfold clampSize
  dsimp only
  rw [if_neg hraise, if_neg (UInt32.not_lt.mpr (UInt32.le_iff_toNat_le.mpr hle))]

theorem clampOffset_eq {offset size start usable : UInt32} (hlow : start.toNat ≤ offset.toNat)
    (hhigh : offset.toNat + size.toNat ≤ start.toNat + usable.toNat) (hend : start.toNat + usable.toNat < 2 ^ 32) :
    clampOffset offset size start usable = offset := by
  have hsum : (start + usable).toNat = start.toNat + usable.toNat := by
    rw [UInt32.toNat_add]
    exact Nat.mod_eq_of_lt hend
  unfold clampOffset
  dsimp only
  rw [if_neg (UInt32.not_lt.mpr (UInt32.le_iff_toNat_le.mpr hlow)), if_neg]
  rw [gt_iff_lt, UInt32.not_lt, UInt32.le_iff_toNat_le]
  by_cases hroom : usable > size
  · rw [if_pos hroom, UInt32.toNat_sub_of_le _ _ (UInt32.le_iff_toNat_le.mpr (by omega)), hsum]
    omega
  · -- the window is as large as the area, so it begins where the area does
    rw [if_neg hroom]
    have hfull : usable.toNat ≤ size.toNat := UInt32.le_iff_toNat_le.mp (UInt32.not_lt.mp hroom)
    omega

variable {framebuffer : FramebufferInfo} {bounds : Rect} {app : AppKind}

/-- **The clamp leaves alone what fits.** -/
theorem Fits.clamp_eq (h : framebufferValid framebuffer = true) (hfits : Fits framebuffer bounds app) :
    clampWindowToUsableArea framebuffer bounds app = bounds := by
  obtain ⟨hx, hy, hwidth, hheight⟩ := usableDesktopRect_toNat h
  have hwidthLt : framebuffer.width.toNat < 2 ^ 32 := framebuffer.width.toNat_lt
  have hheightLt : framebuffer.height.toNat < 2 ^ 32 := framebuffer.height.toNat_lt
  have hleft := hfits.left
  have hright := hfits.right
  have htop := hfits.top
  have hbottom := hfits.bottom
  unfold clampWindowToUsableArea
  dsimp only
  rw [clampSize_eq hfits.minWidth (by omega), clampSize_eq hfits.minHeight (by omega),
    clampOffset_eq hleft hright (by omega), clampOffset_eq htop hbottom (by omega)]

theorem Inside.fits {window : Window} (h : Inside framebuffer window) : Fits framebuffer window.bounds window.app :=
  ⟨h.left, h.right, h.top, h.bottom, h.minWidth, h.minHeight⟩

/-- What the clamp gives fits. -/
theorem fits_clamp (h : framebufferValid framebuffer = true) (bounds : Rect) (app : AppKind) :
    Fits framebuffer (clampWindowToUsableArea framebuffer bounds app) app := by
  let window : Window := { bounds := clampWindowToUsableArea framebuffer bounds app, app := app }
  have hinside : Inside framebuffer window := Inside.of_clamp h bounds rfl
  exact hinside.fits

/-! ## There and back -/

namespace WindowManager

variable {wm : WindowManager} {i : Nat} {window : Window}

theorem setWindow_windows (hwindow : wm.windows[i]? = some window) (f : Window → Window) :
    (wm.setWindow i f).windows = wm.windows.set i (f window) := by
  show wm.windows.modify i f = _
  rw [List.modify_eq_set_getElem?, hwindow]
  rfl

theorem place_windows (hwindow : wm.windows[i]? = some window) (w : Window) (bounds : Rect) :
    (wm.place i w bounds).windows =
      wm.windows.set i { window with bounds := clampWindowToUsableArea wm.framebuffer bounds w.app } := by
  unfold place
  dsimp only
  rw [(rememberAppPlacement_same _ _ _).windows, setWindow_windows hwindow]

/-- The way there keeps the bounds in `restoreBounds`. -/
theorem toggle_maximizes (hwindow : wm.windows[i]? = some window) (hmax : window.maximized = false) :
    (wm.toggleMaximizeWindow i).framebuffer = wm.framebuffer ∧ ∃ bounds, (wm.toggleMaximizeWindow i).windows =
      wm.windows.set i { window with restoreBounds := window.bounds, bounds := bounds, maximized := true } := by
  unfold toggleMaximizeWindow
  rw [hwindow]
  dsimp only
  rw [if_neg (by rw [hmax]; exact Bool.false_ne_true)]
  refine ⟨rfl, _, setWindow_windows hwindow _⟩

/-- The way back clamps them. -/
theorem toggle_restores (hwindow : wm.windows[i]? = some window) (hmax : window.maximized = true) :
    (wm.toggleMaximizeWindow i).windows = wm.windows.set i { window with
      bounds := clampWindowToUsableArea wm.framebuffer window.restoreBounds window.app, maximized := false } := by
  have hi : i < wm.windows.length := (List.getElem?_eq_some_iff.mp hwindow).1
  have hset := setWindow_windows hwindow fun w => { w with maximized := false }
  have hflag : (wm.setWindow i fun w => { w with maximized := false }).windows[i]? =
      some { window with maximized := false } := by
    rw [hset, List.getElem?_set_self hi]
  unfold toggleMaximizeWindow
  rw [hwindow]
  dsimp only
  rw [if_pos hmax, place_windows hflag, hset, List.set_set]
  rfl

/-- **There and back**: only `restoreBounds` has changed, in this window and no other. -/
theorem toggle_toggle (h : framebufferValid wm.framebuffer = true) (hwindow : wm.windows[i]? = some window)
    (hinside : Inside wm.framebuffer window) (hmax : window.maximized = false) :
    ((wm.toggleMaximizeWindow i).toggleMaximizeWindow i).windows =
      wm.windows.set i { window with restoreBounds := window.bounds } := by
  have hi : i < wm.windows.length := (List.getElem?_eq_some_iff.mp hwindow).1
  obtain ⟨hframebuffer, bounds, hmaximized⟩ := toggle_maximizes hwindow hmax
  have hthere : (wm.toggleMaximizeWindow i).windows[i]? =
      some { window with restoreBounds := window.bounds, bounds := bounds, maximized := true } := by
    rw [hmaximized, List.getElem?_set_self hi]
  rw [toggle_restores hthere rfl, hmaximized, hframebuffer, List.set_set]
  dsimp only
  rw [hinside.fits.clamp_eq h, hmax]

end WindowManager

/-- **The laws of the clamp** hold on every accepted framebuffer. -/
theorem clamp_laws (framebuffer : FramebufferInfo) (h : framebufferValid framebuffer = true) :
    ClampLaws framebuffer := by
  constructor
  case idempotent =>
    intro bounds app
    exact (fits_clamp h bounds app).clamp_eq h
  case identity =>
    intro bounds app hfits
    exact hfits.clamp_eq h
  case round_trip =>
    rintro wm i window rfl hwindow hinside hmax
    exact WindowManager.toggle_toggle h hwindow hinside hmax

/-- The smallest screen, where no application has its least height. -/
theorem clamp_laws_small :
    ClampLaws { baseAddress := 0x80000000, width := 320, height := 200, pixelsPerScanline := 320 } :=
  clamp_laws _ (by decide)

end Gui
end UefiBoot
