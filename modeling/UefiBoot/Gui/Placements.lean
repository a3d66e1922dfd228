import UefiBoot.Gui.Focus

/-!
# `Gui.Placements` — the places that are remembered

The window manager remembers the last place of an application, in a table of its own that no window is in. Adding,
moving and resizing a window store to that table; everything else is `Steady`: it leaves the table alone and takes no
window away.
-/

namespace UefiBoot
namespace Gui
namespace WindowManager

variable {wm wm' wm'' : WindowManager} {app : AppKind} {bounds : Rect}

/-- Remembering a place has no effect: it is the remembered one, or there is no room for it. -/
def Settled (wm : WindowManager) (app : AppKind) (bounds : Rect) : Prop :=
  match wm.findAppPlacement app with
  | some i => (wm.placements i).lastBounds = bounds
  | none   => ∀ i, (wm.placements i).valid = true

/-! ## Storing a place -/

theorem findAppPlacement_congr (h : wm'.placements = wm.placements) (app : AppKind) :
    wm'.findAppPlacement app = wm.findAppPlacement app := by
  unfold findAppPlacement
  rw [h]

theorem rememberAppPlacement_congr (h : wm'.placements = wm.placements) (app : AppKind) (bounds : Rect) :
    (wm'.rememberAppPlacement app bounds).placements = (wm.rememberAppPlacement app bounds).placements := by
  unfold rememberAppPlacement
  rw [findAppPlacement_congr h, h]
  cases wm.findAppPlacement app with
  | some i => rfl
  | none =>
      dsimp only
      cases Lib.firstSlot fun i => !(wm.placements i).valid with
      | some i => rfl
      | none => exact h

theorem Settled.congr (h : wm'.placements = wm.placements) : wm'.Settled app bounds ↔ wm.Settled app bounds := by
  unfold Settled
  rw [findAppPlacement_congr h, h]

theorem rememberAppPlacement_found {i : Fin kMaxWindows} (h : wm.findAppPlacement app = some i) :
    (wm.rememberAppPlacement app bounds).placements =
      Function.update wm.placements i { wm.placements i with lastBounds := bounds } := by
  unfold rememberAppPlacement
  rw [h]

theorem rememberAppPlacement_free {i : Fin kMaxWindows} (h : wm.findAppPlacement app = none)
    (hfree : Lib.firstSlot (fun i => !(wm.placements i).valid) = some i) :
    (wm.rememberAppPlacement app bounds).placements = Function.update wm.placements i ⟨app, bounds, true⟩ := by
  unfold rememberAppPlacement
  rw [h]
  dsimp only
  rw [hfree]

theorem rememberAppPlacement_full (h : wm.findAppPlacement app = none)
    (hfull : Lib.firstSlot (fun i => !(wm.placements i).valid) = none) :
    (wm.rememberAppPlacement app bounds).placements = wm.placements := by
  unfold rememberAppPlacement
  rw [h]
  dsimp only
  rw [hfull]

/-- A place goes to the entry of the application, to a free entry, or nowhere. -/
theorem rememberAppPlacement_cases (wm : WindowManager) (app : AppKind) (bounds : Rect) :
    (∃ i, wm.findAppPlacement app = some i ∧ (wm.rememberAppPlacement app bounds).placements =
      Function.update wm.placements i { wm.placements i with lastBounds := bounds }) ∨
    (∃ i, wm.findAppPlacement app = none ∧ (wm.placements i).valid = false ∧
      (wm.rememberAppPlacement app bounds).placements = Function.update wm.placements i ⟨app, bounds, true⟩) ∨
    (wm.findAppPlacement app = none ∧ (∀ i, (wm.placements i).valid = true) ∧
      (wm.rememberAppPlacement app bounds).placements = wm.placements) := by
  cases hfind : wm.findAppPlacement app with
  | some i => exact .inl ⟨i, rfl, rememberAppPlacement_found hfind⟩
  | none =>
      cases hfree : Lib.firstSlot fun i => !(wm.placements i).valid with
      | some i =>
          have hentry : (wm.placements i).valid = false := by simpa using Lib.firstSlot_true hfree
          exact .inr (.inl ⟨i, rfl, hentry, rememberAppPlacement_free hfind hfree⟩)
      | none =>
          have hfull : ∀ i, (wm.placements i).valid = true := fun i => by
            simpa using Lib.firstSlot_eq_none_iff.mp hfree i
          exact .inr (.inr ⟨rfl, hfull, rememberAppPlacement_full hfind hfree⟩)

theorem settled_iff : (wm.rememberAppPlacement app bounds).placements = wm.placements ↔ wm.Settled app bounds := by
  unfold Settled
  rcases rememberAppPlacement_cases wm app bounds with ⟨i, hfind, hafter⟩ | ⟨i, hfind, hfree, hafter⟩ |
    ⟨hfind, hfull, hafter⟩
  · rw [hfind, hafter, Function.update_eq_self_iff]
    dsimp only
    constructor
    · intro h
      rw [← h]
    · rintro rfl
      rfl
  · rw [hfind, hafter, Function.update_eq_self_iff]
    dsimp only
    constructor
    · intro h
      rw [← h] at hfree
      cases hfree
    · intro hfull
      rw [hfull i] at hfree
      cases hfree
  · rw [hfind, hafter]
    exact iff_of_true rfl hfull

/-- The entry that a place went to, where it was not settled. -/
theorem rememberAppPlacement_changed (h : ¬ wm.Settled app bounds) :
    ∃ i, ((wm.rememberAppPlacement app bounds).placements i).valid = true ∧
      ((wm.rememberAppPlacement app bounds).placements i).app = app ∧
      (wm.rememberAppPlacement app bounds).placements i ≠ wm.placements i := by
  rcases rememberAppPlacement_cases wm app bounds with ⟨i, hfind, hafter⟩ | ⟨i, hfind, hfree, hafter⟩ |
    ⟨hfind, hfull, hafter⟩
  · have hentry := Lib.firstSlot_true hfind
    rw [Bool.and_eq_true, beq_iff_eq] at hentry
    refine ⟨i, ?_, ?_, fun hsame => h (settled_iff.mp ?_)⟩
    · rw [hafter, Function.update_self]
      exact hentry.1
    · rw [hafter, Function.update_self]
      exact hentry.2
    · rw [hafter, Function.update_self] at hsame
      rw [hafter, hsame, Function.update_eq_self]
  · refine ⟨i, ?_, ?_, ?_⟩
    · rw [hafter, Function.update_self]
    · rw [hafter, Function.update_self]
    · rw [hafter, Function.update_self]
      intro hsame
      rw [← hsame] at hfree
      cases hfree
  · exact absurd (settled_iff.mp hafter) h

/-- The entries of the other applications stay. -/
theorem rememberAppPlacement_other {j : Fin kMaxWindows} (hvalid : (wm.placements j).valid = true)
    (happ : (wm.placements j).app ≠ app) : (wm.rememberAppPlacement app bounds).placements j = wm.placements j := by
  rcases rememberAppPlacement_cases wm app bounds with ⟨i, hfind, hafter⟩ | ⟨i, -, hfree, hafter⟩ | ⟨-, -, hafter⟩
  · have hentry := Lib.firstSlot_true hfind
    rw [Bool.and_eq_true, beq_iff_eq] at hentry
    rw [hafter, Function.update_of_ne]
    rintro rfl
    exact happ hentry.2
  · rw [hafter, Function.update_of_ne]
    rintro rfl
    rw [hvalid] at hfree
    cases hfree
  · rw [hafter]

/-- Of two places of one application the second is remembered. -/
theorem rememberAppPlacement_twice (first : Rect) :
    ((wm.rememberAppPlacement app first).rememberAppPlacement app bounds).placements =
      (wm.rememberAppPlacement app bounds).placements := by
  cases hfind : wm.findAppPlacement app with
  | some i =>
      have hfirst : (wm.rememberAppPlacement app first).placements = _ := rememberAppPlacement_found hfind
      have hagain : (wm.rememberAppPlacement app first).findAppPlacement app = some i := by
        rw [← hfind]
        unfold findAppPlacement
        rw [hfirst]
        congr 1
        funext j
        by_cases hj : j = i
        · subst hj
          rw [Function.update_self]
        · rw [Function.update_of_ne hj]
      rw [rememberAppPlacement_found hagain, hfirst, rememberAppPlacement_found hfind, Function.update_self,
        Function.update_idem]
  | none =>
      cases hfree : Lib.firstSlot fun i => !(wm.placements i).valid with
      | some i =>
          have hfirst : (wm.rememberAppPlacement app first).placements = _ := rememberAppPlacement_free hfind hfree
          -- the entry that was free is now the only one of the application
          have hagain : (wm.rememberAppPlacement app first).findAppPlacement app = some i := by
            have hothers := Lib.firstSlot_eq_none_iff.mp hfind
            unfold findAppPlacement
            rw [hfirst]
            refine Lib.firstSlot_unique ?_ fun j hj => ?_
            · rw [Function.update_self]
              exact beq_self_eq_true app
            · by_contra hne
              rw [Function.update_of_ne hne, hothers j] at hj
              cases hj
          rw [rememberAppPlacement_found hagain, hfirst, rememberAppPlacement_free hfind hfree, Function.update_self,
            Function.update_idem]
      | none => exact rememberAppPlacement_congr (rememberAppPlacement_full hfind hfree) app bounds

/-! ## Leaving the places alone -/

/-- The places are the same, and every window is still there, on its desktop. -/
structure Steady (wm wm' : WindowManager) : Prop where
  placements : wm'.placements = wm.placements
  windows    : ∀ u ∈ wm.windows, ∃ w ∈ wm'.windows, w.app = u.app ∧ w.desktop = u.desktop

theorem Steady.refl (wm : WindowManager) : Steady wm wm := ⟨rfl, fun u hu => ⟨u, hu, rfl, rfl⟩⟩

theorem Steady.trans (h : Steady wm wm') (h' : Steady wm' wm'') : Steady wm wm'' := by
  refine ⟨h'.placements.trans h.placements, fun u hu => ?_⟩
  obtain ⟨v, hv, happ, hdesktop⟩ := h.windows u hu
  obtain ⟨w, hw, happ', hdesktop'⟩ := h'.windows v hv
  exact ⟨w, hw, happ'.trans happ, hdesktop'.trans hdesktop⟩

/-- An edit of a window that leaves its application and its desktop. -/
theorem setWindow_steady (wm : WindowManager) (index : Nat) {f : Window → Window}
    (hf : ∀ u, (f u).app = u.app ∧ (f u).desktop = u.desktop) : Steady wm (wm.setWindow index f) := by
  refine ⟨rfl, fun u hu => ?_⟩
  obtain ⟨j, hj⟩ := List.mem_iff_getElem?.mp hu
  have hafter : (wm.setWindow index f).windows[j]? = some (if index = j then f u else u) := by
    show (wm.windows.modify index f)[j]? = _
    rw [List.getElem?_modify, hj]
    split_ifs
    · rfl
    · rfl
  refine ⟨_, List.mem_of_getElem? hafter, ?_⟩
  split_ifs
  · exact hf u
  · exact ⟨rfl, rfl⟩

theorem clearWindowFocus_steady (wm : WindowManager) : Steady wm wm.clearWindowFocus :=
  ⟨rfl, fun _ hu => ⟨_, List.mem_map_of_mem hu, rfl, rfl⟩⟩

theorem bringWindowToFront_steady (wm : WindowManager) (index : Nat) : Steady wm (wm.bringWindowToFront index).2 := by
  unfold bringWindowToFront
  split_ifs
  · exact Steady.refl wm
  · exact Steady.refl wm
  · exact ⟨rfl, fun u hu => ⟨u, Lib.mem_toTop.mpr hu, rfl, rfl⟩⟩

theorem focusWindow_steady (wm : WindowManager) (index : Nat) : Steady wm (wm.focusWindow index).2 := by
  unfold focusWindow
  split_ifs
  · exact Steady.refl wm
  · have hfront := (clearWindowFocus_steady wm).trans (bringWindowToFront_steady _ index)
    cases hbring : wm.clearWindowFocus.bringWindowToFront index with
    | mk front wm' =>
        rw [hbring] at hfront
        cases front with
        | none => exact hfront
        | some front =>
            have hedit := setWindow_steady { wm' with activeWindowIndex := some front } front
              (f := fun window => { window with focused := true }) fun u => ⟨rfl, rfl⟩
            exact hfront.trans ⟨hedit.placements, hedit.windows⟩

theorem focusTopVisibleWindow_steady (wm : WindowManager) : Steady wm wm.focusTopVisibleWindow := by
  unfold focusTopVisibleWindow
  cases wm.findTopVisibleWindow with
  | some top => exact focusWindow_steady wm top
  | none => exact clearWindowFocus_steady wm

theorem switchVirtualDesktop_steady (wm : WindowManager) (desktop : UInt8) :
    Steady wm (wm.switchVirtualDesktop desktop).2 := by
  unfold switchVirtualDesktop
  split_ifs
  · exact Steady.refl wm
  · have hfocus := focusTopVisibleWindow_steady { wm with activeDesktop := desktop, dragWindowIndex := none }
    exact ⟨hfocus.placements, hfocus.windows⟩

theorem switchTo_steady (wm : WindowManager) (desktop : UInt8) : Steady wm (wm.switchTo desktop) := by
  unfold switchTo
  split_ifs
  · exact switchVirtualDesktop_steady wm desktop
  · exact Steady.refl wm

theorem findWindowByApp_isSome {desktop : UInt8} :
    (wm.findWindowByApp app desktop).isSome = true ↔ ∃ w ∈ wm.windows, w.app = app ∧ w.desktop = desktop := by
  unfold findWindowByApp
  rw [List.findIdx?_isSome, List.any_eq_true]
  simp only [Bool.and_eq_true, beq_iff_eq]

/-- A window that was found is found again. -/
theorem Steady.findWindowByApp (h : Steady wm wm') {desktop : UInt8}
    (hfound : (wm.findWindowByApp app desktop).isSome = true) : (wm'.findWindowByApp app desktop).isSome = true := by
  obtain ⟨u, hu, rfl, rfl⟩ := findWindowByApp_isSome.mp hfound
  exact findWindowByApp_isSome.mpr (h.windows u hu)

end WindowManager
end Gui
end UefiBoot
