import Mathlib.Logic.Relation
import UefiBoot.Gui.Dispatch

/-!
# `Gui.Works` — what any operation can do to the windows

A dozen functions change the windows, and the events reach them along many paths. `Change` lists the few ways in
which one of them changes the window manager, each with what the code ensures there, and `Works` is any number of
changes. The lemmas here put every operation, and in the end every event, into this form, so that an invariant of
the windows has to be checked against the six cases of `Change` only.
-/

namespace UefiBoot
namespace Gui

namespace WindowManager

/-- Two window managers with the same windows, and the pointer at the same place. -/
structure SameWindows (wm wm' : WindowManager) : Prop where
  framebuffer       : wm'.framebuffer = wm.framebuffer
  windows           : wm'.windows = wm.windows
  activeDesktop     : wm'.activeDesktop = wm.activeDesktop
  activeWindowIndex : wm'.activeWindowIndex = wm.activeWindowIndex
  mouseX            : wm'.mouseX = wm.mouseX
  mouseY            : wm'.mouseY = wm.mouseY
  leftButtonDown    : wm'.leftButtonDown = wm.leftButtonDown

theorem SameWindows.refl (wm : WindowManager) : SameWindows wm wm := ⟨rfl, rfl, rfl, rfl, rfl, rfl, rfl⟩

/-- The same application, at the same place or at one that the clamp has given. -/
def Placed (framebuffer : FramebufferInfo) (window window' : Window) : Prop :=
  window'.app = window.app ∧
    (window'.bounds = window.bounds ∨
      ∃ bounds, window'.bounds = clampWindowToUsableArea framebuffer bounds window.app)

theorem Placed.same {framebuffer : FramebufferInfo} {window window' : Window} (happ : window'.app = window.app)
    (hbounds : window'.bounds = window.bounds) : Placed framebuffer window window' := ⟨happ, .inl hbounds⟩

/-- What one of the functions of the window manager does. -/
inductive Change : WindowManager → WindowManager → Prop
  /-- Only the drag, the hover, the placements and the notification change. -/
  | hold {wm wm'} (h : SameWindows wm wm') : Change wm wm'
  /-- One window changes, but if it is the active one it keeps the focus and stays on the screen. -/
  | edit {wm} (i : Nat) (f : Window → Window)
      (hplaced : ∀ w, wm.windows[i]? = some w → Placed wm.framebuffer w (f w))
      (hfocus : ∀ w, wm.windows[i]? = some w → (f w).focused = true → w.focused = true)
      (hactive : wm.activeWindowIndex = some i → ∀ w, wm.windows[i]? = some w →
        (f w).focused = w.focused ∧ (wm.shown w = true → wm.shown (f w) = true)) :
      Change wm (wm.setWindow i f)
  /-- One window changes in any way but its place, and then the focus is given anew. -/
  | refocus {wm} (i : Nat) (f : Window → Window)
      (hplaced : ∀ w, Placed wm.framebuffer w (f w)) :
      Change wm (wm.setWindow i f).focusTopVisibleWindow
  | switch {wm} (desktop : UInt8) : Change wm { wm with activeDesktop := desktop }.focusTopVisibleWindow
  | focus {wm} (i : Nat) : Change wm (wm.focusWindow i).2
  | add {wm} (window : Window) (bounds : Rect)
      (hbounds : window.bounds = clampWindowToUsableArea wm.framebuffer bounds window.app)
      (hfocus : window.focused = false) : Change wm { wm with windows := wm.windows ++ [window] }

/-- Any number of changes. -/
def Works : WindowManager → WindowManager → Prop := Relation.ReflTransGen Change

theorem Change.works {wm wm' : WindowManager} (h : Change wm wm') : Works wm wm' := Relation.ReflTransGen.single h

theorem Works.refl (wm : WindowManager) : Works wm wm := Relation.ReflTransGen.refl

theorem Works.trans {wm wm' wm'' : WindowManager} (h : Works wm wm') (h' : Works wm' wm'') : Works wm wm'' :=
  Relation.ReflTransGen.trans h h'

theorem SameWindows.works {wm wm' : WindowManager} (h : SameWindows wm wm') : Works wm wm' := (Change.hold h).works

/-- What every change keeps, any number of them keeps. -/
theorem Works.keeps {P : WindowManager → Prop} {wm wm' : WindowManager} (h : Works wm wm')
    (hstep : ∀ wm wm', Change wm wm' → P wm → P wm') (hP : P wm) : P wm' := by
  induction h with
  | refl => exact hP
  | tail _ hchange ih => exact hstep _ _ hchange ih

/-! ## The functions of the window manager -/

variable {wm : WindowManager}

theorem rememberAppPlacement_same (wm : WindowManager) (app : AppKind) (bounds : Rect) :
    SameWindows wm (wm.rememberAppPlacement app bounds) := by
  unfold rememberAppPlacement
  split
  · exact ⟨rfl, rfl, rfl, rfl, rfl, rfl, rfl⟩
  · split <;> exact ⟨rfl, rfl, rfl, rfl, rfl, rfl, rfl⟩

theorem updateHoverState_same (wm : WindowManager) : SameWindows wm wm.updateHoverState := by
  unfold updateHoverState
  dsimp only
  split_ifs
  · exact ⟨rfl, rfl, rfl, rfl, rfl, rfl, rfl⟩
  · split
    · exact ⟨rfl, rfl, rfl, rfl, rfl, rfl, rfl⟩
    · split_ifs <;> exact ⟨rfl, rfl, rfl, rfl, rfl, rfl, rfl⟩

theorem showNotification_same (wm : WindowManager) (text : String) (color : UInt32) :
    SameWindows wm (wm.showNotification text color) := ⟨rfl, rfl, rfl, rfl, rfl, rfl, rfl⟩

/-- An edit that leaves the flags and the desktop of the window alone. -/
theorem Change.reshape (i : Nat) (f : Window → Window)
    (hplaced : ∀ w, wm.windows[i]? = some w → Placed wm.framebuffer w (f w))
    (hflags : ∀ w, (f w).focused = w.focused ∧ (f w).visible = w.visible ∧ (f w).minimized = w.minimized ∧
      (f w).desktop = w.desktop) : Change wm (wm.setWindow i f) := by
  refine Change.edit i f hplaced (fun w _ hfocus => ?_) (fun _ w _ => ⟨(hflags w).1, fun hshown => ?_⟩)
  · rw [← (hflags w).1]
    exact hfocus
  · unfold shown at hshown ⊢
    rw [(hflags w).2.1, (hflags w).2.2.1, (hflags w).2.2.2]
    exact hshown

theorem place_works {index : Nat} {window : Window} (bounds : Rect)
    (happ : ∀ w, wm.windows[index]? = some w → w.app = window.app) : Works wm (wm.place index window bounds) := by
  have hedit : Change wm (wm.setWindow index fun w =>
      { w with bounds := clampWindowToUsableArea wm.framebuffer bounds window.app }) := by
    refine Change.reshape index _ (fun w hw => ⟨rfl, .inr ⟨bounds, ?_⟩⟩) (fun w => ⟨rfl, rfl, rfl, rfl⟩)
    rw [happ w hw]
  exact hedit.works.trans (rememberAppPlacement_same _ _ _).works

theorem getElem?_setWindow (wm : WindowManager) (i : Nat) (f : Window → Window) (j : Nat) :
    (wm.setWindow i f).windows[j]? = (wm.windows[j]?).map (if i = j then f else id) := by
  show (wm.windows.modify i f)[j]? = _
  rw [List.getElem?_modify]
  split_ifs <;> rfl

/-- The window that an edit leaves at its index. -/
theorem getElem?_setWindow_self {i : Nat} {f : Window → Window} {window w : Window}
    (hwindow : wm.windows[i]? = some window) (hw : (wm.setWindow i f).windows[i]? = some w) : w = f window := by
  rw [getElem?_setWindow, hwindow, if_pos rfl, Option.map_some] at hw
  exact (Option.some.inj hw).symm

theorem moveWindow_works (wm : WindowManager) (index : Nat) (x y : Int32) : Works wm (wm.moveWindow index x y) := by
  unfold moveWindow
  cases hwindow : wm.windows[index]? with
  | none => exact Works.refl wm
  | some window =>
      dsimp only
      by_cases hmax : window.maximized = true
      · rw [if_pos hmax]
        exact Works.refl wm
      · rw [if_neg hmax]
        refine place_works _ fun w hw => ?_
        rw [hwindow] at hw
        rw [Option.some.inj hw]

theorem resizeWindow_works (wm : WindowManager) (index : Nat) (width height : UInt32) :
    Works wm (wm.resizeWindow index width height).2 := by
  unfold resizeWindow
  cases hwindow : wm.windows[index]? with
  | none => exact Works.refl wm
  | some window =>
      dsimp only
      by_cases hmax : window.maximized = true
      · rw [if_pos hmax]
        exact Works.refl wm
      · rw [if_neg hmax]
        refine place_works _ fun w hw => ?_
        rw [hwindow] at hw
        rw [Option.some.inj hw]

theorem snapWindow_works (wm : WindowManager) (index : Nat) (edge : SnapEdge) :
    Works wm (wm.snapWindow index edge).2 := by
  unfold snapWindow
  cases hwindow : wm.windows[index]? with
  | none => exact Works.refl wm
  | some window =>
      dsimp only
      split_ifs
      · exact Works.refl wm
      · refine Works.trans ?_ (place_works _ fun w hw => ?_)
        · exact Change.works (Change.reshape index _ (fun w _ => Placed.same rfl rfl) fun w => ⟨rfl, rfl, rfl, rfl⟩)
        · rw [getElem?_setWindow_self hwindow hw]

theorem toggleMaximizeWindow_works (wm : WindowManager) (index : Nat) : Works wm (wm.toggleMaximizeWindow index) := by
  unfold toggleMaximizeWindow
  cases hwindow : wm.windows[index]? with
  | none => exact Works.refl wm
  | some window =>
      dsimp only
      by_cases hmax : window.maximized = true
      · rw [if_pos hmax]
        refine Works.trans ?_ (place_works _ fun w hw => ?_)
        · exact Change.works (Change.reshape index _ (fun w _ => Placed.same rfl rfl) fun w => ⟨rfl, rfl, rfl, rfl⟩)
        · rw [getElem?_setWindow_self hwindow hw]
      · rw [if_neg hmax]
        refine Change.works (Change.reshape index _ (fun w hw => ⟨rfl, .inr ?_⟩) fun w => ⟨rfl, rfl, rfl, rfl⟩)
        rw [hwindow] at hw
        rw [← Option.some.inj hw]
        exact ⟨_, rfl⟩

theorem addWindow_works (wm : WindowManager) (title : Option String) (bounds : Rect) (color : UInt32) (app : AppKind)
    (desktop : UInt8) (processId threadId : UInt64) :
    Works wm (wm.addWindow title bounds color app desktop processId threadId).2 := by
  unfold addWindow
  split_ifs
  · exact Works.refl wm
  · have hsame := rememberAppPlacement_same wm app (clampWindowToUsableArea wm.framebuffer bounds app)
    refine hsame.works.trans (Change.works ?_)
    dsimp only
    rw [← hsame.windows]
    refine Change.add _ bounds ?_ rfl
    rw [hsame.framebuffer]

theorem switchVirtualDesktop_works (wm : WindowManager) (desktop : UInt8) :
    Works wm (wm.switchVirtualDesktop desktop).2 := by
  unfold switchVirtualDesktop
  split_ifs
  · exact Works.refl wm
  · have hsame : SameWindows wm { wm with dragWindowIndex := none } := ⟨rfl, rfl, rfl, rfl, rfl, rfl, rfl⟩
    exact hsame.works.trans (Change.switch desktop).works

theorem focusTopVisibleWindow_works (wm : WindowManager) : Works wm wm.focusTopVisibleWindow :=
  (Change.switch wm.activeDesktop).works

theorem switchTo_works (wm : WindowManager) (desktop : UInt8) : Works wm (wm.switchTo desktop) := by
  unfold switchTo
  split_ifs
  · exact switchVirtualDesktop_works wm desktop
  · exact Works.refl wm

end WindowManager

/-! ## The life cycle -/

variable {K : Type} {k : AppKernel K} {d : Desktop K}

open WindowManager

namespace Desktop

@[simp] theorem setRuntime_wm (d : Desktop K) (i : Fin kApplicationCapacity) (f : AppRuntimeState → AppRuntimeState) :
    (d.setRuntime i f).wm = d.wm := rfl

@[simp] theorem changeState_wm (d : Desktop K) (app : AppKind) (source target : AppLifecycleState) :
    (d.changeState app source target).wm = d.wm := by
  unfold changeState
  split
  · rfl
  · split_ifs <;> rfl

theorem minimizeWindow_works (d : Desktop K) (index : Nat) : Works d.wm (d.minimizeWindow index).wm := by
  unfold minimizeWindow
  cases hwindow : d.wm.windows[index]? with
  | none => exact Works.refl d.wm
  | some window =>
      dsimp only
      rw [changeState_wm]
      have hsame : SameWindows d.wm { d.wm with dragWindowIndex := none } := ⟨rfl, rfl, rfl, rfl, rfl, rfl, rfl⟩
      split_ifs with hactive
      · refine hsame.works.trans (Change.works ?_)
        exact Change.refocus index (fun window => { window with minimized := true }) fun w => Placed.same rfl rfl
      · refine hsame.works.trans (Change.works ?_)
        exact Change.edit index (fun window => { window with minimized := true }) (fun w _ => Placed.same rfl rfl)
          (fun w _ hfocus => hfocus) (fun hindex => absurd hindex hactive)

theorem restoreWindowFromTaskbar_works (d : Desktop K) (index : Nat) :
    Works d.wm (d.restoreWindowFromTaskbar index).wm := by
  unfold restoreWindowFromTaskbar
  cases hwindow : d.wm.windows[index]? with
  | none => exact Works.refl d.wm
  | some window =>
      dsimp only
      split_ifs
      · exact Works.refl d.wm
      · rw [changeState_wm]
        refine Works.trans (Change.works ?_) (Change.works (Change.focus index))
        refine Change.edit index _ (fun w _ => Placed.same rfl rfl) (fun w _ hfocus => hfocus)
          (fun _ w _ => ⟨rfl, fun hshown => ?_⟩)
        unfold shown at hshown ⊢
        simp only [Bool.and_eq_true] at hshown ⊢
        exact ⟨⟨hshown.1.1, rfl⟩, hshown.2⟩

theorem restoreOrFocusRunningApp_works (d : Desktop K) (app : ApplicationDescriptor) :
    Works d.wm (d.restoreOrFocusRunningApp app).2.wm := by
  unfold restoreOrFocusRunningApp
  cases d.wm.findWindowByApp app.app app.desktop with
  | none => exact Works.refl d.wm
  | some existing =>
      dsimp only
      rw [changeState_wm]
      have hedit : Works d.wm (d.wm.setWindow existing fun window =>
          { window with visible := true, minimized := false, maximized := false }) := by
        refine Change.works (Change.edit existing _ (fun w _ => Placed.same rfl rfl) (fun w _ hfocus => hfocus)
          (fun _ w _ => ⟨rfl, fun hshown => ?_⟩))
        unfold shown at hshown ⊢
        rw [Bool.and_eq_true] at hshown ⊢
        exact ⟨rfl, hshown.2⟩
      exact hedit.trans ((switchTo_works _ _).trans
        ((Change.focus existing).works.trans (showNotification_same _ _ _).works))

theorem launchFailed_works (d : Desktop K) (i : Fin kApplicationCapacity) : Works d.wm (d.launchFailed i).2.wm :=
  (showNotification_same _ _ _).works

theorem launchWindow_works (wm : WindowManager) (app : ApplicationDescriptor) (launchCount : UInt32)
    (processId threadId : UInt64) : Works wm (launchWindow wm app launchCount processId threadId).2 := by
  unfold launchWindow
  cases hfind : wm.findWindowByApp app.app app.desktop with
  | none => exact addWindow_works _ _ _ _ _ _ _ _
  | some hidden =>
      refine Change.works (Change.edit hidden _ (fun w hw => ⟨rfl, .inr ?_⟩) (fun w _ hfocus => hfocus)
        (fun _ w _ => ⟨rfl, fun hshown => ?_⟩))
      · have happ : w.app = app.app := by
          obtain ⟨hlt, hw'⟩ := List.getElem?_eq_some_iff.mp hw
          have htest := (List.findIdx?_eq_some_iff_getElem.mp hfind).2.1
          rw [hw'] at htest
          simpa using And.left (by simpa using htest)
        rw [happ]
        unfold initialWindowBounds
        split
        · exact ⟨_, rfl⟩
        · exact ⟨_, rfl⟩
      · unfold shown at hshown ⊢
        rw [Bool.and_eq_true] at hshown ⊢
        exact ⟨rfl, hshown.2⟩

theorem setThread_works (wm : WindowManager) (app : ApplicationDescriptor) (threadId : UInt64) :
    Works wm (setThread wm app threadId) := by
  unfold setThread
  split
  · exact Change.works (Change.reshape _ _ (fun w _ => Placed.same rfl rfl) fun w => ⟨rfl, rfl, rfl, rfl⟩)
  · exact Works.refl wm

theorem launchStarted_works (d : Desktop K) (app : ApplicationDescriptor) (i : Fin kApplicationCapacity)
    (processId threadId : UInt64) : Works d.wm (d.launchStarted app i processId threadId).wm := by
  have hrunning : Works d.wm (d.markRunning app i processId threadId).wm :=
    (setThread_works d.wm app threadId).trans (switchTo_works _ app.desktop)
  exact hrunning.trans ((restoreOrFocusRunningApp_works _ app).trans (showNotification_same _ _ _).works)

theorem launchEventLoop_works (k : AppKernel K) (d : Desktop K) (app : ApplicationDescriptor)
    (i : Fin kApplicationCapacity) (processId : UInt64) : Works d.wm (d.launchEventLoop k app i processId).2.wm := by
  unfold launchEventLoop
  dsimp only
  split_ifs
  · exact launchFailed_works _ i
  · exact launchStarted_works { d with kernel := (k.start d.kernel processId app.id).2 } app i processId
      (k.start d.kernel processId app.id).1.2

theorem launchInWindow_works (k : AppKernel K) (d : Desktop K) (app : ApplicationDescriptor)
    (i : Fin kApplicationCapacity) (processId threadId : UInt64) :
    Works d.wm (d.launchInWindow k app i processId threadId).2.wm := by
  refine (launchWindow_works d.wm app (d.apps.runtimes i).launchCount processId threadId).trans ?_
  unfold launchInWindow
  dsimp only
  split_ifs
  · exact launchFailed_works { d with wm := _ } i
  · exact launchEventLoop_works k { d with wm := _ } app i _

theorem launchApplication_works (k : AppKernel K) (d : Desktop K) (app : ApplicationDescriptor) :
    Works d.wm (d.launchApplication k app).2.wm := by
  unfold launchApplication
  cases d.apps.findAppRuntime app.app with
  | none => exact (showNotification_same _ _ _).works
  | some i =>
      dsimp only
      split_ifs
      · exact restoreOrFocusRunningApp_works d app
      · unfold launchProcess
        dsimp only
        split_ifs
        · exact launchFailed_works _ i
        · exact launchInWindow_works k { d.setRuntime i _ with kernel := _ } app i _ _

theorem launchApplicationById_works (k : AppKernel K) (d : Desktop K) (appId : Option String) :
    Works d.wm (d.launchApplicationById k appId).2.wm := by
  unfold launchApplicationById
  split
  · exact (showNotification_same _ _ _).works
  · exact launchApplication_works k d _

@[simp] theorem endApplication_wm (k : AppKernel K) (d : Desktop K) (window : Window) :
    (d.endApplication k window).wm = d.wm := by
  unfold endApplication
  split
  · rfl
  · split_ifs <;> rfl

/-- The drag and the press that point at a window are given up. -/
def letGo (wm : WindowManager) (index : Nat) : WindowManager :=
  { wm with
    dragWindowIndex := if wm.dragWindowIndex = some index then none else wm.dragWindowIndex
    mouseDownWindowIndex := if wm.mouseDownWindowIndex = some index then none else wm.mouseDownWindowIndex }

theorem hideWindow_eq (wm : WindowManager) (index : Nat) :
    hideWindow wm index =
      let wm' := (letGo wm index).setWindow index fun window => { window with visible := false, focused := false }
      if wm.activeWindowIndex = some index then wm'.focusTopVisibleWindow else wm' := by
  unfold hideWindow letGo setWindow
  dsimp only
  split_ifs <;> simp_all

theorem hideWindow_works (wm : WindowManager) (index : Nat) : Works wm (hideWindow wm index) := by
  have hheld : SameWindows wm (letGo wm index) := ⟨rfl, rfl, rfl, rfl, rfl, rfl, rfl⟩
  refine hheld.works.trans (Change.works ?_)
  rw [hideWindow_eq]
  dsimp only
  split_ifs with hactive
  · exact Change.refocus index _ fun w => Placed.same rfl rfl
  · exact Change.edit index (fun window => { window with visible := false, focused := false })
      (fun w _ => Placed.same rfl rfl) (fun w _ hfocus => absurd hfocus (by simp))
      (fun hindex => absurd hindex hactive)

theorem closeWindow_works (k : AppKernel K) (d : Desktop K) (index : Nat) :
    Works d.wm (d.closeWindow k index).wm := by
  unfold closeWindow
  split
  · exact Works.refl d.wm
  · dsimp only
    rw [endApplication_wm]
    exact hideWindow_works d.wm index

theorem taskManagerKillFocusedApp_works (k : AppKernel K) (d : Desktop K) :
    Works d.wm (d.taskManagerKillFocusedApp k).2.wm := by
  unfold taskManagerKillFocusedApp
  split
  · exact Works.refl d.wm
  · exact (showNotification_same _ _ _).works

theorem appHeartbeat_wm (d : Desktop K) (app : AppKind) : (d.appHeartbeat app).wm = d.wm := by
  unfold appHeartbeat
  split <;> rfl

theorem appWatchdogTick_works (d : Desktop K) : Works d.wm d.appWatchdogTick.wm := by
  unfold appWatchdogTick
  dsimp only
  split_ifs
  · exact (showNotification_same _ _ _).works
  · exact Works.refl d.wm

/-! ## Keys and clicks -/

theorem launchAssociatedFile_works (k : AppKernel K) (d : Desktop K) (path : Text) :
    Works d.wm (d.launchAssociatedFile k path).2.wm := by
  unfold launchAssociatedFile
  split
  · dsimp only
    split_ifs
    · exact Works.refl d.wm
    · exact launchApplicationById_works k { d with apps := (d.apps.textEditorOpenFile path).2 } _
  · exact launchApplicationById_works k d _
  · exact (showNotification_same _ _ _).works

theorem fileManagerOpenPath_works (k : AppKernel K) (d : Desktop K) (path : Text) :
    Works d.wm (d.fileManagerOpenPath k path).2.wm := by
  unfold fileManagerOpenPath
  split
  · exact Works.refl d.wm
  · dsimp only
    split_ifs
    · exact launchAssociatedFile_works k (d.selectFile path) path
    · exact Works.refl d.wm

theorem fileManagerHandleKey_works (k : AppKernel K) (d : Desktop K) (key : UInt32) :
    Works d.wm (d.fileManagerHandleKey k key).2.wm := by
  unfold fileManagerHandleKey
  -- the keys but the last work on the files alone
  split_ifs
  all_goals first
    | exact Works.refl d.wm
    | exact fileManagerOpenPath_works k d _

theorem dispatchKeyToFocusedApp_works (k : AppKernel K) (d : Desktop K) (key modifiers : UInt32) :
    Works d.wm (d.dispatchKeyToFocusedApp k key modifiers).2.wm := by
  unfold dispatchKeyToFocusedApp
  split
  · exact Works.refl d.wm
  · exact Works.refl d.wm
  · exact Works.refl d.wm
  · exact Works.refl d.wm
  · exact fileManagerHandleKey_works k d key
  · split_ifs
    · exact taskManagerKillFocusedApp_works k d
    · exact Works.refl d.wm
  · exact Works.refl d.wm

theorem clickContents_works (k : AppKernel K) (d : Desktop K) (window : Window) (x y : Int32) :
    Works d.wm (d.clickContents k window x y).wm := by
  unfold clickContents
  dsimp only
  split
  · split_ifs
    · split <;> exact Works.refl d.wm
    · exact Works.refl d.wm
  · split_ifs
    · exact Works.refl d.wm
    · exact fileManagerOpenPath_works k d _
  · exact taskManagerKillFocusedApp_works k d
  · exact Works.refl d.wm

theorem handleMouseClick_works (k : AppKernel K) (d : Desktop K) (x y : Int32) (button : UInt32) :
    Works d.wm (d.handleMouseClick k x y button).wm := by
  unfold handleMouseClick
  split_ifs
  · exact Works.refl d.wm
  split
  · exact launchApplicationById_works k d _
  split
  · exact restoreWindowFromTaskbar_works d _
  split
  · exact Works.refl d.wm
  · rename_i index _
    refine (Change.focus index).works.trans ?_
    dsimp only
    split
    · exact Works.refl _
    · rename_i focused _
      -- the window is in front now: what was hit before decides
      split
      · exact closeWindow_works k { d with wm := (d.wm.focusWindow index).2 } focused
      · exact minimizeWindow_works { d with wm := (d.wm.focusWindow index).2 } focused
      · exact toggleMaximizeWindow_works _ focused
      · split
        · exact Works.refl _
        · exact clickContents_works k { d with wm := (d.wm.focusWindow index).2 } _ x y

/-! ## Events -/

/-- Where an event puts the pointer, before anything else happens. -/
def point (d : Desktop K) (event : GuiEvent) : WindowManager :=
  match event.type with
  | .mouseMove | .mouseUp | .click => d.wm.setMouse event.x event.y
  | .mouseDown => { d.wm with leftButtonDown := event.button == 0 }.setMouse event.x event.y
  | .drag      => if d.dragged.isSome then d.wm.setMouse event.x event.y else d.wm
  | _          => d.wm

/-- What an event leaves of the button. -/
def release (event : GuiEvent) (wm : WindowManager) : WindowManager :=
  if event.type = .mouseUp then { wm with leftButtonDown := false } else wm

theorem dragTo_works (d : Desktop K) (index : Nat) (x y : Int32) :
    Works (d.wm.setMouse x y) (d.dragTo index x y).wm := by
  have hdragging : SameWindows (d.wm.setMouse x y) { d.wm.setMouse x y with dragging := true } :=
    ⟨rfl, rfl, rfl, rfl, rfl, rfl, rfl⟩
  exact hdragging.works.trans ((moveWindow_works _ index _ _).trans (updateHoverState_same _).works)

theorem raisePressed_works (wm : WindowManager) : Works wm (raisePressed wm) := by
  unfold raisePressed
  split
  · exact Works.refl wm
  · rename_i front _
    refine (Change.focus front).works.trans ?_
    dsimp only
    split_ifs
    · exact SameWindows.works ⟨rfl, rfl, rfl, rfl, rfl, rfl, rfl⟩
    · exact Works.refl _

theorem startDrag_same (wm : WindowManager) : SameWindows wm (startDrag wm) := by
  unfold startDrag
  split
  · exact SameWindows.refl wm
  · split_ifs <;> exact ⟨rfl, rfl, rfl, rfl, rfl, rfl, rfl⟩

theorem pressLeft_works (wm : WindowManager) : Works wm (pressLeft wm) := by
  have hpress : SameWindows wm (pressDown wm) := ⟨rfl, rfl, rfl, rfl, rfl, rfl, rfl⟩
  exact hpress.works.trans ((raisePressed_works _).trans (startDrag_same _).works)

theorem dropWindow_works (wm : WindowManager) : Works wm (dropWindow wm) := by
  unfold dropWindow
  split_ifs
  · split
    · exact snapWindow_works wm _ _
    · exact Works.refl wm
  · exact Works.refl wm

theorem releaseClick_works (k : AppKernel K) (d : Desktop K) (button : UInt32) :
    Works d.wm (d.releaseClick k button).wm := by
  unfold releaseClick
  dsimp only
  split_ifs
  · exact handleMouseClick_works k d _ _ _
  · exact Works.refl d.wm

/-- What is left of the drag when the button goes up. -/
def endDrag (wm : WindowManager) : WindowManager :=
  { wm with dragWindowIndex := none, mouseDownWindowIndex := none, dragging := false }

theorem mouseUp_works (k : AppKernel K) (d : Desktop K) (event : GuiEvent) (h : event.type = .mouseUp) :
    ∃ wm, Works (d.wm.setMouse event.x event.y) wm ∧ Works (release event wm) (d.mouseUp k event).wm := by
  have hclick := releaseClick_works k { d with wm := d.wm.setMouse event.x event.y } event.button
  generalize hd : ({ d with wm := d.wm.setMouse event.x event.y } : Desktop K).releaseClick k event.button = d₁ at hclick
  have hend : SameWindows (dropWindow d₁.wm) (endDrag (dropWindow d₁.wm)) := ⟨rfl, rfl, rfl, rfl, rfl, rfl, rfl⟩
  refine ⟨endDrag (dropWindow d₁.wm), hclick.trans ((dropWindow_works _).trans hend.works), ?_⟩
  have hmouseUp : (d.mouseUp k event).wm = (release event (endDrag (dropWindow d₁.wm))).updateHoverState := by
    unfold mouseUp release
    dsimp only
    rw [hd, if_pos h]
    rfl
  rw [hmouseUp]
  exact (updateHoverState_same _).works

theorem keyDown_works (k : AppKernel K) (d : Desktop K) (event : GuiEvent) : Works d.wm (d.keyDown k event).wm := by
  have hkey := dispatchKeyToFocusedApp_works k d event.key event.button
  unfold keyDown
  dsimp only
  split_ifs
  · exact hkey
  · exact hkey.trans (switchVirtualDesktop_works _ _)
  · exact hkey
  · exact hkey

/-- **Every event** puts the pointer somewhere, makes changes to the windows, may leave the button up, and makes
    changes again. -/
theorem dispatchEvent_works (k : AppKernel K) (d : Desktop K) (event : GuiEvent) :
    ∃ wm, Works (d.point event) wm ∧ Works (release event wm) (d.dispatchEvent k event).wm := by
  -- only a release changes the button afterwards
  have hrest : event.type ≠ .mouseUp → Works (d.point event) (d.dispatchEvent k event).wm →
      ∃ wm, Works (d.point event) wm ∧ Works (release event wm) (d.dispatchEvent k event).wm := by
    intro hne hworks
    refine ⟨_, hworks, ?_⟩
    unfold release
    rw [if_neg hne]
    exact Works.refl _
  unfold point dispatchEvent at *
  cases htype : event.type with
  | mouseUp => exact mouseUp_works k d event htype
  | mouseMove =>
      rw [htype] at hrest
      refine hrest (by decide) ?_
      dsimp only
      unfold mouseMove
      split
      · exact dragTo_works d _ _ _
      · exact (updateHoverState_same _).works
  | mouseDown =>
      rw [htype] at hrest
      refine hrest (by decide) ?_
      dsimp only
      unfold mouseDown
      dsimp only
      split_ifs
      · exact (pressLeft_works _).trans (updateHoverState_same _).works
      · exact (updateHoverState_same _).works
  | mouseWheel =>
      rw [htype] at hrest
      exact hrest (by decide) (updateHoverState_same _).works
  | click =>
      rw [htype] at hrest
      refine hrest (by decide) ?_
      exact (handleMouseClick_works k { d with wm := d.wm.setMouse event.x event.y } _ _ _).trans (updateHoverState_same _).works
  | drag =>
      rw [htype] at hrest
      refine hrest (by decide) ?_
      dsimp only
      cases d.dragged with
      | none => exact Works.refl d.wm
      | some index => exact dragTo_works d index _ _
  | resize =>
      rw [htype] at hrest
      refine hrest (by decide) ?_
      dsimp only
      cases d.wm.findTopWindowAt event.x event.y false with
      | none => exact Works.refl d.wm
      | some index => exact resizeWindow_works d.wm index _ _
  | doubleClick =>
      rw [htype] at hrest
      refine hrest (by decide) ?_
      dsimp only
      cases d.wm.findTopWindowAt event.x event.y true with
      | none => exact Works.refl d.wm
      | some index => exact toggleMaximizeWindow_works d.wm index
  | keyDown =>
      rw [htype] at hrest
      exact hrest (by decide) (keyDown_works k d event)
  | _ =>
      rw [htype] at hrest
      exact hrest (by decide) (Works.refl d.wm)

/-! ## Runs -/

theorem initWindowManager_works (k : AppKernel K) (d : Desktop K) :
    Works d.wm (d.initWindowManager k).2.wm := by
  unfold initWindowManager
  dsimp only
  set d₁ : Desktop K := { d with apps := d.apps.initApplicationRegistry } with hd₁
  have hfiles : Works d.wm (d₁.launchApplicationById k (some "files")).2.wm := launchApplicationById_works k d₁ _
  set launched := d₁.launchApplicationById k (some "files") with hlaunched
  have hterm : Works launched.2.wm
      (if launched.1 = true then launched.2.launchApplicationById k (some "term") else (false, launched.2)).2.wm := by
    split_ifs
    · exact launchApplicationById_works k launched.2 _
    · exact Works.refl _
  refine hfiles.trans (hterm.trans (Works.trans (SameWindows.works ?_) (focusTopVisibleWindow_works _)))
  exact ⟨rfl, rfl, rfl, rfl, rfl, rfl, rfl⟩

/-- What happens to the desktop: an event, a call that another part of the kernel makes, a command in the terminal,
    or one of the functions of the window manager by itself. -/
inductive Action
  | event (event : GuiEvent)
  | launch (appId : Option String)
  | heartbeat (app : AppKind)
  | watchdog
  | command (line : Text)
  | addWindow (title : Option String) (bounds : Rect) (color : UInt32) (app : AppKind) (desktop : UInt8)
      (processId threadId : UInt64)
  | moveWindow (index : Nat) (x y : Int32)
  | resizeWindow (index : Nat) (width height : UInt32)
  | snapWindow (index : Nat) (edge : SnapEdge)
  | toggleMaximizeWindow (index : Nat)

def step (k : AppKernel K) (d : Desktop K) : Action → Desktop K
  | .event event => d.dispatchEvent k event
  | .launch appId => (d.launchApplicationById k appId).2
  | .heartbeat app => d.appHeartbeat app
  | .watchdog => d.appWatchdogTick
  | .command line => { d with apps := (d.apps.executeTerminalCommand line).2 }
  | .addWindow title bounds color app desktop processId threadId =>
    { d with wm := (d.wm.addWindow title bounds color app desktop processId threadId).2 }
  | .moveWindow index x y => { d with wm := d.wm.moveWindow index x y }
  | .resizeWindow index width height => { d with wm := (d.wm.resizeWindow index width height).2 }
  | .snapWindow index edge => { d with wm := (d.wm.snapWindow index edge).2 }
  | .toggleMaximizeWindow index => { d with wm := d.wm.toggleMaximizeWindow index }

/-- The desktop after `InitWindowManager`. -/
def start (k : AppKernel K) (framebuffer : FramebufferInfo) (kernel : K) : Desktop K :=
  ((reset framebuffer kernel).initWindowManager k).2

/-- A property of the windows alone that every change keeps. -/
structure WindowInvariant (P : WindowManager → Prop) : Prop where
  only : ∀ {wm wm' : WindowManager}, P wm → wm'.framebuffer = wm.framebuffer → wm'.windows = wm.windows →
    wm'.activeDesktop = wm.activeDesktop → wm'.activeWindowIndex = wm.activeWindowIndex → P wm'
  change : ∀ {wm wm' : WindowManager}, Change wm wm' → P wm → P wm'

namespace WindowInvariant

variable {P : WindowManager → Prop}

theorem works (h : WindowInvariant P) {wm wm' : WindowManager} (hworks : Works wm wm') (hP : P wm) : P wm' :=
  hworks.keeps (fun _ _ hchange => h.change hchange) hP

theorem point (h : WindowInvariant P) (event : GuiEvent) (hP : P d.wm) : P (d.point event) := by
  unfold Desktop.point
  split
  · exact h.only hP rfl rfl rfl rfl
  · exact h.only hP rfl rfl rfl rfl
  · exact h.only hP rfl rfl rfl rfl
  · exact h.only hP rfl rfl rfl rfl
  · split_ifs
    · exact h.only hP rfl rfl rfl rfl
    · exact hP
  · exact hP

theorem dispatchEvent (h : WindowInvariant P) (event : GuiEvent) (hP : P d.wm) : P (d.dispatchEvent k event).wm := by
  obtain ⟨wm, hbefore, hafter⟩ := dispatchEvent_works k d event
  have hwm : P wm := h.works hbefore (h.point event hP)
  refine h.works hafter ?_
  unfold release
  split_ifs
  · exact h.only hwm rfl rfl rfl rfl
  · exact hwm

/-- One step keeps the property. -/
theorem step (h : WindowInvariant P) (action : Action) (hP : P d.wm) : P (d.step k action).wm := by
  cases action with
  | event event => exact h.dispatchEvent event hP
  | launch appId => exact h.works (launchApplicationById_works k d appId) hP
  | heartbeat app =>
      unfold Desktop.step
      rw [appHeartbeat_wm]
      exact hP
  | watchdog => exact h.works (appWatchdogTick_works d) hP
  | command line => exact hP
  | addWindow title bounds color app desktop processId threadId =>
      exact h.works (addWindow_works d.wm title bounds color app desktop processId threadId) hP
  | moveWindow index x y => exact h.works (moveWindow_works d.wm index x y) hP
  | resizeWindow index width height => exact h.works (resizeWindow_works d.wm index width height) hP
  | snapWindow index edge => exact h.works (snapWindow_works d.wm index edge) hP
  | toggleMaximizeWindow index => exact h.works (toggleMaximizeWindow_works d.wm index) hP

/-- A property that holds when there are no windows holds in every run. -/
theorem run (h : WindowInvariant P) {framebuffer : FramebufferInfo} {kernel : K}
    (hreset : P (reset framebuffer kernel).wm) (actions : List Action) :
    P (Lib.run (Desktop.step k) (Desktop.start k framebuffer kernel) actions).wm := by
  have hstart : P (Desktop.start k framebuffer kernel).wm := h.works (initWindowManager_works k _) hreset
  exact Lib.run_invariant (I := fun d : Desktop K => P d.wm) (fun d action hP => h.step action hP) hstart actions

end WindowInvariant

end Desktop
end Gui
end UefiBoot
