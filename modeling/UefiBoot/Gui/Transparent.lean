import UefiBoot.Gui.Placements
import UefiBoot.Gui.SelfTests

/-!
# `Gui.Transparent` — what the self-tests leave behind

A self-test is transparent if the windows, the runtimes and the remembered places are afterwards what they were before.
Each of the three writes back what it copied, and each forgets something: the first the focus, the order and the places,
the second the places, the third everything of the windows. `selfTests_transparent_iff` says in which states this does
no harm: where the desktop has been started there is none (`files_misplaced`).
-/

namespace UefiBoot
namespace Gui

open WindowManager (Settled Steady)

variable {K : Type} {k : AppKernel K} {d d' : Desktop K} {app : ApplicationDescriptor}

namespace Desktop

/-! ## Launching an application -/

/-- The window that launching an application adds, as the place where it is put. -/
def newWindow (k : AppKernel K) (d : Desktop K) (app : ApplicationDescriptor) : Option Rect :=
  match d.apps.findAppRuntime app.app with
  | none   => none
  | some i =>
    let state := (d.apps.runtimes i).state
    let count := (d.apps.runtimes i).launchCount
    if state = .running ∨ state = .minimized ∨ state = .notResponding then none
    else
      let (launched, processId, threadId) := (k.launch d.kernel app.id app.executablePath).1
      if launched = true ∧ d.wm.findWindowByApp app.app app.desktop = none ∧
          (launchWindow d.wm app count processId threadId).1 = true then
        some (clampWindowToUsableArea d.wm.framebuffer (d.wm.initialWindowBounds app count) app.app)
      else none

theorem restoreOrFocusRunningApp_steady (d : Desktop K) (app : ApplicationDescriptor) :
    Steady d.wm (d.restoreOrFocusRunningApp app).2.wm := by
  unfold restoreOrFocusRunningApp
  cases d.wm.findWindowByApp app.app app.desktop with
  | none => exact Steady.refl d.wm
  | some existing =>
      have hedit := WindowManager.setWindow_steady d.wm existing
        (f := fun window => { window with visible := true, minimized := false, maximized := false }) fun _ => ⟨rfl, rfl⟩
      have hboth := hedit.trans ((WindowManager.switchTo_steady _ app.desktop).trans
        (WindowManager.focusWindow_steady _ existing))
      dsimp only
      rw [changeState_wm]
      exact ⟨hboth.placements, hboth.windows⟩

theorem setThread_steady (wm : WindowManager) (app : ApplicationDescriptor) (threadId : UInt64) :
    Steady wm (setThread wm app threadId) := by
  unfold setThread
  cases wm.findWindowByApp app.app app.desktop with
  | none => exact Steady.refl wm
  | some index => exact WindowManager.setWindow_steady wm index fun _ => ⟨rfl, rfl⟩

theorem launchStarted_steady (d : Desktop K) (app : ApplicationDescriptor) (i : Fin kApplicationCapacity)
    (processId threadId : UInt64) : Steady d.wm (d.launchStarted app i processId threadId).wm := by
  have hrunning : Steady d.wm (d.markRunning app i processId threadId).wm :=
    (setThread_steady d.wm app threadId).trans (WindowManager.switchTo_steady _ app.desktop)
  have hrestore := hrunning.trans (restoreOrFocusRunningApp_steady _ app)
  exact ⟨hrestore.placements, hrestore.windows⟩

theorem launchEventLoop_steady (k : AppKernel K) (d : Desktop K) (app : ApplicationDescriptor)
    (i : Fin kApplicationCapacity) (processId : UInt64) : Steady d.wm (d.launchEventLoop k app i processId).2.wm := by
  unfold launchEventLoop
  dsimp only
  split_ifs
  · exact ⟨rfl, fun u hu => ⟨u, hu, rfl, rfl⟩⟩
  · exact launchStarted_steady { d with kernel := (k.start d.kernel processId app.id).2 } app i processId
      (k.start d.kernel processId app.id).1.2

/-- The window that an application is launched in, if it had one already or gets none. -/
theorem launchWindow_steady {wm : WindowManager} {count : UInt32} {processId threadId : UInt64}
    (h : wm.findWindowByApp app.app app.desktop = none → (launchWindow wm app count processId threadId).1 = false) :
    Steady wm (launchWindow wm app count processId threadId).2 := by
  unfold launchWindow at *
  cases hfind : wm.findWindowByApp app.app app.desktop with
  | some hidden => exact WindowManager.setWindow_steady wm hidden fun _ => ⟨rfl, rfl⟩
  | none =>
      have hrefused := h hfind
      rw [hfind] at hrefused
      dsimp only at hrefused ⊢
      unfold WindowManager.addWindow at hrefused ⊢
      split_ifs with hbad
      · exact Steady.refl wm
      · rw [if_neg hbad] at hrefused
        cases hrefused

theorem launchInWindow_steady (k : AppKernel K) (d : Desktop K) (app : ApplicationDescriptor)
    (i : Fin kApplicationCapacity) (processId threadId : UInt64) :
    Steady (launchWindow d.wm app (d.apps.runtimes i).launchCount processId threadId).2
      (d.launchInWindow k app i processId threadId).2.wm := by
  unfold launchInWindow
  dsimp only
  split_ifs
  · exact ⟨rfl, fun u hu => ⟨u, hu, rfl, rfl⟩⟩
  · exact launchEventLoop_steady k { d with wm := _ } app i processId

theorem launchProcess_steady (k : AppKernel K) (d : Desktop K) (app : ApplicationDescriptor)
    (i : Fin kApplicationCapacity) :
    let answer := (k.launch d.kernel app.id app.executablePath).1
    let opened := launchWindow d.wm app (d.apps.runtimes i).launchCount answer.2.1 answer.2.2
    Steady (if answer.1 = true then opened.2 else d.wm) (d.launchProcess k app i).2.wm := by
  unfold launchProcess
  dsimp only
  split_ifs with hlaunched hrefused hrefused
  · rw [hlaunched] at hrefused
    cases hrefused
  · exact launchInWindow_steady k { d with kernel := (k.launch d.kernel app.id app.executablePath).2 } app i _ _
  · exact ⟨rfl, fun u hu => ⟨u, hu, rfl, rfl⟩⟩
  · rw [Bool.eq_false_of_not_eq_true hlaunched] at hrefused
    exact absurd rfl hrefused

/-- `LaunchApplication` for an application that is not running, as far as the windows go. -/
theorem launchApplication_opening {i : Fin kApplicationCapacity} (hfind : d.apps.findAppRuntime app.app = some i)
    (hstate : ¬ ((d.apps.runtimes i).state = .running ∨ (d.apps.runtimes i).state = .minimized ∨
      (d.apps.runtimes i).state = .notResponding)) :
    let answer := (k.launch d.kernel app.id app.executablePath).1
    let opened := launchWindow d.wm app (d.apps.runtimes i).launchCount answer.2.1 answer.2.2
    Steady (if answer.1 = true then opened.2 else d.wm) (d.launchApplication k app).2.wm := by
  -- the entry is marked as opening first, and its count stays
  have hprocess := launchProcess_steady k (d.setRuntime i fun runtime =>
    { runtime with state := .opening, transitionTicks := kLaunchTransitionTicks }) app i
  have hcount : ((d.setRuntime i fun runtime =>
      { runtime with state := .opening, transitionTicks := kLaunchTransitionTicks }).apps.runtimes i).launchCount =
      (d.apps.runtimes i).launchCount := by
    show (Function.update d.apps.runtimes i _ i).launchCount = _
    rw [Function.update_self]
  rw [hcount] at hprocess
  unfold launchApplication
  rw [hfind]
  dsimp only
  rw [if_neg hstate]
  exact hprocess

/-- **A launch without a new window** leaves the places alone. -/
theorem launchApplication_steady (h : newWindow k d app = none) : Steady d.wm (d.launchApplication k app).2.wm := by
  unfold newWindow at h
  cases hfind : d.apps.findAppRuntime app.app with
  | none =>
      unfold launchApplication
      rw [hfind]
      exact ⟨rfl, fun u hu => ⟨u, hu, rfl, rfl⟩⟩
  | some i =>
      rw [hfind] at h
      dsimp only at h
      by_cases hstate : (d.apps.runtimes i).state = .running ∨ (d.apps.runtimes i).state = .minimized ∨
          (d.apps.runtimes i).state = .notResponding
      · unfold launchApplication
        rw [hfind]
        dsimp only
        rw [if_pos hstate]
        exact restoreOrFocusRunningApp_steady d app
      · have hopening := launchApplication_opening (k := k) hfind hstate
        rw [if_neg hstate] at h
        dsimp only at hopening
        split_ifs at hopening with hanswer
        · refine (launchWindow_steady fun hnone => ?_).trans hopening
          by_contra hadded
          rw [if_pos ⟨hanswer, hnone, Bool.eq_true_of_not_eq_false hadded⟩] at h
          cases h
        · exact hopening

/-- **A launch with a new window** remembers where that is put. -/
theorem launchApplication_added {bounds : Rect} (h : newWindow k d app = some bounds) :
    (d.launchApplication k app).2.wm.placements = (d.wm.rememberAppPlacement app.app bounds).placements := by
  unfold newWindow at h
  cases hfind : d.apps.findAppRuntime app.app with
  | none =>
      rw [hfind] at h
      cases h
  | some i =>
      rw [hfind] at h
      dsimp only at h
      by_cases hstate : (d.apps.runtimes i).state = .running ∨ (d.apps.runtimes i).state = .minimized ∨
          (d.apps.runtimes i).state = .notResponding
      · rw [if_pos hstate] at h
        cases h
      · have hopening := launchApplication_opening (k := k) hfind hstate
        rw [if_neg hstate] at h
        split_ifs at h with hnew
        obtain ⟨hanswer, hnone, hadded⟩ := hnew
        cases h
        rw [hopening.placements, if_pos hanswer]
        unfold launchWindow at hadded ⊢
        rw [hnone] at hadded ⊢
        dsimp only at hadded ⊢
        unfold WindowManager.addWindow at hadded ⊢
        split_ifs at hadded ⊢
        rfl

/-- An application that has its window gets no other. -/
theorem newWindow_of_window (h : (d.wm.findWindowByApp app.app app.desktop).isSome = true) : newWindow k d app = none := by
  unfold newWindow
  cases d.apps.findAppRuntime app.app with
  | none => rfl
  | some i =>
      dsimp only
      split_ifs with hstate hnew
      · rfl
      · rw [hnew.2.1] at h
        cases h
      · rfl

/-! ## The applications -/

/-- Launching the applications one after the other remembers no other places: the window that one gets is put where its
application was. -/
def PlacesSettled (k : AppKernel K) : List ApplicationDescriptor → Desktop K → Prop
  | [], _ => True
  | app :: apps, d =>
    (∀ bounds, newWindow k d app = some bounds → d.wm.Settled app.app bounds) ∧
      PlacesSettled k apps (d.launchApplication k app).2

/-- The entries of the other applications stay. -/
theorem launchApplication_other {j : Fin kMaxWindows} (hvalid : (d.wm.placements j).valid = true)
    (happ : (d.wm.placements j).app ≠ app.app) :
    (d.launchApplication k app).2.wm.placements j = d.wm.placements j := by
  cases hnew : newWindow k d app with
  | none => rw [(launchApplication_steady hnew).placements]
  | some bounds =>
      rw [launchApplication_added hnew]
      exact WindowManager.rememberAppPlacement_other hvalid happ

/-- The applications of a list, found by their ids. -/
def Listed (apps : List ApplicationDescriptor) : Prop := ∀ app ∈ apps, findApplicationById (some app.id) = some app

theorem launchApplicationById_listed (h : findApplicationById (some app.id) = some app) :
    d.launchApplicationById k (some app.id) = d.launchApplication k app := by
  unfold launchApplicationById
  rw [h]

variable {apps : List ApplicationDescriptor} {ok : Bool}

theorem launchAll_cons (hlisted : Listed (app :: apps)) :
    launchAll k (app :: apps) ok d =
      launchAll k apps ((d.launchApplication k app).1 && ok) (d.launchApplication k app).2 := by
  rw [← launchApplicationById_listed (hlisted app List.mem_cons_self)]
  rfl

theorem Listed.tail (h : Listed (app :: apps)) : Listed apps := fun a ha => h a (List.mem_cons_of_mem app ha)

theorem launchAll_other (hlisted : Listed apps) {j : Fin kMaxWindows} (hvalid : (d.wm.placements j).valid = true)
    (happ : ∀ app ∈ apps, (d.wm.placements j).app ≠ app.app) :
    (launchAll k apps ok d).2.wm.placements j = d.wm.placements j := by
  induction apps generalizing ok d with
  | nil => rfl
  | cons app apps ih =>
      have hfirst := launchApplication_other (k := k) hvalid (happ app List.mem_cons_self)
      rw [launchAll_cons hlisted, ih hlisted.tail (by rw [hfirst]; exact hvalid), hfirst]
      rw [hfirst]
      exact fun a ha => happ a (List.mem_cons_of_mem app ha)

theorem PlacesSettled.congr_placements (h : PlacesSettled k (app :: apps) d) :
    (d.launchApplication k app).2.wm.placements = d.wm.placements := by
  cases hnew : newWindow k d app with
  | none => exact (launchApplication_steady hnew).placements
  | some bounds => rw [launchApplication_added hnew, WindowManager.settled_iff.mpr (h.1 bounds hnew)]

/-- **The loop** leaves the places alone exactly if every window is put where its application was. -/
theorem launchAll_placements_iff (hlisted : Listed apps) (hnodup : (apps.map ApplicationDescriptor.app).Nodup) :
    (launchAll k apps ok d).2.wm.placements = d.wm.placements ↔ PlacesSettled k apps d := by
  induction apps generalizing ok d with
  | nil => exact iff_of_true rfl trivial
  | cons app apps ih =>
      rw [List.map_cons, List.nodup_cons] at hnodup
      rw [launchAll_cons hlisted]
      constructor
      · intro h
        -- an entry that the first launch changes is not changed back by the others
        have hsettled : ∀ bounds, newWindow k d app = some bounds → d.wm.Settled app.app bounds := by
          intro bounds hnew
          by_contra hmoved
          obtain ⟨j, hvalid, happ, hne⟩ := WindowManager.rememberAppPlacement_changed hmoved
          rw [← launchApplication_added hnew] at hvalid happ hne
          apply hne
          rw [← congrFun h j, launchAll_other hlisted.tail hvalid]
          intro a ha heq
          exact hnodup.1 (List.mem_map.mpr ⟨a, ha, heq.symm.trans happ⟩)
        have hfirst : (d.launchApplication k app).2.wm.placements = d.wm.placements := by
          cases hnew : newWindow k d app with
          | none => exact (launchApplication_steady hnew).placements
          | some bounds => rw [launchApplication_added hnew, WindowManager.settled_iff.mpr (hsettled bounds hnew)]
        exact ⟨hsettled, (ih hlisted.tail hnodup.2).mp (h.trans hfirst.symm)⟩
      · intro h
        rw [(ih hlisted.tail hnodup.2).mpr h.2, h.congr_placements]

theorem minimizeWindow_steady (d : Desktop K) (index : Nat) : Steady d.wm (d.minimizeWindow index).wm := by
  unfold minimizeWindow
  cases d.wm.windows[index]? with
  | none => exact Steady.refl d.wm
  | some window =>
      have hedit := WindowManager.setWindow_steady d.wm index
        (f := fun window => { window with minimized := true }) fun _ => ⟨rfl, rfl⟩
      dsimp only
      rw [changeState_wm]
      split_ifs
      · have hfocus := WindowManager.focusTopVisibleWindow_steady { d.wm.setWindow index fun window =>
          { window with minimized := true } with dragWindowIndex := none }
        exact hedit.trans ⟨hfocus.placements, hfocus.windows⟩
      · exact ⟨hedit.placements, hedit.windows⟩

theorem closeWindow_steady (k : AppKernel K) (d : Desktop K) (index : Nat) :
    Steady d.wm (d.closeWindow k index).wm := by
  unfold closeWindow
  cases d.wm.windows[index]? with
  | none => exact Steady.refl d.wm
  | some window =>
      have hedit := WindowManager.setWindow_steady (letGo d.wm index) index
        (f := fun window => { window with visible := false, focused := false }) fun _ => ⟨rfl, rfl⟩
      dsimp only
      rw [endApplication_wm, hideWindow_eq]
      dsimp only
      split_ifs
      · have hfocus := hedit.trans (WindowManager.focusTopVisibleWindow_steady _)
        exact ⟨hfocus.placements, hfocus.windows⟩
      · exact ⟨hedit.placements, hedit.windows⟩

theorem closeFound_steady (k : AppKernel K) (d : Desktop K) (app : ApplicationDescriptor) :
    Steady d.wm (d.closeFound k app).wm := by
  unfold closeFound
  cases d.wm.findWindowByApp app.app app.desktop with
  | none => exact Steady.refl d.wm
  | some closeIndex => exact closeWindow_steady k d closeIndex

theorem watchdogCheck_steady (d : Desktop K) (app : AppKind) : Steady d.wm (d.watchdogCheck app).2.wm := by
  unfold watchdogCheck
  cases d.apps.findAppRuntime app with
  | none => exact Steady.refl d.wm
  | some i =>
      dsimp only
      rw [appHeartbeat_wm]
      unfold appWatchdogTick
      dsimp only
      split_ifs
      · exact ⟨rfl, fun u hu => ⟨u, hu, rfl, rfl⟩⟩
      · exact Steady.refl d.wm

/-- An application that has its window is launched without another. -/
theorem launchApplicationById_steady (h : findApplicationById (some app.id) = some app)
    (hwindow : (d.wm.findWindowByApp app.app app.desktop).isSome = true) :
    Steady d.wm (d.launchApplicationById k (some app.id)).2.wm := by
  rw [launchApplicationById_listed h]
  exact launchApplication_steady (newWindow_of_window hwindow)

theorem restartCheck_steady (d : Desktop K) (h : findApplicationById (some app.id) = some app) :
    Steady d.wm (d.restartCheck k app).2.wm := by
  unfold restartCheck
  cases hfind : d.wm.findWindowByApp app.app app.desktop with
  | none => exact Steady.refl d.wm
  | some index =>
      have hwindow : (d.wm.findWindowByApp app.app app.desktop).isSome = true := by
        rw [hfind]
        rfl
      have hminimized := minimizeWindow_steady d index
      -- the window is still there, and so the application is launched in it
      have hrestored := hminimized.trans (launchApplicationById_steady (k := k) h (hminimized.findWindowByApp hwindow))
      dsimp only
      generalize ((d.minimizeWindow index).launchApplicationById k (some app.id)).2 = restored at hrestored ⊢
      have hclosed := hrestored.trans (closeFound_steady k restored app)
      have hrelaunched := hclosed.trans (launchApplicationById_steady (k := k) h (hclosed.findWindowByApp hwindow))
      exact hrelaunched.trans (watchdogCheck_steady _ app.app)

theorem listed_kApplications : Listed kApplications := by
  unfold Listed
  decide +kernel

/-- After the loop no window is added any more. -/
theorem tryApplications_placements (k : AppKernel K) (d : Desktop K) :
    (d.tryApplications k).2.wm.placements = (launchAll k kApplications true d).2.wm.placements := by
  unfold tryApplications
  dsimp only
  generalize (launchAll k kApplications true d).2 = launched
  have hmissing : (launched.launchApplicationById k (some "missing")).2.wm.placements = launched.wm.placements := by
    unfold launchApplicationById
    have hnone : findApplicationById (some "missing") = none := by decide +kernel
    rw [hnone]
    rfl
  generalize (launched.launchApplicationById k (some "missing")).2 = missing at hmissing ⊢
  cases hfind : findApplication .terminalEmulator with
  | none => exact hmissing
  | some terminal =>
      have hlisted := listed_kApplications terminal (List.mem_of_find?_eq_some hfind)
      exact (restartCheck_steady missing hlisted).placements.trans hmissing

/-! ## What has to be kept -/

/-- The windows, the runtimes and the places are the same. -/
structure SelfKept (d d' : Desktop K) : Prop where
  windows           : d'.wm.windows = d.wm.windows
  activeDesktop     : d'.wm.activeDesktop = d.wm.activeDesktop
  activeWindowIndex : d'.wm.activeWindowIndex = d.wm.activeWindowIndex
  runtimes          : d'.apps.runtimes = d.apps.runtimes
  placements        : d'.wm.placements = d.wm.placements

/-- **The applications** are tried out without a trace exactly if the places are settled. -/
theorem runApplicationsSelfTest_kept : SelfKept d (d.runApplicationsSelfTest k).2 ↔ PlacesSettled k kApplications d := by
  have hnodup : (kApplications.map ApplicationDescriptor.app).Nodup := by decide
  rw [← launchAll_placements_iff listed_kApplications hnodup, ← tryApplications_placements]
  constructor
  · intro h
    exact h.placements
  · intro h
    exact ⟨rfl, rfl, rfl, rfl, h⟩

end Desktop

/-! ## Switching there and back -/

namespace WindowManager

variable {wm : WindowManager} {first : Window} {rest : List Window}

/-- Shown on a desktop, if that is the active one. -/
def shownOn (desktop : UInt8) (window : Window) : Bool :=
  window.visible && !window.minimized && window.desktop == desktop

theorem map_unfocus_raised (wm : WindowManager) (i : Nat) :
    (wm.raised i).map unfocus = (Lib.toTop wm.windows i).map unfocus := by
  unfold raised
  rw [Lib.toTop_map]
  apply List.ext_getElem?
  intro j
  rw [List.getElem?_map, List.getElem?_modify, List.getElem?_map]
  cases (Lib.toTop wm.windows i)[j]? with
  | none => rfl
  | some w =>
      split_ifs
      · rfl
      · rfl

/-- But for the focus, the top window that is shown comes to the front. -/
theorem focusTopVisibleWindow_windows (wm : WindowManager) :
    wm.focusTopVisibleWindow.windows.map unfocus =
      (Lib.raiseTop (shownOn wm.activeDesktop) wm.windows).map unfocus := by
  unfold focusTopVisibleWindow Lib.raiseTop
  cases hfind : wm.findTopVisibleWindow with
  | some top =>
      obtain ⟨w, hw, hshown⟩ := findTopVisibleWindow_shown hfind
      have htop : Lib.topIdx (shownOn wm.activeDesktop) wm.windows = some top := hfind
      rw [htop]
      dsimp only [Option.elim_some]
      rw [focusWindow_eq hw hshown]
      exact map_unfocus_raised wm top
  | none =>
      have htop : Lib.topIdx (shownOn wm.activeDesktop) wm.windows = none := hfind
      rw [htop]
      show (wm.windows.map unfocus).map unfocus = wm.windows.map unfocus
      rw [List.map_map]
      rfl

theorem focusTopVisibleWindow_hidden (h : ∀ w ∈ wm.windows, shownOn wm.activeDesktop w = false) :
    wm.focusTopVisibleWindow = wm.clearWindowFocus := by
  unfold focusTopVisibleWindow
  cases hfind : wm.findTopVisibleWindow with
  | none => rfl
  | some top =>
      obtain ⟨w, hw, hshown⟩ := findTopVisibleWindow_shown hfind
      have hhidden := h w (List.mem_of_getElem? hw)
      rw [show shownOn wm.activeDesktop w = true from hshown] at hhidden
      cases hhidden

/-- No window has the focus exactly if none is shown. -/
theorem focusTopVisibleWindow_active :
    wm.focusTopVisibleWindow.activeWindowIndex = none ↔ ∀ w ∈ wm.windows, shownOn wm.activeDesktop w = false := by
  constructor
  · intro h
    unfold focusTopVisibleWindow at h
    cases hfind : wm.findTopVisibleWindow with
    | none => exact fun w hw => Lib.topIdx_eq_none hfind hw
    | some top =>
        obtain ⟨w, hw, hshown⟩ := findTopVisibleWindow_shown hfind
        rw [hfind] at h
        dsimp only at h
        rw [focusWindow_eq hw hshown] at h
        cases h
  · intro h
    rw [focusTopVisibleWindow_hidden h]
    rfl

/-- Being shown has nothing to do with the focus. -/
theorem shownOn_of_map {desktop : UInt8} {l l' : List Window} (h : l.map unfocus = l'.map unfocus) :
    (∀ w ∈ l, shownOn desktop w = false) ↔ ∀ w ∈ l', shownOn desktop w = false := by
  have hunfocus : ∀ l : List Window, (∀ w ∈ l, shownOn desktop w = false) ↔
      ∀ w ∈ l.map unfocus, shownOn desktop w = false := by
    intro l
    rw [List.forall_mem_map]
    exact Iff.rfl
  rw [hunfocus l, hunfocus l', h]

/-- The desktop after a switch to the second one and back. -/
def thereAndBack (wm : WindowManager) : WindowManager := ((wm.switchVirtualDesktop 1).2.switchVirtualDesktop 0).2

theorem switch_windows (wm : WindowManager) :
    (wm.switchVirtualDesktop 1).2.windows.map unfocus = (Lib.raiseTop (shownOn 1) wm.windows).map unfocus :=
  focusTopVisibleWindow_windows { wm with activeDesktop := 1, dragWindowIndex := none }

theorem thereAndBack_active :
    wm.thereAndBack.activeWindowIndex = none ↔ ∀ w ∈ wm.windows, shownOn 0 w = false := by
  have hback : wm.thereAndBack.activeWindowIndex = none ↔
      ∀ w ∈ (wm.switchVirtualDesktop 1).2.windows, shownOn 0 w = false := focusTopVisibleWindow_active
  rw [hback, shownOn_of_map (switch_windows wm)]
  exact forall_congr' fun w => by rw [Lib.mem_raiseTop]

theorem thereAndBack_windows (h : ∀ w ∈ wm.windows, shownOn 0 w = false) :
    wm.thereAndBack.windows = (Lib.raiseTop (shownOn 1) wm.windows).map unfocus := by
  have hhidden : ∀ w ∈ (wm.switchVirtualDesktop 1).2.windows, shownOn 0 w = false := by
    rw [shownOn_of_map (switch_windows wm)]
    intro w hw
    exact h w (Lib.mem_raiseTop.mp hw)
  have hback : wm.thereAndBack = clearWindowFocus _ := focusTopVisibleWindow_hidden hhidden
  rw [hback]
  exact switch_windows wm

theorem thereAndBack_steady (wm : WindowManager) : Steady wm wm.thereAndBack :=
  (switchVirtualDesktop_steady wm 1).trans (switchVirtualDesktop_steady _ 0)

/-! ## The desktop phase -/

/-- Two states of a window that differ in the place and the size. -/
structure Alike (window window' : Window) : Prop where
  app       : window'.app = window.app
  visible   : window'.visible = window.visible
  minimized : window'.minimized = window.minimized
  desktop   : window'.desktop = window.desktop

theorem Alike.shownOn {window window' : Window} (h : Alike window window') (desktop : UInt8) :
    WindowManager.shownOn desktop window' = WindowManager.shownOn desktop window := by
  unfold WindowManager.shownOn
  rw [h.visible, h.minimized, h.desktop]

/-- The screen is too small for `SnapWindow`. -/
def Unsnappable (framebuffer : FramebufferInfo) : Prop :=
  framebuffer.width = 0 ∨ framebuffer.height ≤ kTopBarHeight + kTaskBarHeight

instance (framebuffer : FramebufferInfo) : Decidable (Unsnappable framebuffer) := inferInstanceAs (Decidable (_ ∨ _))

/-- The bounds of a window resized by the desktop phase. -/
def resizedBounds (framebuffer : FramebufferInfo) (window : Window) : Rect :=
  clampWindowToUsableArea framebuffer { window.bounds with width := 300, height := 180 } window.app

/-- The bounds of a window of an application that is snapped to the left. -/
def snappedBounds (framebuffer : FramebufferInfo) (app : AppKind) : Rect :=
  let usable := usableDesktopRect framebuffer
  clampWindowToUsableArea framebuffer
    { x := usable.x, y := usable.y, width := usable.width / 2, height := usable.height } app

/-- Where the desktop phase puts a window last, if it moves it at all. -/
def phasePlace (framebuffer : FramebufferInfo) (window : Window) : Option Rect :=
  if ¬ Unsnappable framebuffer then some (snappedBounds framebuffer window.app)
  else if window.maximized then none
  else some (resizedBounds framebuffer window)

theorem setWindow_placements (wm : WindowManager) (index : Nat) (f : Window → Window) :
    (wm.setWindow index f).placements = wm.placements := rfl

theorem setWindow_first (hwindows : wm.windows = first :: rest) (f : Window → Window) :
    (wm.setWindow 0 f).windows = f first :: rest := by
  show wm.windows.modify 0 f = _
  rw [hwindows]
  rfl

theorem place_first (hwindows : wm.windows = first :: rest) (window : Window) (bounds : Rect) :
    let placed := clampWindowToUsableArea wm.framebuffer bounds window.app
    (wm.place 0 window bounds).windows = { first with bounds := placed } :: rest ∧
      (wm.place 0 window bounds).framebuffer = wm.framebuffer ∧
      (wm.place 0 window bounds).placements = (wm.rememberAppPlacement window.app placed).placements := by
  intro placed
  have hsame := rememberAppPlacement_same (wm.setWindow 0 fun w => { w with bounds := placed }) window.app placed
  exact ⟨hsame.windows.trans (setWindow_first hwindows _), hsame.framebuffer,
    rememberAppPlacement_congr (setWindow_placements wm 0 _) _ _⟩

theorem resizeWindow_first (hwindows : wm.windows = first :: rest) :
    ∃ first', Alike first first' ∧ (wm.resizeWindow 0 300 180).2.windows = first' :: rest ∧
      (wm.resizeWindow 0 300 180).2.framebuffer = wm.framebuffer ∧
      (wm.resizeWindow 0 300 180).2.placements =
        if first.maximized then wm.placements
        else (wm.rememberAppPlacement first.app (resizedBounds wm.framebuffer first)).placements := by
  have hfirst : wm.windows[0]? = some first := by
    rw [hwindows]
    rfl
  unfold resizeWindow
  rw [hfirst]
  dsimp only
  by_cases hmaximized : first.maximized = true
  · rw [if_pos hmaximized, if_pos hmaximized]
    exact ⟨first, ⟨rfl, rfl, rfl, rfl⟩, hwindows, rfl, rfl⟩
  · rw [if_neg hmaximized, if_neg hmaximized]
    exact ⟨{ first with bounds := resizedBounds wm.framebuffer first }, ⟨rfl, rfl, rfl, rfl⟩,
      place_first hwindows first { first.bounds with width := 300, height := 180 }⟩

theorem snapWindow_first (hwindows : wm.windows = first :: rest) :
    ∃ first', Alike first first' ∧ (wm.snapWindow 0 .left).2.windows = first' :: rest ∧
      (wm.snapWindow 0 .left).2.placements =
        if ¬ Unsnappable wm.framebuffer then
          (wm.rememberAppPlacement first.app (snappedBounds wm.framebuffer first.app)).placements
        else wm.placements := by
  have hfirst : wm.windows[0]? = some first := by
    rw [hwindows]
    rfl
  unfold snapWindow
  rw [hfirst]
  dsimp only
  by_cases hsmall : Unsnappable wm.framebuffer
  · rw [if_neg (not_not.mpr hsmall), if_pos (show wm.framebuffer.width = 0 ∨ _ from hsmall)]
    exact ⟨first, ⟨rfl, rfl, rfl, rfl⟩, hwindows, rfl⟩
  · rw [if_pos hsmall, if_neg (show ¬ (wm.framebuffer.width = 0 ∨ _) from hsmall)]
    have hedited := setWindow_first hwindows fun window =>
      { window with restoreBounds := window.bounds, maximized := SnapEdge.left == SnapEdge.top }
    obtain ⟨hplaced, -, hplacements⟩ := place_first hedited first
      { x := (usableDesktopRect wm.framebuffer).x
        y := (usableDesktopRect wm.framebuffer).y
        width := (usableDesktopRect wm.framebuffer).width / 2
        height := (usableDesktopRect wm.framebuffer).height }
    refine ⟨_, ?_, hplaced, hplacements.trans (rememberAppPlacement_congr (setWindow_placements wm 0 _) _ _)⟩
    exact ⟨rfl, rfl, rfl, rfl⟩

/-- The first window resized and snapped. -/
def firstMoved (wm : WindowManager) : WindowManager := ((wm.resizeWindow 0 300 180).2.snapWindow 0 .left).2

theorem firstMoved_first (hwindows : wm.windows = first :: rest) :
    ∃ first', Alike first first' ∧ wm.firstMoved.windows = first' :: rest ∧
      (wm.firstMoved.placements = wm.placements ↔
        ∀ bounds, phasePlace wm.framebuffer first = some bounds → wm.Settled first.app bounds) := by
  obtain ⟨resized, halike, hresized, hframebuffer, hplaces⟩ := resizeWindow_first hwindows
  obtain ⟨snapped, halike', hsnapped, hplaces'⟩ := snapWindow_first hresized
  refine ⟨snapped, ⟨halike'.app.trans halike.app, halike'.visible.trans halike.visible,
    halike'.minimized.trans halike.minimized, halike'.desktop.trans halike.desktop⟩, hsnapped, ?_⟩
  have hone : ∀ {place : Rect}, (∀ bounds, some place = some bounds → wm.Settled first.app bounds) ↔
      wm.Settled first.app place :=
    ⟨fun h => h _ rfl, fun h _ hb => Option.some.inj hb ▸ h⟩
  rw [hframebuffer, halike.app] at hplaces'
  unfold phasePlace firstMoved
  rw [hplaces']
  by_cases hsmall : Unsnappable wm.framebuffer
  · rw [if_neg (not_not.mpr hsmall), if_neg (not_not.mpr hsmall), hplaces]
    by_cases hmaximized : first.maximized = true
    · rw [if_pos hmaximized, if_pos hmaximized]
      exact iff_of_true rfl fun _ h => by cases h
    · rw [if_neg hmaximized, if_neg hmaximized, settled_iff, hone]
  · -- the place of the resized window is overwritten by that of the snapped one
    have hboth : ((wm.resizeWindow 0 300 180).2.rememberAppPlacement first.app
        (snappedBounds wm.framebuffer first.app)).placements =
        (wm.rememberAppPlacement first.app (snappedBounds wm.framebuffer first.app)).placements := by
      split_ifs at hplaces with hmaximized
      · exact rememberAppPlacement_congr hplaces _ _
      · exact (rememberAppPlacement_congr hplaces _ _).trans (rememberAppPlacement_twice _)
    rw [if_pos hsmall, if_pos hsmall, hboth, settled_iff, hone]

/-- The top window that is shown on a desktop is the top window of all, if there is one. -/
def TopShown (desktop : UInt8) (windows : List Window) : Prop :=
  ∀ w ∈ windows, shownOn desktop w = true → (windows[windows.length - 1]?).any (shownOn desktop) = true

theorem Alike.topShown {first' : Window} (h : Alike first first') (desktop : UInt8) :
    TopShown desktop (first' :: rest) ↔ TopShown desktop (first :: rest) := by
  unfold TopShown
  have hlast : ((first' :: rest)[(first' :: rest).length - 1]?).any (WindowManager.shownOn desktop) =
      ((first :: rest)[(first :: rest).length - 1]?).any (WindowManager.shownOn desktop) := by
    cases rest with
    | nil => exact h.shownOn desktop
    | cons w rest => rfl
  rw [hlast, List.forall_mem_cons, List.forall_mem_cons, h.shownOn]

theorem map_unfocus_eq_iff {l : List Window} : l.map unfocus = l ↔ ∀ w ∈ l, w.focused = false := by
  constructor
  · intro h w hw
    rw [← h] at hw
    obtain ⟨u, -, rfl⟩ := List.mem_map.mp hw
    rfl
  · intro h
    have hsame : ∀ w ∈ l, unfocus w = id w := by
      intro w hw
      unfold unfocus
      rw [← h w hw]
      rfl
    rw [List.map_congr_left hsame, List.map_id]

/-- **The order and the focus**: the windows below the first come back as they were exactly if none of them has the
focus and nothing is raised on the second desktop. -/
theorem phaseWindows_iff {first' : Window} (h : Alike first first') :
    ((Lib.raiseTop (shownOn 1) (first' :: rest)).map unfocus).modify 0 (fun _ => first) = first :: rest ↔
      (∀ w ∈ rest, w.focused = false) ∧ TopShown 1 (first :: rest) := by
  rw [← h.topShown 1]
  constructor
  · intro hkept
    have htop : TopShown 1 (first' :: rest) := by
      intro w hw hshown
      cases rest with
      | nil =>
          rw [List.mem_singleton.mp hw] at hshown
          exact hshown
      | cons second rest =>
          -- what is raised is on top afterwards, and so it was before
          have hraised := Lib.raiseTop_top hw hshown
          have hlast := congrArg (fun l : List Window => (l[(second :: rest).length]?).any (shownOn 1)) hkept
          rw [List.getElem?_modify_ne _ _ (by rw [List.length_cons]; omega), List.getElem?_map, Option.any_map] at hlast
          exact hlast.symm.trans hraised
    rw [Lib.raiseTop_eq htop, List.map_cons, List.modify_zero_cons] at hkept
    exact ⟨map_unfocus_eq_iff.mp (List.cons.inj hkept).2, htop⟩
  · rintro ⟨hfocus, htop⟩
    rw [Lib.raiseTop_eq htop, List.map_cons, List.modify_zero_cons, map_unfocus_eq_iff.mpr hfocus]

theorem runDesktopPhaseSelfTest_eq (cache : FontCache) (hwindows : wm.windows = first :: rest) :
    (runDesktopPhaseSelfTest cache wm).2.2 = wm.firstMoved.thereAndBack.setWindow 0 fun _ => first := by
  have hother : (((wm.resizeWindow 0 300 180).2.snapWindow 0 .left).2.switchVirtualDesktop 1).1 = true := rfl
  have hfirst : wm.windows[0]? = some first := by
    rw [hwindows]
    rfl
  unfold runDesktopPhaseSelfTest
  rw [hfirst]
  dsimp only
  rw [if_pos hother]
  split_ifs
  · rfl
  · rfl

end WindowManager

namespace Desktop

open WindowManager (shownOn TopShown phasePlace thereAndBack_active thereAndBack_windows)

variable {first : Window} {rest : List Window}

/-- **The desktop phase** leaves no trace of itself, where no window has the focus, exactly if the first desktop is the
active one and shows nothing, nothing is raised on the second, and the first window is put where its application was. -/
theorem runDesktopPhaseSelfTest_kept (cache : FontCache) (hwindows : d.wm.windows = first :: rest)
    (hidle : d.wm.activeWindowIndex = none) :
    SelfKept d { d with wm := (runDesktopPhaseSelfTest cache d.wm).2.2 } ↔
      d.wm.activeDesktop = 0 ∧ (∀ w ∈ d.wm.windows, shownOn 0 w = false) ∧
      ((∀ w ∈ rest, w.focused = false) ∧ TopShown 1 d.wm.windows) ∧
      ∀ bounds, phasePlace d.wm.framebuffer first = some bounds → d.wm.Settled first.app bounds := by
  obtain ⟨first', halike, hmoved, hplaces⟩ := WindowManager.firstMoved_first hwindows
  have hafter := WindowManager.runDesktopPhaseSelfTest_eq cache hwindows
  have hdesktop : (runDesktopPhaseSelfTest cache d.wm).2.2.activeDesktop = 0 := by
    rw [hafter]
    exact (WindowManager.focusTopVisibleWindow_rest _).2.1
  have hactive : (runDesktopPhaseSelfTest cache d.wm).2.2.activeWindowIndex = none ↔
      ∀ w ∈ d.wm.windows, shownOn 0 w = false := by
    rw [hafter]
    refine thereAndBack_active.trans ?_
    rw [hmoved, hwindows, List.forall_mem_cons, List.forall_mem_cons, halike.shownOn]
  have hplacements : (runDesktopPhaseSelfTest cache d.wm).2.2.placements = d.wm.firstMoved.placements := by
    rw [hafter]
    exact (WindowManager.thereAndBack_steady _).placements
  have horder : (∀ w ∈ d.wm.windows, shownOn 0 w = false) →
      ((runDesktopPhaseSelfTest cache d.wm).2.2.windows = d.wm.windows ↔
        (∀ w ∈ rest, w.focused = false) ∧ TopShown 1 d.wm.windows) := by
    intro hhidden
    have hhidden' : ∀ w ∈ d.wm.firstMoved.windows, shownOn 0 w = false := by
      rw [hwindows, List.forall_mem_cons] at hhidden
      rw [hmoved, List.forall_mem_cons, halike.shownOn]
      exact hhidden
    have hwritten : (runDesktopPhaseSelfTest cache d.wm).2.2.windows =
        d.wm.firstMoved.thereAndBack.windows.modify 0 fun _ => first := congrArg WindowManager.windows hafter
    rw [hwritten, thereAndBack_windows hhidden', hmoved, hwindows]
    exact WindowManager.phaseWindows_iff halike
  constructor
  · intro h
    have hhidden := hactive.mp (h.activeWindowIndex.trans hidle)
    exact ⟨h.activeDesktop.symm.trans hdesktop, hhidden, (horder hhidden).mp h.windows,
      hplaces.mp (hplacements.symm.trans h.placements)⟩
  · rintro ⟨hhome, hhidden, hrest, hsettled⟩
    exact ⟨(horder hhidden).mpr hrest, hdesktop.trans hhome.symm, (hactive.mpr hhidden).trans hidle.symm, rfl,
      hplacements.trans (hplaces.mpr hsettled)⟩

/-! ## Launching the editor -/

/-- The windows, the active desktop and the places are the same. -/
structure Stays (wm wm' : WindowManager) : Prop where
  windows       : wm'.windows = wm.windows
  activeDesktop : wm'.activeDesktop = wm.activeDesktop
  placements    : wm'.placements = wm.placements

/-- Launching an application of another desktop leaves the windows alone: it cannot be launched, or it runs without a
window, or the kernel gives up on it and its window was already as the launch leaves it. -/
def LaunchStays (k : AppKernel K) (d : Desktop K) (app : ApplicationDescriptor) : Prop :=
  match d.apps.findAppRuntime app.app with
  | none   => True
  | some i =>
    let state := (d.apps.runtimes i).state
    if state = .running ∨ state = .minimized ∨ state = .notResponding then
      d.wm.findWindowByApp app.app app.desktop = none
    else
      let ((launched, processId, threadId), kernel) := k.launch d.kernel app.id app.executablePath
      let opened := launchWindow d.wm app (d.apps.runtimes i).launchCount processId threadId
      launched = false ∨ opened.1 = false ∨
        (k.start kernel processId app.id).1.1 = false ∧ opened.2.windows = d.wm.windows

theorem switchTo_activeDesktop {wm : WindowManager} {desktop : UInt8} (h : desktop < kVirtualDesktopCount) :
    (wm.switchTo desktop).activeDesktop = desktop := by
  unfold WindowManager.switchTo WindowManager.switchVirtualDesktop
  split_ifs with hsame hlimit
  · exact absurd h (UInt8.not_lt.mpr hlimit)
  · exact (WindowManager.focusTopVisibleWindow_rest _).2.1
  · exact not_not.mp hsame

/-- An application that has a window takes the desktop with it. -/
theorem restoreOrFocusRunningApp_desktop {index : Nat} (hfind : d.wm.findWindowByApp app.app app.desktop = some index)
    (hdesktop : app.desktop < kVirtualDesktopCount) :
    (d.restoreOrFocusRunningApp app).2.wm.activeDesktop = app.desktop := by
  unfold restoreOrFocusRunningApp
  rw [hfind]
  exact (WindowManager.focusWindow_rest _ index).2.1.trans (switchTo_activeDesktop hdesktop)

theorem launchStarted_desktop (i : Fin kApplicationCapacity) (processId threadId : UInt64)
    (hdesktop : app.desktop < kVirtualDesktopCount) :
    (d.launchStarted app i processId threadId).wm.activeDesktop = app.desktop := by
  show ((d.markRunning app i processId threadId).restoreOrFocusRunningApp app).2.wm.activeDesktop = app.desktop
  cases hfind : (d.markRunning app i processId threadId).wm.findWindowByApp app.app app.desktop with
  | some index => exact restoreOrFocusRunningApp_desktop hfind hdesktop
  | none =>
      unfold restoreOrFocusRunningApp
      rw [hfind]
      exact switchTo_activeDesktop hdesktop

/-- A window that is refused changes nothing, and one that is opened is seen in the windows. -/
theorem launchWindow_stays (wm : WindowManager) (app : ApplicationDescriptor) (count : UInt32)
    (processId threadId : UInt64) :
    ((launchWindow wm app count processId threadId).1 = false → (launchWindow wm app count processId threadId).2 = wm) ∧
      (Stays wm (launchWindow wm app count processId threadId).2 ↔
        (launchWindow wm app count processId threadId).2.windows = wm.windows) := by
  unfold launchWindow
  cases wm.findWindowByApp app.app app.desktop with
  | some hidden =>
      refine ⟨fun h => ?_, fun h => h.windows, fun h => ⟨h, rfl, rfl⟩⟩
      cases h
  | none =>
      dsimp only
      unfold WindowManager.addWindow
      split_ifs
      · exact ⟨fun _ => rfl, fun h => h.windows, fun h => ⟨h, rfl, rfl⟩⟩
      · refine ⟨fun h => ?_, fun h => h.windows, fun h => ?_⟩
        · cases h
        · -- the list has grown
          have hlength := congrArg List.length h
          rw [List.length_append, List.length_singleton] at hlength
          omega

theorem launchProcess_stays_iff (i : Fin kApplicationCapacity) (hdesktop : app.desktop < kVirtualDesktopCount)
    (hother : app.desktop ≠ d.wm.activeDesktop) :
    let answer := k.launch d.kernel app.id app.executablePath
    let opened := launchWindow d.wm app (d.apps.runtimes i).launchCount answer.1.2.1 answer.1.2.2
    Stays d.wm (d.launchProcess k app i).2.wm ↔
      answer.1.1 = false ∨ opened.1 = false ∨
        (k.start answer.2 answer.1.2.1 app.id).1.1 = false ∧ opened.2.windows = d.wm.windows := by
  unfold launchProcess
  generalize k.launch d.kernel app.id app.executablePath = answer
  obtain ⟨⟨launched, processId, threadId⟩, kernel⟩ := answer
  cases launched with
  | false => exact iff_of_true ⟨rfl, rfl, rfl⟩ (.inl rfl)
  | true =>
      obtain ⟨hrefused, hopened⟩ := launchWindow_stays d.wm app (d.apps.runtimes i).launchCount processId threadId
      show Stays d.wm (launchInWindow k { d with kernel := kernel } app i processId threadId).2.wm ↔ _
      unfold launchInWindow
      dsimp only
      generalize launchWindow d.wm app (d.apps.runtimes i).launchCount processId threadId = opened at hrefused hopened ⊢
      obtain ⟨added, wm⟩ := opened
      cases added with
      | false =>
          rw [show wm = d.wm from hrefused rfl]
          exact iff_of_true ⟨rfl, rfl, rfl⟩ (.inr (.inl rfl))
      | true =>
          show Stays d.wm (launchEventLoop k ⟨wm, d.apps, kernel⟩ app i processId).2.wm ↔ _
          unfold launchEventLoop
          generalize k.start kernel processId app.id = running
          obtain ⟨⟨started, thread⟩, kernel'⟩ := running
          cases started with
          | false =>
              constructor
              · intro h
                exact .inr (.inr ⟨rfl, h.windows⟩)
              · rintro (h | h | ⟨-, h⟩)
                · cases h
                · cases h
                · have hstays := hopened.mpr h
                  exact ⟨hstays.windows, hstays.activeDesktop, hstays.placements⟩
          | true =>
              refine iff_of_false (fun h => hother ?_) ?_
              · exact (launchStarted_desktop i processId thread hdesktop).symm.trans h.activeDesktop
              · rintro (h | h | ⟨h, -⟩)
                · cases h
                · cases h
                · cases h

/-- **A launch on another desktop**: what it leaves alone. -/
theorem launchApplication_stays_iff (hdesktop : app.desktop < kVirtualDesktopCount)
    (hother : app.desktop ≠ d.wm.activeDesktop) :
    Stays d.wm (d.launchApplication k app).2.wm ↔ LaunchStays k d app := by
  unfold launchApplication LaunchStays
  cases hfind : d.apps.findAppRuntime app.app with
  | none => exact iff_of_true ⟨rfl, rfl, rfl⟩ trivial
  | some i =>
      dsimp only
      by_cases hstate : (d.apps.runtimes i).state = .running ∨ (d.apps.runtimes i).state = .minimized ∨
          (d.apps.runtimes i).state = .notResponding
      · rw [if_pos hstate, if_pos hstate]
        cases hwindow : d.wm.findWindowByApp app.app app.desktop with
        | none =>
            unfold restoreOrFocusRunningApp
            rw [hwindow]
            exact iff_of_true ⟨rfl, rfl, rfl⟩ rfl
        | some index =>
            refine iff_of_false (fun h => ?_) (Option.some_ne_none index)
            exact hother ((restoreOrFocusRunningApp_desktop hwindow hdesktop).symm.trans h.activeDesktop)
      · rw [if_neg hstate, if_neg hstate]
        -- the entry is marked as opening first, and its count stays
        have hprocess := launchProcess_stays_iff (k := k) (d := d.setRuntime i fun runtime =>
          { runtime with state := .opening, transitionTicks := kLaunchTransitionTicks }) i hdesktop hother
        have hcount : ((d.setRuntime i fun runtime =>
            { runtime with state := .opening, transitionTicks := kLaunchTransitionTicks }).apps.runtimes i).launchCount =
            (d.apps.runtimes i).launchCount := by
          show (Function.update d.apps.runtimes i _ i).launchCount = _
          rw [Function.update_self]
        rw [hcount] at hprocess
        exact hprocess

end Desktop

/-! ## The file with the notes -/

namespace Apps

variable {a a' a'' : Apps} {path : Text}

/-- The entry that a path leads to. -/
def fileAt (a : Apps) (path : Text) : Option NativeFileEntry := (a.findNativeFile path).map a.files

/-- The file that the test opens in the editor. -/
abbrev notes : Text := text "/tmp/notes.txt"

/-- The runtimes and the notes are the same. -/
structure KeepsNotes (a a' : Apps) : Prop where
  runtimes : a'.runtimes = a.runtimes
  notes    : a'.fileAt notes = a.fileAt notes

theorem KeepsNotes.trans (h : KeepsNotes a a') (h' : KeepsNotes a' a'') : KeepsNotes a a'' :=
  ⟨h'.runtimes.trans h.runtimes, h'.notes.trans h.notes⟩

/-- The entry of another path is stored. -/
theorem fileAt_setFile {i : Fin kNativeFileCapacity} {entry : NativeFileEntry}
    (hold : ¬ ((a.files i).active = true ∧ (a.files i).path = path)) (hnew : ¬ (entry.active = true ∧ entry.path = path)) :
    (a.setFile i entry).fileAt path = a.fileAt path := by
  have hmiss : ∀ e : NativeFileEntry, ¬ (e.active = true ∧ e.path = path) → (e.active && e.path == path) = false := by
    intro e he
    rw [Bool.eq_false_iff]
    intro htrue
    rw [Bool.and_eq_true, beq_iff_eq] at htrue
    exact he htrue
  have hfind : (a.setFile i entry).findNativeFile path = a.findNativeFile path := by
    unfold findNativeFile
    congr 1
    funext j
    show ((Function.update a.files i entry j).active && (Function.update a.files i entry j).path == path) = _
    by_cases hj : j = i
    · subst hj
      rw [Function.update_self, hmiss entry hnew, hmiss (a.files j) hold]
    · rw [Function.update_of_ne hj]
  unfold fileAt
  rw [hfind]
  cases hj : a.findNativeFile path with
  | none => rfl
  | some j =>
      have hentry := Lib.firstSlot_true hj
      rw [Bool.and_eq_true, beq_iff_eq] at hentry
      have hne : j ≠ i := by
        rintro rfl
        exact hold hentry
      show some (Function.update a.files i entry j) = some (a.files j)
      rw [Function.update_of_ne hne]

theorem nativeFileAdd_notes (directory : Bool) (content : Text) (h : copyText kPathLength path ≠ notes) :
    KeepsNotes a (a.nativeFileAdd path directory content).2 := by
  unfold nativeFileAdd
  split_ifs
  · exact ⟨rfl, rfl⟩
  · cases hfree : Lib.firstSlot fun i => !(a.files i).active with
    | none => exact ⟨rfl, rfl⟩
    | some i =>
        refine ⟨rfl, fileAt_setFile (fun hold => ?_) fun hnew => h hnew.2⟩
        have hinactive := Lib.firstSlot_true hfree
        rw [hold.1] at hinactive
        cases hinactive

theorem nativeFileRename_notes {source target : Text} (hsource : source ≠ notes)
    (htarget : copyText kPathLength target ≠ notes) : KeepsNotes a (a.nativeFileRename source target).2 := by
  unfold nativeFileRename
  cases hfind : a.findNativeFile source with
  | none => exact ⟨rfl, rfl⟩
  | some i =>
      have hentry := Lib.firstSlot_true hfind
      rw [Bool.and_eq_true, beq_iff_eq] at hentry
      dsimp only
      split_ifs
      · exact ⟨rfl, rfl⟩
      · exact ⟨rfl, fileAt_setFile (fun hold => hsource (hentry.2.symm.trans hold.2)) fun hnew => htarget hnew.2⟩

theorem nativeFileDelete_notes (h : path ≠ notes) : KeepsNotes a (a.nativeFileDelete path).2 := by
  unfold nativeFileDelete
  cases hfind : a.findNativeFile path with
  | none => exact ⟨rfl, rfl⟩
  | some i =>
      have hentry := Lib.firstSlot_true hfind
      rw [Bool.and_eq_true, beq_iff_eq] at hentry
      refine ⟨rfl, fileAt_setFile (fun hold => h (hentry.2.symm.trans hold.2)) fun hnew => ?_⟩
      cases hnew.1

theorem fileManagerBack_notes (a : Apps) : KeepsNotes a a.fileManagerBack.2 := by
  unfold fileManagerBack
  dsimp only
  split_ifs
  · exact ⟨rfl, rfl⟩
  · exact ⟨rfl, rfl⟩
  · exact ⟨rfl, rfl⟩

theorem fileManagerForward_notes (a : Apps) : KeepsNotes a a.fileManagerForward.2 := by
  unfold fileManagerForward
  dsimp only
  split_ifs
  · exact ⟨rfl, rfl⟩
  · exact ⟨rfl, rfl⟩

/-- The path of a folder that is created ends like its name, or it is too long for that. -/
theorem append_docs_ne (destination : Text) :
    copyText kPathLength (appendText destination kPathLength (text "docs")) ≠ notes := by
  intro h
  have hcapacity : kPathLength = 48 := rfl
  have hdocs : (text "docs").length = 4 := by decide
  have hnotes : notes.length = 14 := by decide
  have hlength := congrArg List.length h
  unfold copyText appendText at h hlength
  rw [List.length_take, List.length_append, List.length_take, hdocs, hnotes] at hlength
  by_cases hroom : destination.length ≤ 43
  · have hname : (text "docs").take (kPathLength - 1 - destination.length) = text "docs" :=
      List.take_of_length_le (by omega)
    have hwhole : (destination ++ text "docs").length ≤ kPathLength - 1 := by
      rw [List.length_append]
      omega
    have hs : (text "docs").getLast? = some 's'.toUInt8 := by decide
    rw [hname, List.take_of_length_le hwhole] at h
    have hlast := congrArg List.getLast? h
    rw [List.getLast?_append, hs, Option.some_or] at hlast
    exact absurd hlast (by decide)
  · omega

theorem KeepsNotes.error (h : KeepsNotes a a') (error : Text) : KeepsNotes a (a'.setFileManagerError error) :=
  ⟨h.runtimes, h.notes⟩

theorem fileManagerCreateFolder_notes (a : Apps) : KeepsNotes a (a.fileManagerCreateFolder (text "docs")).2 := by
  unfold fileManagerCreateFolder
  exact (nativeFileAdd_notes true [] (append_docs_ne _)).error _

theorem nativeFileAdd_fileManager (a : Apps) (path : Text) (directory : Bool) (content : Text) :
    (a.nativeFileAdd path directory content).2.fileManager = a.fileManager := by
  unfold nativeFileAdd
  split_ifs
  · rfl
  · cases Lib.firstSlot fun i => !(a.files i).active with
    | none => rfl
    | some i => rfl

theorem fileManagerCopySelected_notes {target : Text} (h : copyText kPathLength target ≠ notes) :
    KeepsNotes a (a.fileManagerCopySelected target).2 ∧
      (a.fileManagerCopySelected target).2.fileManager.selectedPath = a.fileManager.selectedPath := by
  unfold fileManagerCopySelected
  cases a.findNativeFile a.fileManager.selectedPath with
  | none => exact ⟨⟨rfl, rfl⟩, rfl⟩
  | some i =>
      refine ⟨(nativeFileAdd_notes _ _ h).error _, ?_⟩
      show (a.nativeFileAdd target (a.files i).directory (a.files i).content).2.fileManager.selectedPath = _
      rw [nativeFileAdd_fileManager]

/-- The file that is selected after a move is the one before or the one that it was moved to. -/
theorem fileManagerMoveSelected_notes {target : Text} (hsource : a.fileManager.selectedPath ≠ notes)
    (htarget : copyText kPathLength target ≠ notes) :
    KeepsNotes a (a.fileManagerMoveSelected target).2 ∧
      (a.fileManagerMoveSelected target).2.fileManager.selectedPath ≠ notes := by
  have hrename := nativeFileRename_notes (a := a) hsource htarget
  have hselected : (a.nativeFileRename a.fileManager.selectedPath target).2.fileManager = a.fileManager := by
    unfold nativeFileRename
    cases a.findNativeFile a.fileManager.selectedPath with
    | none => rfl
    | some i =>
        dsimp only
        split_ifs
        · rfl
        · rfl
  unfold fileManagerMoveSelected
  dsimp only
  generalize a.nativeFileRename a.fileManager.selectedPath target = renamed at hrename hselected ⊢
  obtain ⟨ok, a'⟩ := renamed
  cases ok with
  | true => exact ⟨⟨hrename.runtimes, hrename.notes⟩, htarget⟩
  | false =>
      refine ⟨hrename.error _, ?_⟩
      show a'.fileManager.selectedPath ≠ notes
      rw [hselected]
      exact hsource

theorem fileChecks_notes (a : Apps) : KeepsNotes a a.fileChecks.2 := by
  let selected : Apps := { a with fileManager := { a.fileManager with selectedPath := text "/tmp/readme" } }
  have hselect : KeepsNotes a selected := ⟨rfl, rfl⟩
  have hreadme : selected.fileManager.selectedPath ≠ notes := show text "/tmp/readme" ≠ notes by decide
  obtain ⟨hrename, hrenamed⟩ := fileManagerMoveSelected_notes hreadme
    (show copyText kPathLength (text "/tmp/readme-renamed") ≠ notes by decide)
  obtain ⟨hcopy, hcopied⟩ := fileManagerCopySelected_notes
    (a := (selected.fileManagerMoveSelected (text "/tmp/readme-renamed")).2)
    (show copyText kPathLength (text "/tmp/readme-copy") ≠ notes by decide)
  obtain ⟨hmove, -⟩ := fileManagerMoveSelected_notes (hcopied ▸ hrenamed)
    (show copyText kPathLength (text "/tmp/readme-moved") ≠ notes by decide)
  have hcopyPath : text "/tmp/readme-copy" ≠ notes := by decide
  exact hselect.trans (hrename.trans (hcopy.trans (hmove.trans (nativeFileDelete_notes hcopyPath))))

theorem textEditorOpenFile_found {i : Fin kNativeFileCapacity} (hfind : a.findNativeFile path = some i)
    (hfile : (a.files i).directory = false) :
    ∃ editor, a.textEditorOpenFile path = (true, { a with editor := editor }) := by
  unfold textEditorOpenFile
  rw [hfind]
  dsimp only
  rw [if_neg (by rw [hfile]; exact Bool.false_ne_true)]
  exact ⟨_, rfl⟩

end Apps

namespace Desktop

open Apps (notes KeepsNotes)
open WindowManager (shownOn TopShown phasePlace)

/-! ## The native applications -/

/-- Nothing has changed that the launch of an application reads, nor the notes. -/
structure Untouched (d d' : Desktop K) : Prop where
  wm     : ∃ text color, d'.wm = { d.wm with notificationText := text, notificationColor := color }
  kernel : d'.kernel = d.kernel
  apps   : KeepsNotes d.apps d'.apps

theorem Untouched.trans {d'' : Desktop K} (h : Untouched d d') (h' : Untouched d' d'') : Untouched d d'' := by
  obtain ⟨t, c, hwm⟩ := h.wm
  obtain ⟨t', c', hwm'⟩ := h'.wm
  refine ⟨⟨t', c', ?_⟩, h'.kernel.trans h.kernel, h.apps.trans h'.apps⟩
  rw [hwm', hwm]

theorem Untouched.stays_iff (h : Untouched d d') (wm : WindowManager) : Stays d'.wm wm ↔ Stays d.wm wm := by
  obtain ⟨t, c, hwm⟩ := h.wm
  rw [hwm]
  exact ⟨fun h => ⟨h.windows, h.activeDesktop, h.placements⟩, fun h => ⟨h.windows, h.activeDesktop, h.placements⟩⟩

theorem Untouched.stays (h : Untouched d d') : Stays d.wm d'.wm := (h.stays_iff d'.wm).mp ⟨rfl, rfl, rfl⟩

theorem inApps_untouched {handled : Bool × Apps} (h : KeepsNotes d.apps handled.2) :
    Untouched d (d.inApps handled).2 := ⟨⟨_, _, rfl⟩, rfl, h⟩

/-- A path that no application is associated with is shown or refused. -/
theorem fileManagerOpenPath_untouched {path : Text} (h : associatedAppForFile path = .fileManager) (d : Desktop K) :
    Untouched d (d.fileManagerOpenPath k path).2 := by
  unfold fileManagerOpenPath
  cases d.apps.findNativeFile path with
  | none => exact ⟨⟨_, _, rfl⟩, rfl, ⟨rfl, rfl⟩⟩
  | some i =>
      dsimp only
      split_ifs
      · unfold launchAssociatedFile
        rw [h]
        exact ⟨⟨_, _, rfl⟩, rfl, ⟨rfl, rfl⟩⟩
      · exact ⟨⟨_, _, rfl⟩, rfl, ⟨rfl, rfl⟩⟩

theorem folderChecks_untouched (k : AppKernel K) (d : Desktop K) : Untouched d (d.folderChecks k).2 := by
  have htmp : associatedAppForFile (text "/tmp") = .fileManager := by decide
  have hopen := fileManagerOpenPath_untouched (k := k) htmp d
  have hback := hopen.trans (inApps_untouched (Apps.fileManagerBack_notes _))
  have hforward := hback.trans (inApps_untouched (Apps.fileManagerForward_notes _))
  exact hforward.trans (inApps_untouched (Apps.fileManagerCreateFolder_notes _))

/-- The editor as an entry of the table. -/
abbrev editorApp : ApplicationDescriptor := application 1

/-- Opening the notes leaves the windows alone: there is no such file, or launching the editor does. -/
def EditorStays (k : AppKernel K) (d : Desktop K) : Prop :=
  ∀ entry, d.apps.fileAt notes = some entry → entry.directory = false → LaunchStays k d editorApp

theorem addWindow_notification (wm : WindowManager) (t : Option String) (c : UInt32) (title : Option String)
    (bounds : Rect) (color : UInt32) (app : AppKind) (desktop : UInt8) (processId threadId : UInt64) :
    let wm' := { wm with notificationText := t, notificationColor := c }
    (wm'.addWindow title bounds color app desktop processId threadId).1 =
        (wm.addWindow title bounds color app desktop processId threadId).1 ∧
      (wm'.addWindow title bounds color app desktop processId threadId).2.windows =
        (wm.addWindow title bounds color app desktop processId threadId).2.windows := by
  intro wm'
  have hcount : wm'.windowCount = wm.windowCount := rfl
  unfold WindowManager.addWindow
  rw [hcount]
  split_ifs
  · exact ⟨rfl, rfl⟩
  · exact ⟨rfl, rfl⟩

theorem LaunchStays.congr (h : Untouched d d') : LaunchStays k d' app ↔ LaunchStays k d app := by
  obtain ⟨t, c, hwm⟩ := h.wm
  have hfind : d'.apps.findAppRuntime app.app = d.apps.findAppRuntime app.app := by
    unfold Apps.findAppRuntime
    rw [h.apps.runtimes]
  -- the notification does not matter for the window
  have hwindow : ∀ count processId threadId,
      (launchWindow d'.wm app count processId threadId).1 = (launchWindow d.wm app count processId threadId).1 ∧
      (launchWindow d'.wm app count processId threadId).2.windows =
        (launchWindow d.wm app count processId threadId).2.windows := by
    intro count processId threadId
    rw [hwm]
    cases hfound : d.wm.findWindowByApp app.app app.desktop with
    | some hidden =>
        have hfound' : ({ d.wm with notificationText := t, notificationColor := c } : WindowManager).findWindowByApp
            app.app app.desktop = some hidden := hfound
        unfold launchWindow
        rw [hfound, hfound']
        exact ⟨rfl, rfl⟩
    | none =>
        have hfound' : ({ d.wm with notificationText := t, notificationColor := c } : WindowManager).findWindowByApp
            app.app app.desktop = none := hfound
        unfold launchWindow
        rw [hfound, hfound']
        exact addWindow_notification d.wm t c _ _ _ _ _ _ _
  unfold LaunchStays
  rw [hfind, h.apps.runtimes, h.kernel]
  cases d.apps.findAppRuntime app.app with
  | none => exact Iff.rfl
  | some i =>
      dsimp only
      rw [(hwindow _ _ _).1, (hwindow _ _ _).2, hwm]
      exact Iff.rfl

theorem EditorStays.congr (h : Untouched d d') : EditorStays k d' ↔ EditorStays k d := by
  unfold EditorStays
  rw [h.apps.notes, LaunchStays.congr h]

/-- **Opening the notes** launches the editor if there is such a file. -/
theorem openNotes_stays_iff (hhome : d.wm.activeDesktop = 0) :
    Stays d.wm (d.fileManagerOpenPath k notes).2.wm ↔ EditorStays k d := by
  unfold fileManagerOpenPath EditorStays Apps.fileAt
  cases hfind : d.apps.findNativeFile notes with
  | none => exact iff_of_true ⟨rfl, rfl, rfl⟩ fun _ h => by cases h
  | some i =>
      dsimp only [Option.map_some]
      cases hfolder : (d.apps.files i).directory with
      | true =>
          rw [if_neg (by decide)]
          refine iff_of_true ⟨rfl, rfl, rfl⟩ fun entry h hfile => ?_
          rw [← Option.some.inj h, hfolder] at hfile
          cases hfile
      | false =>
          have heditor : associatedAppForFile notes = .textEditor := by decide
          obtain ⟨editor, hedited⟩ := Apps.textEditorOpenFile_found (a := (d.selectFile notes).apps) hfind hfolder
          have hid : findApplicationById (some "edit") = some editorApp :=
            listed_kApplications editorApp (List.getElem_mem _)
          rw [if_pos (by decide)]
          unfold launchAssociatedFile
          rw [heditor]
          dsimp only
          rw [hedited]
          unfold launchApplicationById
          rw [hid]
          dsimp only
          rw [if_neg (by decide)]
          -- when the editor is launched it has the notes, and nothing else has changed
          generalize hopened : (Desktop.mk (d.selectFile notes).wm _ (d.selectFile notes).kernel : Desktop K) = opened
          have huntouched : Untouched d opened := by
            rw [← hopened]
            exact ⟨⟨_, _, rfl⟩, rfl, ⟨rfl, rfl⟩⟩
          have hother : editorApp.desktop ≠ opened.wm.activeDesktop := by
            rw [huntouched.stays.activeDesktop, hhome]
            decide
          rw [← huntouched.stays_iff, launchApplication_stays_iff (by decide) hother, LaunchStays.congr huntouched]
          constructor
          · intro h _ _ _
            exact h
          · intro h
            exact h _ rfl hfolder

theorem associationChecks_stays_iff (hhome : d.wm.activeDesktop = 0) :
    Stays d.wm (d.associationChecks k).2.wm ↔ EditorStays k d := by
  have hmissing : associatedAppForFile (text "/missing") = .fileManager := by decide
  have hlast := fileManagerOpenPath_untouched (k := k) hmissing (d.fileManagerOpenPath k notes).2
  rw [← openNotes_stays_iff hhome]
  have hafter := hlast.stays
  constructor
  · intro h
    exact ⟨hafter.windows.symm.trans h.windows, hafter.activeDesktop.symm.trans h.activeDesktop,
      hafter.placements.symm.trans h.placements⟩
  · intro h
    exact ⟨hafter.windows.trans h.windows, hafter.activeDesktop.trans h.activeDesktop,
      hafter.placements.trans h.placements⟩

/-- The native applications store to the windows only when the notes are opened, and to the active window. -/
theorem tryNativeApps_stays_iff (hhome : d.wm.activeDesktop = 0) :
    Stays d.wm (d.tryNativeApps k).2.wm ↔ EditorStays k d := by
  have hfolders := folderChecks_untouched k d
  have hfiles := hfolders.trans (inApps_untouched (Apps.fileChecks_notes _))
  have hhome' := hfiles.stays.activeDesktop.trans hhome
  rw [← EditorStays.congr hfiles, ← associationChecks_stays_iff hhome', hfiles.stays_iff]
  exact ⟨fun h => ⟨h.windows, h.activeDesktop, h.placements⟩, fun h => ⟨h.windows, h.activeDesktop, h.placements⟩⟩

/-- **The native applications** are tried out without a trace, where the first desktop is the active one, exactly if no
window has the focus and opening the notes leaves the windows alone. -/
theorem runNativeAppsUsabilitySelfTest_kept :
    SelfKept d (d.runNativeAppsUsabilitySelfTest k).2 ↔
      d.wm.activeWindowIndex = none ∧ Stays d.wm (d.tryNativeApps k).2.wm := by
  constructor
  · intro h
    exact ⟨h.activeWindowIndex.symm, h.windows, h.activeDesktop, h.placements⟩
  · rintro ⟨hidle, hwindows, hdesktop, hplacements⟩
    exact ⟨hwindows, hdesktop, hidle.symm, rfl, hplacements⟩

/-! ## All three -/

/-- A desktop that the self-tests do not disturb. -/
structure Undisturbed (k : AppKernel K) (d : Desktop K) : Prop where
  /-- No window is the active one. -/
  idle      : d.wm.activeWindowIndex = none
  /-- The first desktop is shown. -/
  home      : d.wm.activeDesktop = 0
  /-- It shows no window. -/
  hidden    : ∀ w ∈ d.wm.windows, shownOn 0 w = false
  /-- No window but the first has the focus. -/
  unfocused : ∀ w ∈ d.wm.windows.tail, w.focused = false
  /-- A window that the second desktop shows is the top one. -/
  order     : TopShown 1 d.wm.windows
  /-- The application of the first window was where the desktop phase puts that window. -/
  place     : ∀ first ∈ d.wm.windows.head?, ∀ bounds, phasePlace d.wm.framebuffer first = some bounds →
    d.wm.Settled first.app bounds
  /-- An application that gets a new window was where that is put. -/
  places    : PlacesSettled k kApplications d
  /-- Opening the notes launches no editor. -/
  editor    : EditorStays k d

/-- **The self-tests are transparent** exactly on a desktop that they do not disturb. -/
theorem selfTests_transparent_iff (k : AppKernel K) (cache : FontCache) (d : Desktop K) (hcount : 1 ≤ d.wm.windowCount) :
    SelfKept d { d with wm := (runDesktopPhaseSelfTest cache d.wm).2.2 } ∧ SelfKept d (d.runApplicationsSelfTest k).2 ∧
      SelfKept d (d.runNativeAppsUsabilitySelfTest k).2 ↔ Undisturbed k d := by
  obtain ⟨first, rest, hwindows⟩ : ∃ first rest, d.wm.windows = first :: rest :=
    List.exists_cons_of_length_pos hcount
  rw [runApplicationsSelfTest_kept, runNativeAppsUsabilitySelfTest_kept]
  constructor
  · rintro ⟨hphase, hplaces, hidle, hstays⟩
    obtain ⟨hhome, hhidden, ⟨hunfocused, horder⟩, hplace⟩ :=
      (runDesktopPhaseSelfTest_kept cache hwindows hidle).mp hphase
    refine ⟨hidle, hhome, hhidden, ?_, horder, ?_, hplaces, (tryNativeApps_stays_iff hhome).mp hstays⟩
    · rw [hwindows]
      exact hunfocused
    · rw [hwindows]
      intro w hw
      cases hw
      exact hplace
  · intro h
    refine ⟨(runDesktopPhaseSelfTest_kept cache hwindows h.idle).mpr ⟨h.home, h.hidden, ⟨?_, h.order⟩, ?_⟩, h.places,
      h.idle, (tryNativeApps_stays_iff h.home).mpr h.editor⟩
    · have hunfocused := h.unfocused
      rw [hwindows] at hunfocused
      exact hunfocused
    · refine h.place first ?_
      rw [hwindows]
      rfl

/-- Without a registry no application is launched, and so no place is remembered. -/
theorem placesSettled_of_unregistered (h : ∀ i, (d.apps.runtimes i).valid = false) (apps : List ApplicationDescriptor) :
    PlacesSettled k apps d := by
  induction apps generalizing d with
  | nil => trivial
  | cons app apps ih =>
      have hfind : d.apps.findAppRuntime app.app = none := by
        refine Lib.firstSlot_eq_none_iff.mpr fun i => ?_
        rw [h i]
        rfl
      constructor
      · intro bounds hnew
        unfold newWindow at hnew
        rw [hfind] at hnew
        cases hnew
      · apply ih
        unfold launchApplication
        rw [hfind]
        exact h

/-- A hidden window of the file manager, which was snapped to the left before. -/
def lonely : Desktop UInt64 :=
  { wm := { framebuffer := smallScreen, windows := [{}],
            placements := fun _ => ⟨.fileManager, WindowManager.snappedBounds smallScreen .fileManager, true⟩ }
    kernel := 0 }

theorem selfTests_transparent_lonely :
    SelfKept lonely { lonely with wm := (runDesktopPhaseSelfTest (fun _ => {}) lonely.wm).2.2 } ∧
      SelfKept lonely (lonely.runApplicationsSelfTest countingKernel).2 ∧
      SelfKept lonely (lonely.runNativeAppsUsabilitySelfTest countingKernel).2 := by
  refine (selfTests_transparent_iff countingKernel (fun _ => {}) lonely (by decide)).mpr
    ⟨rfl, rfl, by decide, by decide, ?_, ?_, placesSettled_of_unregistered (fun _ => rfl) _, ?_⟩
  · intro w hw hshown
    rw [List.mem_singleton.mp hw] at hshown
    exact absurd hshown (by decide)
  · intro first hfirst bounds hbounds
    cases hfirst
    have hplace : phasePlace smallScreen {} = some (WindowManager.snappedBounds smallScreen .fileManager) :=
      if_pos (by decide)
    have hfind : lonely.wm.findAppPlacement .fileManager = some 0 := by decide +kernel
    rw [← Option.some.inj (hplace.symm.trans hbounds)]
    show lonely.wm.Settled .fileManager _
    unfold WindowManager.Settled
    rw [hfind]
    rfl
  · intro entry hentry
    have hnone : lonely.apps.fileAt notes = none := by decide +kernel
    rw [hnone] at hentry
    cases hentry

/-- The desktop when the self-tests are called, on a screen of 1024 by 768 pixels. -/
def booted : Desktop UInt64 := ((reset smallScreen 0).initWindowManager countingKernel).2

/-- The file manager is remembered at the left half of the screen, and the terminal has lost the focus. -/
theorem files_misplaced :
    1 ≤ booted.wm.windowCount ∧
      ¬ SelfKept booted { booted with wm := (runDesktopPhaseSelfTest (fun _ => {}) booted.wm).2.2 } ∧
      ¬ SelfKept booted (booted.runNativeAppsUsabilitySelfTest countingKernel).2 := by
  refine ⟨by decide +kernel, fun h => ?_, fun h => ?_⟩
  · have hwidth := congrArg (fun placements => (placements 0).lastBounds.width) h.placements
    revert hwidth
    decide +kernel
  · have hactive : booted.wm.activeWindowIndex = none := h.activeWindowIndex.symm
    revert hactive
    decide +kernel

end Desktop
end Gui
end UefiBoot
