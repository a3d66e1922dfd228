import UefiBoot.Gui.Dispatch
import UefiBoot.Lib.Run
import UefiBoot.Lib.Zipper

/-!
# `Gui.History` — back and forward in the file manager

The file manager keeps two stacks of four paths beside the directory that it shows. They are the two sides of a
`Zipper`: opening a directory is a visit, and `FileManagerBack` and `FileManagerForward` travel. A visit empties the
one stack and keeps the other at four, so the stacks never hold more than four paths together, and the branches for a
full stack are not taken on the way back or forward.
-/

namespace UefiBoot
namespace Gui

namespace FileManagerState

/-- What the stacks hold, the last path first. -/
def history (m : FileManagerState) : Lib.Zipper Text :=
  { back := ((List.range m.backCount).map m.backStack).reverse
    current := m.currentPath
    forward := ((List.range m.forwardCount).map m.forwardStack).reverse }

/-- The same directory, and the same paths on both stacks. -/
structure SameHistory (m m' : FileManagerState) : Prop where
  current : m.currentPath = m'.currentPath
  back    : m.backCount = m'.backCount ∧ ∀ i < m.backCount, m.backStack i = m'.backStack i
  forward : m.forwardCount = m'.forwardCount ∧ ∀ i < m.forwardCount, m.forwardStack i = m'.forwardStack i

/-- The stacks have room, and every path on them is whole. -/
structure Fits (m : FileManagerState) : Prop where
  size  : m.backCount + m.forwardCount ≤ 4
  short : ∀ path ∈ m.history.places, path.length < kPathLength

end FileManagerState

/-- A successful `FileManagerBack` is taken back by `FileManagerForward`, and the other way round. -/
structure Apps.Returns (a : Apps) : Prop where
  back    : a.fileManagerBack.1 = true → a.fileManagerBack.2.fileManagerForward.1 = true ∧
    a.fileManagerBack.2.fileManagerForward.2.fileManager.SameHistory a.fileManager
  forward : a.fileManagerForward.1 = true → a.fileManagerForward.2.fileManagerBack.1 = true ∧
    a.fileManagerForward.2.fileManagerBack.2.fileManager.SameHistory a.fileManager

/-- The calls that move through the history. -/
inductive HistoryCall where
  | openPath (path : Text)
  | back
  | forward

/-- A call, on a desktop whose applications run in a kernel. -/
def Desktop.historyCall {K : Type} (k : AppKernel K) (d : Desktop K) : HistoryCall → Desktop K
  | .openPath path => (d.fileManagerOpenPath k path).2
  | .back          => (d.inApps d.apps.fileManagerBack).2
  | .forward       => (d.inApps d.apps.fileManagerForward).2

namespace FileManagerState

variable {m m' : FileManagerState}

/-! ## Stacks -/

theorem map_range_reverse (stack : Nat → Text) (count : Nat) :
    ((List.range (count + 1)).map stack).reverse = stack count :: ((List.range count).map stack).reverse := by
  rw [List.range_succ, List.map_append, List.reverse_append]
  rfl

/-- A path pushed on a stack. -/
theorem map_range_push (stack : Nat → Text) (count : Nat) (path : Text) :
    ((List.range (count + 1)).map fun i => if i = count then path else stack i).reverse =
      path :: ((List.range count).map stack).reverse := by
  rw [map_range_reverse, if_pos rfl]
  congr 2
  apply List.map_congr_left
  intro i hi
  rw [if_neg (by have := List.mem_range.mp hi; omega)]

theorem same_of_map_range {stack stack' : Nat → Text} {count count' : Nat}
    (h : ((List.range count).map stack).reverse = ((List.range count').map stack').reverse) :
    count = count' ∧ ∀ i < count, stack i = stack' i := by
  have hlists := List.reverse_injective h
  have hcount : count = count' := by simpa using congrArg List.length hlists
  subst hcount
  refine ⟨rfl, fun i hi => ?_⟩
  exact List.map_inj_left.mp hlists i (List.mem_range.mpr hi)

theorem same_of_history (h : m.history = m'.history) : SameHistory m m' := by
  unfold history at h
  injection h with hback hcurrent hforward
  exact ⟨hcurrent, same_of_map_range hback, same_of_map_range hforward⟩

theorem length_back (m : FileManagerState) : m.history.back.length = m.backCount := by
  unfold history
  simp

theorem length_forward (m : FileManagerState) : m.history.forward.length = m.forwardCount := by
  unfold history
  simp

theorem Fits.of_places (h : Fits m) (hplaces : m'.history.places = m.history.places) : Fits m' := by
  have hlen := congrArg List.length hplaces
  have hsize := h.size
  rw [Lib.Zipper.length_places, Lib.Zipper.length_places, length_back, length_back, length_forward,
    length_forward] at hlen
  refine ⟨by omega, ?_⟩
  rw [hplaces]
  exact h.short

theorem Fits.copyText_place (h : Fits m) {path : Text} (hmem : path ∈ m.history.places) : copyText kPathLength path = path :=
  List.take_of_length_le (by have := h.short path hmem; omega)

/-! ## One call -/

/-- A push on a stack with room. -/
theorem pushBack_room (h : m.backCount < 4) (path : Text) :
    Apps.fileManagerPushBack m path =
      { m with
        backStack := fun i => if i = m.backCount then copyText kPathLength path else m.backStack i
        backCount := m.backCount + 1 } := by
  unfold Apps.fileManagerPushBack
  rw [if_neg (by omega)]

/-- A push on a full stack shifts the oldest path out. -/
theorem pushBack_full (h : m.backCount = 4) (path : Text) :
    Apps.fileManagerPushBack m path =
      { m with
        backStack := fun i => if i = 3 then copyText kPathLength path
          else if i < 3 then m.backStack (i + 1) else m.backStack i
        backCount := 4 } := by
  unfold Apps.fileManagerPushBack
  rw [if_pos (by omega)]

/-- `FileManagerPushBack` keeps the last four paths. -/
theorem history_pushBack (hcount : m.backCount ≤ 4) {path : Text} (hpath : copyText kPathLength path = path) :
    (Apps.fileManagerPushBack m path).history =
      { m.history with back := (path :: m.history.back).take 4 } := by
  rcases Nat.lt_or_eq_of_le hcount with hroom | hfull
  · have hlen := length_back m
    rw [pushBack_room hroom, hpath, List.take_of_length_le (by rw [List.length_cons]; omega)]
    unfold history
    dsimp only
    rw [map_range_push]
  · rw [pushBack_full hfull, hpath]
    unfold history
    rw [hfull]
    rfl

theorem mem_current (m : FileManagerState) : m.currentPath ∈ m.history.places :=
  List.mem_append_right _ List.mem_cons_self

theorem mem_back {i : Nat} (hi : i < m.backCount) : m.backStack i ∈ m.history.places := by
  apply List.mem_append_left
  unfold history
  rw [List.reverse_reverse]
  exact List.mem_map_of_mem (List.mem_range.mpr hi)

theorem mem_forward {i : Nat} (hi : i < m.forwardCount) : m.forwardStack i ∈ m.history.places := by
  apply List.mem_append_right
  unfold history
  exact List.mem_cons_of_mem _ (List.mem_reverse.mpr (List.mem_map_of_mem (List.mem_range.mpr hi)))

/-- `FileManagerBack` goes back. -/
theorem back_cases {a : Apps} (h : Fits a.fileManager) :
    a.fileManagerBack = (false, a) ∧ a.fileManager.history.goBack = none ∨
    a.fileManagerBack.1 = true ∧
      a.fileManager.history.goBack = some a.fileManagerBack.2.fileManager.history := by
  unfold Apps.fileManagerBack
  have hsize := h.size
  have hcurrent := h.copyText_place (mem_current a.fileManager)
  generalize a.fileManager = m at h hsize hcurrent ⊢
  cases hcount : m.backCount with
  | zero =>
      left
      refine ⟨if_pos hcount, ?_⟩
      unfold history
      rw [hcount]
      rfl
  | succ n =>
      right
      have hback := h.copyText_place (mem_back (m := m) (i := n) (by omega))
      rw [if_neg (by omega), if_pos (by omega)]
      refine ⟨rfl, Lib.Zipper.goBack_eq_some.mpr ⟨?_, ?_⟩⟩
      · unfold history
        dsimp only
        rw [hcount, map_range_reverse, Nat.add_sub_cancel, hback]
      · unfold history
        dsimp only
        rw [hcurrent, map_range_push]

/-- `FileManagerForward` goes forward. -/
theorem forward_cases {a : Apps} (h : Fits a.fileManager) :
    a.fileManagerForward = (false, a) ∧ a.fileManager.history.goForward = none ∨
    a.fileManagerForward.1 = true ∧
      a.fileManager.history.goForward = some a.fileManagerForward.2.fileManager.history := by
  unfold Apps.fileManagerForward
  have hsize := h.size
  have hcurrent := h.copyText_place (mem_current a.fileManager)
  generalize a.fileManager = m at h hsize hcurrent ⊢
  cases hcount : m.forwardCount with
  | zero =>
      left
      refine ⟨if_pos hcount, ?_⟩
      unfold history
      rw [hcount]
      rfl
  | succ n =>
      right
      have hforward := h.copyText_place (mem_forward (m := m) (i := n) (by omega))
      -- a stack ahead leaves room on the one behind
      rw [if_neg (by omega), pushBack_room (by omega)]
      refine ⟨rfl, Lib.Zipper.goForward_eq_some.mpr ⟨?_, ?_⟩⟩
      · unfold history
        dsimp only
        rw [hcount, map_range_reverse, Nat.add_sub_cancel, hforward]
      · unfold history
        dsimp only
        rw [hcurrent, map_range_push]

theorem Fits.back {a : Apps} (h : Fits a.fileManager) : Fits a.fileManagerBack.2.fileManager := by
  rcases back_cases h with ⟨hnone, -⟩ | ⟨-, hgo⟩
  · rw [hnone]
    exact h
  · exact h.of_places (Lib.Zipper.places_goBack hgo)

theorem Fits.forward {a : Apps} (h : Fits a.fileManager) : Fits a.fileManagerForward.2.fileManager := by
  rcases forward_cases h with ⟨hnone, -⟩ | ⟨-, hgo⟩
  · rw [hnone]
    exact h
  · exact h.of_places (Lib.Zipper.places_goForward hgo)

/-- What was undone is done again. -/
theorem Fits.returns {a : Apps} (h : Fits a.fileManager) : a.Returns := by
  refine ⟨fun hok => ?_, fun hok => ?_⟩
  · rcases back_cases h with ⟨hnone, -⟩ | ⟨-, hgo⟩
    · rw [hnone] at hok
      exact absurd hok Bool.false_ne_true
    · have hreturn := Lib.Zipper.goForward_of_goBack hgo
      rcases forward_cases h.back with ⟨-, hnone⟩ | ⟨hforward, hsame⟩
      · rw [hreturn] at hnone
        cases hnone
      · rw [hreturn] at hsame
        exact ⟨hforward, same_of_history (Option.some.inj hsame).symm⟩
  · rcases forward_cases h with ⟨hnone, -⟩ | ⟨-, hgo⟩
    · rw [hnone] at hok
      exact absurd hok Bool.false_ne_true
    · have hreturn := Lib.Zipper.goBack_of_goForward hgo
      rcases back_cases h.forward with ⟨-, hnone⟩ | ⟨hback, hsame⟩
      · rw [hreturn] at hnone
        cases hnone
      · rw [hreturn] at hsame
        exact ⟨hback, same_of_history (Option.some.inj hsame).symm⟩

end FileManagerState

/-! ## Launching an application -/

namespace Desktop

variable {K : Type}

/-- Of the applications only the runtimes have changed. -/
def OnlyRuntimes (d d' : Desktop K) : Prop := d'.apps = { d.apps with runtimes := d'.apps.runtimes }

theorem OnlyRuntimes.refl (d : Desktop K) : OnlyRuntimes d d := rfl

theorem OnlyRuntimes.trans {d d' d'' : Desktop K} (h : OnlyRuntimes d d') (h' : OnlyRuntimes d' d'') :
    OnlyRuntimes d d'' := by
  unfold OnlyRuntimes at *
  rw [h', h]

theorem changeState_only (d : Desktop K) (app : AppKind) (source target : AppLifecycleState) :
    OnlyRuntimes d (d.changeState app source target) := by
  unfold changeState
  cases d.apps.findAppRuntime app with
  | none => rfl
  | some i =>
      dsimp only
      split_ifs
      · rfl
      · rfl

theorem restoreOrFocusRunningApp_only (d : Desktop K) (app : ApplicationDescriptor) :
    OnlyRuntimes d (d.restoreOrFocusRunningApp app).2 := by
  unfold restoreOrFocusRunningApp
  cases d.wm.findWindowByApp app.app app.desktop with
  | none => rfl
  | some existing => exact changeState_only { d with wm := _ } app.app .minimized .running

theorem launchEventLoop_only (k : AppKernel K) (d : Desktop K) (app : ApplicationDescriptor)
    (i : Fin kApplicationCapacity) (processId : UInt64) :
    OnlyRuntimes d (d.launchEventLoop k app i processId).2 := by
  unfold launchEventLoop
  dsimp only
  split_ifs
  · rfl
  · exact restoreOrFocusRunningApp_only (markRunning _ app i processId _) app

theorem launchInWindow_only (k : AppKernel K) (d : Desktop K) (app : ApplicationDescriptor)
    (i : Fin kApplicationCapacity) (processId threadId : UInt64) :
    OnlyRuntimes d (d.launchInWindow k app i processId threadId).2 := by
  unfold launchInWindow
  dsimp only
  split_ifs
  · rfl
  · exact launchEventLoop_only k { d with wm := _ } app i processId

theorem launchProcess_only (k : AppKernel K) (d : Desktop K) (app : ApplicationDescriptor)
    (i : Fin kApplicationCapacity) : OnlyRuntimes d (d.launchProcess k app i).2 := by
  unfold launchProcess
  dsimp only
  split_ifs
  · rfl
  · exact launchInWindow_only k { d with kernel := _ } app i _ _

theorem launchApplication_only (k : AppKernel K) (d : Desktop K) (app : ApplicationDescriptor) :
    OnlyRuntimes d (d.launchApplication k app).2 := by
  unfold launchApplication
  cases d.apps.findAppRuntime app.app with
  | none => rfl
  | some i =>
      dsimp only
      split_ifs
      · exact restoreOrFocusRunningApp_only d app
      · exact launchProcess_only k (d.setRuntime i _) app i

theorem launchApplicationById_only (k : AppKernel K) (d : Desktop K) (appId : Option String) :
    OnlyRuntimes d (d.launchApplicationById k appId).2 := by
  unfold launchApplicationById
  cases findApplicationById appId with
  | none => rfl
  | some app => exact launchApplication_only k d app

/-- A file that is opened in its application. -/
theorem launchAssociatedFile_fileManager (k : AppKernel K) (d : Desktop K) (path : Text) :
    (d.launchAssociatedFile k path).2.apps.fileManager = d.apps.fileManager := by
  unfold launchAssociatedFile
  cases associatedAppForFile path with
  | textEditor =>
      have heditor : (d.apps.textEditorOpenFile path).2.fileManager = d.apps.fileManager := by
        unfold Apps.textEditorOpenFile
        cases d.apps.findNativeFile path with
        | none => rfl
        | some i =>
            dsimp only
            split_ifs
            · rfl
            · rfl
      dsimp only
      split_ifs
      · exact heditor
      · have honly := launchApplicationById_only k { d with apps := (d.apps.textEditorOpenFile path).2 } (some "edit")
        rw [honly]
        exact heditor
  | imageViewer =>
      have honly := launchApplicationById_only k d (some "image")
      dsimp only
      rw [honly]
  | _ => rfl

/-- Opening a path is a visit if it is a directory, and leaves the history alone otherwise. -/
theorem fileManagerOpenPath_history (k : AppKernel K) {d : Desktop K} (h : d.apps.fileManager.Fits) (path : Text) :
    (d.fileManagerOpenPath k path).2.apps.fileManager.history = d.apps.fileManager.history ∨
    (d.fileManagerOpenPath k path).2.apps.fileManager.history =
      d.apps.fileManager.history.visit 4 (copyText kPathLength path) := by
  unfold fileManagerOpenPath
  cases d.apps.findNativeFile path with
  | none => exact Or.inl rfl
  | some i =>
      dsimp only
      split_ifs
      · left
        rw [launchAssociatedFile_fileManager]
        rfl
      · right
        have hsize := h.size
        have hpush := FileManagerState.history_pushBack (m := d.apps.fileManager) (by omega)
          (h.copyText_place (FileManagerState.mem_current d.apps.fileManager))
        unfold FileManagerState.history at hpush ⊢
        injection hpush with hback
        unfold Lib.Zipper.visit
        dsimp only
        rw [hback]
        rfl

/-! ## Every run -/

/-- **Step lemma.** -/
theorem fits_historyCall (k : AppKernel K) {d : Desktop K} (h : d.apps.fileManager.Fits) (c : HistoryCall) :
    (d.historyCall k c).apps.fileManager.Fits := by
  cases c with
  | openPath path =>
      rcases fileManagerOpenPath_history k h path with hsame | hvisit
      · exact h.of_places (congrArg Lib.Zipper.places hsame)
      · have hlen := Lib.Zipper.length_places_visit_le (z := d.apps.fileManager.history) (n := 4)
          (copyText kPathLength path)
        show (d.fileManagerOpenPath k path).2.apps.fileManager.Fits
        refine ⟨?_, fun p hp => ?_⟩
        · rw [← hvisit, Lib.Zipper.length_places, FileManagerState.length_back,
            FileManagerState.length_forward] at hlen
          omega
        · rw [hvisit] at hp
          rcases Lib.Zipper.mem_places_visit hp with rfl | hmem
          · rw [length_copyText]
            have : kPathLength - 1 < kPathLength := by decide
            omega
          · exact h.short p hmem
  | back => exact h.back
  | forward => exact h.forward

theorem fits_init (a : Apps) : a.initNativeAppState.fileManager.Fits := by
  refine ⟨Nat.zero_le 4, fun path hpath => ?_⟩
  obtain rfl : path = text "/" := List.mem_singleton.mp hpath
  decide +kernel

/-- **The history is reversible.** From `InitNativeAppState`, whatever directories and files are opened and however
    the user goes back and forward, the two stacks hold at most four paths together, and going back and then forward,
    or forward and then back, restores the directory and both stacks. -/
theorem history_reversible (k : AppKernel K) (d : Desktop K) (cs : List HistoryCall) :
    Lib.Throughout (historyCall k)
      (fun d => d.apps.fileManager.backCount + d.apps.fileManager.forwardCount ≤ 4 ∧ d.apps.Returns)
      { d with apps := d.apps.initNativeAppState } cs := by
  apply Lib.Throughout.mono fun (d : Desktop K) (h : d.apps.fileManager.Fits) => ⟨h.size, h.returns⟩
  exact Lib.throughout_of_invariant (fun _ c h => fits_historyCall k h c) (fits_init d.apps) cs

end Desktop

end Gui
end UefiBoot
