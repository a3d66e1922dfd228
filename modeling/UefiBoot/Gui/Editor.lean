import UefiBoot.Gui.FileTable

/-!
# `Gui.Editor` — saving a text and opening it again

The editor holds 383 characters, a file 95 and a path 47, and what does not fit is cut off without a word:
`TextEditorSaveAs` returns true and clears the dirty flag all the same. `saveReopen_iff` says when a text comes back
from the file it was saved in.
-/

namespace UefiBoot
namespace Gui
namespace Apps

/-- There is a file to write to, or a free slot for one. -/
def CanSave (a : Apps) (path : Text) : Prop :=
  match a.findNativeFile path with
  | some i => (a.files i).directory = false
  | none   => ∃ i, (a.files i).active = false

/-- A text that has been saved is there when the file is opened. -/
def SaveReopen (a : Apps) (path : Text) : Prop :=
  (a.textEditorSaveAs path).1 = true →
    ((a.textEditorSaveAs path).2.textEditorOpenFile path).1 = true ∧
    ((a.textEditorSaveAs path).2.textEditorOpenFile path).2.editor.text = a.editor.text

variable {a : Apps} {path : Text} {i : Fin kNativeFileCapacity}

/-! ## Typing -/

/-- A printable key is none of those that move, delete or save. -/
theorem isKey_print {key : UInt32} (hlow : 32 ≤ key) {c : Char} (hc : c.toNat.toUInt32 < 32) : isKey key c = false := by
  unfold isKey
  rw [beq_eq_false_iff_ne]
  rintro rfl
  rw [UInt32.le_iff_toNat_le] at hlow
  rw [UInt32.lt_iff_toNat_lt] at hc
  omega

/-- A printable key goes to the end of the text. -/
theorem textEditorHandleKey_print {key : UInt32} (hlow : 32 ≤ key) (hhigh : key ≤ 126)
    (hcursor : a.editor.cursor = a.editor.text.length) (hroom : a.editor.text.length + 1 < kEditorTextLength) :
    (a.textEditorHandleKey key 0).2.editor.text = a.editor.text ++ [keyChar key] ∧
    (a.textEditorHandleKey key 0).2.editor.cursor = a.editor.cursor + 1 ∧
    (a.textEditorHandleKey key 0).2.files = a.files := by
  have hctrl : ((0 : UInt32) &&& 1 != 0) = false := by decide
  have hdelete : ¬ (key = 8 ∨ key = 127) := by
    rintro (rfl | rfl)
    · exact absurd hlow (by decide)
    · exact absurd hhigh (by decide)
  have hnewline : (isKey key '\n' || isKey key '\r') = false := by
    rw [isKey_print hlow (by decide), isKey_print hlow (by decide)]
    rfl
  have htake : a.editor.text.take a.editor.cursor = a.editor.text := List.take_of_length_le (by omega)
  have hkey : ¬ (key < 32 ∨ key > 126 ∨ a.editor.cursor + 1 ≥ kEditorTextLength) := by
    rw [UInt32.lt_iff_toNat_lt, gt_iff_lt, UInt32.lt_iff_toNat_lt]
    rw [UInt32.le_iff_toNat_le] at hlow hhigh
    omega
  unfold textEditorHandleKey
  dsimp only
  simp only [hctrl, Bool.false_and, Bool.false_eq_true, if_false, if_neg hdelete, hnewline, if_neg hkey, htake]
  split_ifs
  · exact ⟨rfl, rfl, trivial⟩
  · exact ⟨rfl, rfl, trivial⟩

/-- **Every printable text of up to 383 characters can be typed.** -/
theorem typed_text (t : Text) (hprint : ∀ c ∈ t, 32 ≤ c ∧ c ≤ 126) (hcursor : a.editor.cursor = a.editor.text.length)
    (hlen : a.editor.text.length + t.length < kEditorTextLength) :
    (t.foldl (fun a c => (a.textEditorHandleKey c.toUInt32 0).2) a).editor.text = a.editor.text ++ t ∧
    (t.foldl (fun a c => (a.textEditorHandleKey c.toUInt32 0).2) a).files = a.files := by
  induction t generalizing a with
  | nil => exact ⟨(List.append_nil _).symm, rfl⟩
  | cons c t ih =>
      obtain ⟨hlow, hhigh⟩ := hprint c List.mem_cons_self
      rw [List.length_cons] at hlen
      have hlow' : (32 : UInt32) ≤ c.toUInt32 := by
        rw [UInt32.le_iff_toNat_le, UInt8.toNat_toUInt32]
        exact UInt8.le_iff_toNat_le.mp hlow
      have hhigh' : c.toUInt32 ≤ (126 : UInt32) := by
        rw [UInt32.le_iff_toNat_le, UInt8.toNat_toUInt32]
        exact UInt8.le_iff_toNat_le.mp hhigh
      obtain ⟨htext, hcur, hfiles⟩ := textEditorHandleKey_print hlow' hhigh' hcursor (by omega)
      have hkey : keyChar c.toUInt32 = c := UInt8.toUInt8_toUInt32 c
      rw [hkey] at htext
      have hnext := ih (a := (a.textEditorHandleKey c.toUInt32 0).2) (fun c' hc' => hprint c' (List.mem_cons_of_mem c hc'))
        (by rw [htext, hcur, hcursor, List.length_append, List.length_singleton])
        (by rw [htext, List.length_append, List.length_singleton]; omega)
      rw [htext, hfiles, List.append_assoc] at hnext
      exact hnext

/-! ## Saving -/

/-- What a file is opened as. -/
theorem textEditorOpenFile_some (hfind : a.findNativeFile path = some i) (hfile : (a.files i).directory = false) :
    (a.textEditorOpenFile path).1 = true ∧
    (a.textEditorOpenFile path).2.editor.text = copyText kEditorTextLength (a.files i).content := by
  unfold textEditorOpenFile
  rw [hfind]
  dsimp only
  rw [if_neg (by rw [hfile]; exact Bool.false_ne_true)]
  exact ⟨rfl, rfl⟩

theorem textEditorOpenFile_none (hfind : a.findNativeFile path = none) : (a.textEditorOpenFile path).1 = false := by
  unfold textEditorOpenFile
  rw [hfind]

/-- A text that has passed through a file. -/
theorem content_iff (t : Text) :
    copyText kEditorTextLength (copyText kFileContentLength t) = t ↔ t.length < kFileContentLength := by
  constructor
  · intro h
    have hlen := congrArg List.length h
    rw [length_copyText, length_copyText] at hlen
    have : kFileContentLength = 96 := rfl
    omega
  · intro h
    have : kEditorTextLength = 384 := rfl
    have : kFileContentLength = 96 := rfl
    rw [copyText_short h, copyText_short (by omega)]

/-- The write of `TextEditorSaveAs`. -/
def written (a : Apps) (path : Text) : Bool × Apps :=
  match a.findNativeFile path with
  | none   => a.nativeFileAdd path false a.editor.text
  | some i =>
    if (a.files i).directory then (false, a)
    else (true, a.setFile i { a.files i with content := copyText kFileContentLength a.editor.text })

theorem textEditorSaveAs_eq (a : Apps) (path : Text) :
    a.textEditorSaveAs path =
      if !(a.written path).1 then (false, (a.written path).2)
      else (true, { (a.written path).2 with
        editor := { (a.written path).2.editor with path := copyText kPathLength path, dirty := false } }) := rfl

/-- A save that writes. -/
theorem textEditorSaveAs_written {b : Apps} (h : a.written path = (true, b)) :
    (a.textEditorSaveAs path).1 = true ∧ (a.textEditorSaveAs path).2.files = b.files := by
  rw [textEditorSaveAs_eq, h]
  exact ⟨rfl, rfl⟩

/-- A save that does not. -/
theorem textEditorSaveAs_refused (h : (a.written path).1 = false) : (a.textEditorSaveAs path).1 = false := by
  rw [textEditorSaveAs_eq, h]
  rfl

/-- A file that is there is written in place. -/
theorem written_some (hfind : a.findNativeFile path = some i) (hfile : (a.files i).directory = false) :
    a.written path = (true, a.setFile i { a.files i with content := copyText kFileContentLength a.editor.text }) := by
  unfold written
  rw [hfind]
  exact if_neg (by rw [hfile]; exact Bool.false_ne_true)

/-- A file that is not there is added. -/
theorem written_none (hfind : a.findNativeFile path = none)
    (hslot : Lib.firstSlot (fun i => !(a.files i).active) = some i) :
    a.written path = (true, a.setFile i
      { path := copyText kPathLength path, content := copyText kFileContentLength a.editor.text,
        directory := false, active := true }) := by
  unfold written nativeFileAdd
  rw [hfind, hslot]
  rfl

theorem written_iff : (a.written path).1 = true ↔ a.CanSave path := by
  unfold CanSave
  cases hfind : a.findNativeFile path with
  | some i =>
      dsimp only
      cases hfile : (a.files i).directory with
      | false => exact iff_of_true (congrArg Prod.fst (written_some hfind hfile)) rfl
      | true =>
          unfold written
          rw [hfind]
          dsimp only
          rw [if_pos hfile]
          exact iff_of_false Bool.false_ne_true Bool.noConfusion
  | none =>
      dsimp only
      cases hslot : Lib.firstSlot fun i => !(a.files i).active with
      | some i =>
          have hfree := Lib.firstSlot_true hslot
          exact iff_of_true (congrArg Prod.fst (written_none hfind hslot)) ⟨i, by simpa using hfree⟩
      | none =>
          -- every slot is in use
          have hused := Lib.firstSlot_eq_none_iff.mp hslot
          unfold written nativeFileAdd
          rw [hfind, hslot]
          refine iff_of_false Bool.false_ne_true ?_
          rintro ⟨i, hi⟩
          have hi' := hused i
          rw [hi] at hi'
          cases hi'

/-- What `TextEditorSaveAs` needs. -/
theorem textEditorSaveAs_iff : (a.textEditorSaveAs path).1 = true ↔ a.CanSave path := by
  rw [← written_iff]
  cases hwritten : (a.written path).1 with
  | false => rw [textEditorSaveAs_refused hwritten]
  | true => rw [(textEditorSaveAs_written (Prod.ext hwritten rfl)).1]

/-! ## Finding the file again -/

/-- A file that keeps its path is found where it was. -/
theorem findNativeFile_kept {b : Apps} {entry : NativeFileEntry} (hfind : a.findNativeFile path = some i)
    (hfiles : b.files = Function.update a.files i entry) (hactive : entry.active = (a.files i).active)
    (hpath : entry.path = (a.files i).path) : b.findNativeFile path = some i := by
  rw [← hfind]
  unfold findNativeFile
  congr 1
  funext j
  rw [hfiles]
  by_cases hji : j = i
  · rw [hji, Function.update_self, hactive, hpath]
  · rw [Function.update_of_ne hji]

/-- A file that is new is found if its path is the whole one. -/
theorem findNativeFile_new {b : Apps} {entry : NativeFileEntry} (hfind : a.findNativeFile path = none)
    (hfiles : b.files = Function.update a.files i entry) (hactive : entry.active = true) :
    b.findNativeFile path = if entry.path = path then some i else none := by
  have hothers := Lib.firstSlot_eq_none_iff.mp hfind
  split_ifs with hpath
  · apply Lib.firstSlot_unique
    · rw [hfiles, Function.update_self, hactive, hpath, beq_self_eq_true]
      rfl
    · intro j hj
      by_contra hji
      rw [hfiles, Function.update_of_ne hji, hothers j] at hj
      exact Bool.false_ne_true hj
  · apply Lib.firstSlot_eq_none_iff.mpr
    intro j
    rw [hfiles]
    by_cases hji : j = i
    · rw [hji, Function.update_self, beq_false_of_ne hpath, Bool.and_false]
    · rw [Function.update_of_ne hji]
      exact hothers j

/-- A path that is not cut off. -/
theorem copyText_eq_iff (capacity : Nat) (t : Text) (hpos : 0 < capacity) :
    copyText capacity t = t ↔ t.length < capacity := by
  constructor
  · intro h
    have hlen := congrArg List.length h
    rw [length_copyText] at hlen
    omega
  · exact copyText_short

/-- What is saved comes back if it has fewer than 96 characters, and the path fewer than 48 or that of a file already. -/
theorem reopened_iff (hcan : a.CanSave path) :
    ((a.textEditorSaveAs path).2.textEditorOpenFile path).1 = true ∧
        ((a.textEditorSaveAs path).2.textEditorOpenFile path).2.editor.text = a.editor.text ↔
      a.editor.text.length < kFileContentLength ∧
        (path.length < kPathLength ∨ (a.findNativeFile path).isSome) := by
  unfold CanSave at hcan
  cases hfind : a.findNativeFile path with
  | some i =>
      rw [hfind] at hcan
      obtain ⟨-, hfiles⟩ := textEditorSaveAs_written (written_some hfind hcan)
      have hagain := findNativeFile_kept hfind hfiles rfl rfl
      have hentry := (congrFun hfiles i).trans (Function.update_self ..)
      obtain ⟨hok, htext⟩ := textEditorOpenFile_some hagain (by rw [hentry]; exact hcan)
      rw [htext, hentry]
      simp only [hok, true_and, Option.isSome_some, or_true, and_true]
      exact content_iff a.editor.text
  | none =>
      rw [hfind] at hcan
      obtain ⟨q, hq⟩ := hcan
      obtain ⟨i, hslot⟩ := Lib.exists_firstSlot (p := fun i => !(a.files i).active) (i := q) (by rw [hq]; rfl)
      obtain ⟨-, hfiles⟩ := textEditorSaveAs_written (written_none hfind hslot)
      have hagain := findNativeFile_new hfind hfiles rfl
      have hcopy := copyText_eq_iff kPathLength path (by decide)
      have hentry := (congrFun hfiles i).trans (Function.update_self ..)
      by_cases hpath : path.length < kPathLength
      · rw [if_pos (hcopy.mpr hpath)] at hagain
        obtain ⟨hok, htext⟩ := textEditorOpenFile_some hagain (by rw [hentry])
        rw [htext, hentry]
        simp only [hok, true_and, hpath, true_or, and_true]
        exact content_iff a.editor.text
      · -- the file has been stored under another path
        rw [if_neg fun heq => hpath (hcopy.mp heq)] at hagain
        rw [textEditorOpenFile_none hagain]
        simp [hpath]

/-- **When a text comes back.** Saved under a path and opened again, the text of the editor is what it was if and only
    if it has fewer than 96 characters, and the path fewer than 48 or that of a file already; or nothing is saved. -/
theorem saveReopen_iff (a : Apps) (path : Text) :
    a.SaveReopen path ↔
      (a.CanSave path → a.editor.text.length < kFileContentLength ∧
        (path.length < kPathLength ∨ (a.findNativeFile path).isSome)) := by
  unfold SaveReopen
  rw [textEditorSaveAs_iff]
  exact imp_congr_right reopened_iff

/-- The notes and 76 characters more. -/
def longNotes : Apps :=
  (List.replicate 76 (120 : UInt8)).foldl (fun a c => (a.textEditorHandleKey c.toUInt32 0).2) (initNativeAppState {})

theorem longNotes_eq : longNotes.editor.text = text "Antigravity OS notes" ++ List.replicate 76 120 ∧
    longNotes.files = (initNativeAppState {}).files := by
  have hprint : ∀ c ∈ List.replicate 76 (120 : UInt8), 32 ≤ c ∧ c ≤ 126 := by
    intro c hc
    rw [List.eq_of_mem_replicate hc]
    decide
  have hlen : (initNativeAppState {}).editor.text.length + (List.replicate 76 (120 : UInt8)).length <
      kEditorTextLength := by
    rw [List.length_replicate]
    decide +kernel
  have htyped := typed_text (a := initNativeAppState {}) (List.replicate 76 120) hprint rfl hlen
  rw [longNotes]
  exact htyped

/-- The notes are a file. -/
theorem longNotes_canSave : longNotes.CanSave (text "/tmp/notes.txt") := by
  have hinit := represents_init {}
  have hfind : longNotes.findNativeFile (text "/tmp/notes.txt") =
      (initNativeAppState {}).findNativeFile (text "/tmp/notes.txt") := by
    unfold findNativeFile
    rw [longNotes_eq.2]
  have hlookup : initialFiles.files.entries.lookup (text "/tmp/notes.txt") =
      some (false, text "Antigravity OS notes") := by decide +kernel
  unfold CanSave
  rw [hfind, longNotes_eq.2]
  cases hi : (initNativeAppState {}).findNativeFile (text "/tmp/notes.txt") with
  | some i =>
      have hentry := (hinit.lookup hi).symm.trans hlookup
      exact congrArg Prod.fst (Option.some.inj hentry)
  | none => exact absurd (Finmap.mem_of_lookup_eq_some hlookup) (hinit.not_mem hi)

/-- **A text is lost.** The 96 characters of the notes are saved in their own file, and the last one is not there when
    the file is opened. -/
theorem notes_lost : longNotes.editor.text.length = 96 ∧ ¬ longNotes.SaveReopen (text "/tmp/notes.txt") := by
  have hlen : longNotes.editor.text.length = 96 := by
    rw [longNotes_eq.1]
    decide +kernel
  refine ⟨hlen, fun hback => ?_⟩
  have hsaved := textEditorSaveAs_iff.mpr longNotes_canSave
  have hshort := (reopened_iff longNotes_canSave).mp (hback hsaved)
  rw [hlen] at hshort
  exact absurd hshort.1 (by decide)

end Apps
end Gui
end UefiBoot
