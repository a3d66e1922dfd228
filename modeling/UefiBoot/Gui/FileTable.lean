import UefiBoot.Gui.Dispatch
import UefiBoot.Lib.Run
import UefiBoot.Lib.Simulation
import UefiBoot.Lib.SlotTable

/-!
# `Gui.FileTable` — the sixteen files as a map from paths

An entry of `g_NativeFiles` is a slot that is taken by `NativeFileAdd`, changed in place by `NativeFileRename` and given
back by `NativeFileDelete`; the file manager copies and moves the file that is selected in it. `FileSystem` says what
these are for: a map from paths to a directory flag and a content, with room for sixteen, and the path that is selected.
`files_refine` says that the slots are such a map as long as no text is cut off on its way into its array.
-/

namespace UefiBoot
namespace Gui

/-- A directory flag and a content for every path, with room for sixteen paths. -/
structure FileMap where
  entries : Finmap fun _ : Text => Bool × Text
  card_le : entries.keys.card ≤ kNativeFileCapacity

namespace FileMap

theorem ext {m m' : FileMap} (h : m.entries = m'.entries) : m = m' := by
  cases m
  cases m'
  cases h
  rfl

def empty : FileMap := ⟨∅, Nat.zero_le _⟩

theorem keys_insert (m : Finmap fun _ : Text => Bool × Text) (path : Text) (entry : Bool × Text) :
    (m.insert path entry).keys = insert path m.keys := by
  ext key
  rw [Finmap.mem_keys, Finmap.mem_insert, Finset.mem_insert, Finmap.mem_keys]

def add (m : FileMap) (path : Text) (directory : Bool) (content : Text) : Bool × FileMap :=
  if h : path ∈ m.entries ∨ m.entries.keys.card = kNativeFileCapacity then (false, m)
  else
    (true, ⟨m.entries.insert path (directory, content), by
      have hle := Finset.card_insert_le path m.entries.keys
      have hcard := m.card_le
      rw [keys_insert]
      omega⟩)

/-- The entry of one path under another. -/
def rekey (m : Finmap fun _ : Text => Bool × Text) (source target : Text) : Finmap fun _ : Text => Bool × Text :=
  ((m.lookup source).map fun entry => (m.erase source).insert target entry).getD m

theorem card_rekey_le (m : Finmap fun _ : Text => Bool × Text) (source target : Text) :
    (rekey m source target).keys.card ≤ m.keys.card := by
  unfold rekey
  cases hentry : m.lookup source with
  | none => exact Nat.le_refl _
  | some entry =>
      have hmem : source ∈ m.keys := Finmap.mem_keys.mpr (Finmap.mem_of_lookup_eq_some hentry)
      have hle := Finset.card_insert_le target (m.keys.erase source)
      have hpos := Finset.card_pos.mpr ⟨source, hmem⟩
      rw [Finset.card_erase_of_mem hmem] at hle
      rw [Option.map_some, Option.getD_some, keys_insert, Finmap.keys_erase]
      omega

def rename (m : FileMap) (source target : Text) : Bool × FileMap :=
  if source ∈ m.entries ∧ target ∉ m.entries then
    (true, ⟨rekey m.entries source target, (card_rekey_le ..).trans m.card_le⟩)
  else (false, m)

def delete (m : FileMap) (path : Text) : Bool × FileMap :=
  if path ∈ m.entries then
    (true, ⟨m.entries.erase path, by
      rw [Finmap.keys_erase]
      exact Finset.card_erase_le.trans m.card_le⟩)
  else (false, m)

end FileMap

/-- The files and the path that is selected in the file manager. -/
structure FileSystem where
  files    : FileMap
  selected : Text

/-- The calls on the files. `select` is what `FileManagerOpenPath` does of a file before it is opened. -/
inductive FileCall where
  | add (path : Text) (directory : Bool) (content : Text)
  | rename (source target : Text)
  | delete (path : Text)
  | select (path : Text)
  | copySelected (target : Text)
  | moveSelected (target : Text)

namespace FileCall

/-- Paths and contents that fit into their arrays. -/
def Short : FileCall → Prop
  | .add path _ content   => path.length < kPathLength ∧ content.length < kFileContentLength
  | .rename source target => source.length < kPathLength ∧ target.length < kPathLength
  | .delete path          => path.length < kPathLength
  | .select path          => path.length < kPathLength
  | .copySelected target  => target.length < kPathLength
  | .moveSelected target  => target.length < kPathLength

instance : DecidablePred Short
  | .add ..          => inferInstanceAs (Decidable (_ ∧ _))
  | .rename ..       => inferInstanceAs (Decidable (_ ∧ _))
  | .delete ..       => inferInstanceAs (Decidable (_ < _))
  | .select ..       => inferInstanceAs (Decidable (_ < _))
  | .copySelected .. => inferInstanceAs (Decidable (_ < _))
  | .moveSelected .. => inferInstanceAs (Decidable (_ < _))

/-- The paths that a call is about. -/
def paths (selected : Text) : FileCall → List Text
  | .add path _ _         => [path]
  | .rename source target => [source, target]
  | .delete path          => [path]
  | .select _             => []
  | .copySelected target  => [target]
  | .moveSelected target  => [selected, target]

end FileCall

namespace FileSystem

/-- What the calls are for. -/
def call (s : FileSystem) : FileCall → Bool × FileSystem
  | .add path directory content =>
    let (ok, files) := s.files.add path directory content
    (ok, { s with files := files })
  | .rename source target =>
    let (ok, files) := s.files.rename source target
    (ok, { s with files := files })
  | .delete path =>
    let (ok, files) := s.files.delete path
    (ok, { s with files := files })
  | .select path => (true, { s with selected := path })
  | .copySelected target =>
    match s.files.entries.lookup s.selected with
    | none       => (false, s)
    | some entry =>
      let (ok, files) := s.files.add target entry.1 entry.2
      (ok, { s with files := files })
  | .moveSelected target =>
    let (ok, files) := s.files.rename s.selected target
    (ok, { files := files, selected := if ok then target else s.selected })

end FileSystem

namespace Apps

/-- The calls of the source. -/
def fileCall (a : Apps) : FileCall → Bool × Apps
  | .add path directory content => a.nativeFileAdd path directory content
  | .rename source target       => a.nativeFileRename source target
  | .delete path                => a.nativeFileDelete path
  | .select path                =>
    (true, { a with fileManager := { a.fileManager with selectedPath := copyText kPathLength path, error := [] } })
  | .copySelected target        => a.fileManagerCopySelected target
  | .moveSelected target        => a.fileManagerMoveSelected target

/-- The table as slots that hold a path, and the flag and the content of the file. -/
def slots (a : Apps) : Lib.SlotTable kNativeFileCapacity Text (Bool × Text) := fun i =>
  if (a.files i).active then some ((a.files i).path, (a.files i).directory, (a.files i).content) else none

/-- Paths differ, and every text has been stored whole. -/
structure Sound (a : Apps) : Prop where
  distinct : a.slots.Distinct
  content  : ∀ i, (a.files i).active = true → (a.files i).content.length < kFileContentLength

/-- The state stands for a file system. -/
structure Represents (a : Apps) (s : FileSystem) : Prop where
  sound    : Sound a
  entries  : s.files.entries = a.slots.toFinmap
  selected : s.selected = a.fileManager.selectedPath

/-- A call that fails changes no slot, and one that succeeds changes no slot of another path. -/
structure Local (a : Apps) (c : FileCall) : Prop where
  failed : (a.fileCall c).1 = false → (a.fileCall c).2.files = a.files
  others : ∀ i, (a.files i).active = true → (a.files i).path ∉ c.paths a.fileManager.selectedPath →
    (a.fileCall c).2.files i = a.files i

variable {a : Apps} {s : FileSystem} {path content : Text} {i : Fin kNativeFileCapacity}

/-! ## Finding a file -/

theorem slots_some {entry : Bool × Text} (h : a.slots i = some (path, entry)) :
    (a.files i).active = true ∧ (a.files i).path = path ∧ ((a.files i).directory, (a.files i).content) = entry := by
  unfold slots at h
  split_ifs at h with hactive
  cases h
  exact ⟨hactive, rfl, rfl⟩

theorem slots_active (h : (a.files i).active = true) :
    a.slots i = some ((a.files i).path, (a.files i).directory, (a.files i).content) := if_pos h

theorem findNativeFile_true (h : a.findNativeFile path = some i) :
    (a.files i).active = true ∧ (a.files i).path = path := by
  have htrue := Lib.firstSlot_true h
  rw [Bool.and_eq_true, beq_iff_eq] at htrue
  exact htrue

theorem findNativeFile_slot (h : a.findNativeFile path = some i) :
    a.slots i = some (path, (a.files i).directory, (a.files i).content) := by
  obtain ⟨hactive, rfl⟩ := findNativeFile_true h
  exact slots_active hactive

theorem findNativeFile_isSome_iff (h : a.slots.Distinct) :
    (a.findNativeFile path).isSome = true ↔ path ∈ a.slots.toFinmap := by
  rw [Lib.SlotTable.mem_toFinmap h]
  constructor
  · intro hsome
    obtain ⟨i, hi⟩ := Option.isSome_iff_exists.mp hsome
    exact ⟨i, _, findNativeFile_slot hi⟩
  · rintro ⟨i, entry, hi⟩
    obtain ⟨hactive, hpath, -⟩ := slots_some hi
    obtain ⟨j, hj⟩ := Lib.exists_firstSlot (p := fun i => (a.files i).active && (a.files i).path == path) (i := i) (by
      rw [hactive, hpath, beq_self_eq_true]
      rfl)
    exact Option.isSome_iff_exists.mpr ⟨j, hj⟩

theorem findNativeFile_none (h : a.slots.Distinct) (hnone : a.findNativeFile path = none) :
    path ∉ a.slots.toFinmap := by
  rw [← findNativeFile_isSome_iff h, hnone]
  exact Bool.false_ne_true

/-- The entry of a file that is found. -/
theorem Represents.lookup (h : Represents a s) (hi : a.findNativeFile path = some i) :
    s.files.entries.lookup path = some ((a.files i).directory, (a.files i).content) := by
  rw [h.entries, Lib.SlotTable.lookup_toFinmap h.sound.distinct]
  exact ⟨i, findNativeFile_slot hi⟩

theorem Represents.mem (h : Represents a s) (hi : a.findNativeFile path = some i) : path ∈ s.files.entries :=
  Finmap.mem_of_lookup_eq_some (h.lookup hi)

theorem Represents.not_mem (h : Represents a s) (hnone : a.findNativeFile path = none) : path ∉ s.files.entries := by
  rw [h.entries]
  exact findNativeFile_none h.sound.distinct hnone

/-! ## Writing a slot -/

theorem slots_setFile (a : Apps) (i : Fin kNativeFileCapacity) (entry : NativeFileEntry) :
    (a.setFile i entry).slots = Function.update a.slots i
      (if entry.active then some (entry.path, entry.directory, entry.content) else none) := by
  funext j
  unfold slots setFile
  dsimp only
  by_cases hji : j = i
  · subst hji
    simp only [Function.update_self]
  · simp only [Function.update_of_ne hji]

/-- A slot is written, and the texts that are left are stored whole. -/
theorem Sound.setFile (h : Sound a) {entry : NativeFileEntry} (hdistinct : (a.setFile i entry).slots.Distinct)
    (hcontent : entry.active = true → entry.content.length < kFileContentLength) : Sound (a.setFile i entry) := by
  refine ⟨hdistinct, fun j hj => ?_⟩
  unfold Apps.setFile at hj ⊢
  dsimp only at hj ⊢
  by_cases hji : j = i
  · subst hji
    rw [Function.update_self] at hj ⊢
    exact hcontent hj
  · rw [Function.update_of_ne hji] at hj ⊢
    exact h.content j hj

theorem copyText_short {capacity : Nat} {t : Text} (h : t.length < capacity) : copyText capacity t = t :=
  List.take_of_length_le (by omega)

/-- Only the files and the selection count. -/
theorem Represents.congr (h : Represents a s) {a' : Apps} {s' : FileSystem} (hfiles : a'.files = a.files)
    (hmap : s'.files = s.files) (hselected : s'.selected = a'.fileManager.selectedPath) : Represents a' s' := by
  have hslots : a'.slots = a.slots := by
    unfold slots
    rw [hfiles]
  refine ⟨⟨?_, fun i hi => ?_⟩, ?_, hselected⟩
  · rw [hslots]
    exact h.sound.distinct
  · rw [hfiles] at hi ⊢
    exact h.sound.content i hi
  · rw [hmap, hslots]
    exact h.entries

/-! ## The calls -/

/-- `NativeFileAdd` is `add`. -/
theorem Represents.add (h : Represents a s) (directory : Bool) (hpath : path.length < kPathLength)
    (hcontent : content.length < kFileContentLength) :
    (a.nativeFileAdd path directory content).1 = (s.files.add path directory content).1 ∧
    Represents (a.nativeFileAdd path directory content).2
      { s with files := (s.files.add path directory content).2 } := by
  unfold nativeFileAdd FileMap.add
  cases hfind : a.findNativeFile path with
  | some i =>
      rw [if_pos Option.isSome_some, dif_pos (Or.inl (h.mem hfind))]
      exact ⟨rfl, h⟩
  | none =>
      rw [if_neg (by simp)]
      have hnone := findNativeFile_none h.sound.distinct hfind
      cases hslot : Lib.firstSlot fun i => !(a.files i).active with
      | none =>
          -- every slot is in use, so the map is full
          rw [Lib.firstSlot_eq_none_iff] at hslot
          have hfull : a.slots.toFinmap.keys.card = kNativeFileCapacity := by
            rw [Lib.SlotTable.card_keys_eq_iff h.sound.distinct]
            intro i
            rw [slots_active (by simpa using hslot i)]
            simp
          rw [dif_pos (Or.inr (by rw [h.entries, hfull]))]
          exact ⟨rfl, h⟩
      | some i =>
          have hinactive : (a.files i).active = false := by simpa using Lib.firstSlot_true hslot
          have hfree : a.slots i = none := if_neg (by rw [hinactive]; exact Bool.false_ne_true)
          have hroom : ¬ (path ∈ s.files.entries ∨ s.files.entries.keys.card = kNativeFileCapacity) := by
            rw [h.entries, Lib.SlotTable.card_keys_eq_iff h.sound.distinct]
            exact not_or_intro hnone fun hall => hall i hfree
          rw [dif_neg hroom]
          dsimp only
          rw [copyText_short hpath, copyText_short hcontent]
          have hslots := slots_setFile a i { path, content, directory, active := true }
          rw [if_pos rfl] at hslots
          refine ⟨rfl, h.sound.setFile ?_ fun _ => hcontent, ?_, h.selected⟩
          · rw [hslots]
            apply h.sound.distinct.update
            intro j entry _ hj
            exact hnone ((Lib.SlotTable.mem_toFinmap h.sound.distinct).mpr ⟨j, entry, hj⟩)
          · rw [hslots, Lib.SlotTable.toFinmap_put h.sound.distinct hfree hnone, ← h.entries]

/-- `NativeFileRename` is `rename`. -/
theorem Represents.rename (h : Represents a s) {target : Text} (htarget : target.length < kPathLength) :
    (a.nativeFileRename path target).1 = (s.files.rename path target).1 ∧
    Represents (a.nativeFileRename path target).2 { s with files := (s.files.rename path target).2 } := by
  unfold nativeFileRename FileMap.rename
  cases hfind : a.findNativeFile path with
  | none =>
      rw [if_neg fun hboth => h.not_mem hfind hboth.1]
      exact ⟨rfl, h⟩
  | some i =>
      dsimp only
      cases hother : a.findNativeFile target with
      | some j =>
          rw [if_pos Option.isSome_some, if_neg fun hboth => hboth.2 (h.mem hother)]
          exact ⟨rfl, h⟩
      | none =>
          have hnone := findNativeFile_none h.sound.distinct hother
          rw [if_neg (by simp), if_pos ⟨h.mem hfind, h.not_mem hother⟩, copyText_short htarget]
          obtain ⟨hactive, -⟩ := findNativeFile_true hfind
          have hslots := slots_setFile a i { a.files i with path := target }
          rw [if_pos hactive] at hslots
          refine ⟨rfl, h.sound.setFile ?_ fun _ => h.sound.content i hactive, ?_, h.selected⟩
          · rw [hslots]
            apply h.sound.distinct.update
            intro j entry _ hj
            exact hnone ((Lib.SlotTable.mem_toFinmap h.sound.distinct).mpr ⟨j, entry, hj⟩)
          · dsimp only
            rw [hslots, Lib.SlotTable.toFinmap_rekey h.sound.distinct (findNativeFile_slot hfind) hnone, ← h.entries]
            unfold FileMap.rekey
            rw [h.lookup hfind]
            rfl

/-- `NativeFileDelete` is `delete`. -/
theorem Represents.delete (h : Represents a s) :
    (a.nativeFileDelete path).1 = (s.files.delete path).1 ∧
    Represents (a.nativeFileDelete path).2 { s with files := (s.files.delete path).2 } := by
  unfold nativeFileDelete FileMap.delete
  cases hfind : a.findNativeFile path with
  | none =>
      rw [if_neg (h.not_mem hfind)]
      exact ⟨rfl, h⟩
  | some i =>
      rw [if_pos (h.mem hfind)]
      have hslots := slots_setFile a i {}
      rw [if_neg Bool.false_ne_true] at hslots
      refine ⟨rfl, h.sound.setFile ?_ fun hactive => absurd hactive Bool.false_ne_true, ?_, h.selected⟩
      · rw [hslots]
        exact h.sound.distinct.clear i
      · dsimp only
        rw [hslots, Lib.SlotTable.toFinmap_clear h.sound.distinct (findNativeFile_slot hfind), ← h.entries]

/-- **Step lemma.** The calls of the source are those of the map. -/
theorem simulates : Lib.Simulates FileCall.Short Represents fileCall FileSystem.call := by
  intro a s c h hshort
  cases c with
  | add path directory content => exact h.add directory hshort.1 hshort.2
  | rename source target => exact h.rename hshort.2
  | delete path => exact h.delete
  | select path =>
      exact ⟨rfl, h.congr rfl rfl (copyText_short hshort).symm⟩
  | copySelected target =>
      unfold fileCall FileSystem.call fileManagerCopySelected
      dsimp only
      cases hfind : a.findNativeFile a.fileManager.selectedPath with
      | none =>
          have hnone := h.not_mem hfind
          rw [← h.selected, ← Finmap.lookup_eq_none] at hnone
          rw [hnone]
          exact ⟨rfl, h.congr rfl rfl h.selected⟩
      | some i =>
          have hentry := h.lookup hfind
          rw [← h.selected] at hentry
          obtain ⟨hactive, -⟩ := findNativeFile_true hfind
          obtain ⟨hanswer, hafter⟩ := h.add (a.files i).directory hshort (h.sound.content i hactive)
          rw [hentry]
          exact ⟨hanswer, hafter.congr rfl rfl hafter.selected⟩
  | moveSelected target =>
      have hrename : (a.nativeFileRename a.fileManager.selectedPath target).1 = _ ∧ _ := h.rename hshort
      obtain ⟨hanswer, hafter⟩ := hrename
      unfold fileCall FileSystem.call fileManagerMoveSelected
      dsimp only
      rw [h.selected, ← hanswer]
      refine ⟨rfl, ?_⟩
      cases hok : (a.nativeFileRename a.fileManager.selectedPath target).1 with
      | false => exact hafter.congr rfl rfl (h.selected.symm.trans hafter.selected)
      | true => exact hafter.congr rfl rfl (copyText_short hshort).symm

/-! ## Other slots -/

theorem nativeFileAdd_files (a : Apps) (path : Text) (directory : Bool) (content : Text) :
    ((a.nativeFileAdd path directory content).1 = false →
      (a.nativeFileAdd path directory content).2.files = a.files) ∧
    ∀ i, (a.files i).active = true → (a.nativeFileAdd path directory content).2.files i = a.files i := by
  unfold nativeFileAdd
  split_ifs
  · exact ⟨fun _ => rfl, fun _ _ => rfl⟩
  · cases hslot : Lib.firstSlot fun i => !(a.files i).active with
    | none => exact ⟨fun _ => rfl, fun _ _ => rfl⟩
    | some j =>
        refine ⟨fun hfalse => absurd hfalse (by simp), fun i hi => ?_⟩
        -- the slot that is written was free
        have hfree := Lib.firstSlot_true hslot
        apply Function.update_of_ne
        rintro rfl
        rw [hi] at hfree
        exact absurd hfree (by decide)

theorem nativeFileRename_files (a : Apps) (source target : Text) :
    ((a.nativeFileRename source target).1 = false → (a.nativeFileRename source target).2.files = a.files) ∧
    ∀ i, (a.files i).path ≠ source → (a.nativeFileRename source target).2.files i = a.files i := by
  unfold nativeFileRename
  cases hfind : a.findNativeFile source with
  | none => exact ⟨fun _ => rfl, fun _ _ => rfl⟩
  | some j =>
      dsimp only
      split_ifs
      · exact ⟨fun _ => rfl, fun _ _ => rfl⟩
      · refine ⟨fun hfalse => absurd hfalse (by simp), fun i hi => ?_⟩
        apply Function.update_of_ne
        rintro rfl
        exact hi (findNativeFile_true hfind).2

theorem nativeFileDelete_files (a : Apps) (path : Text) :
    ((a.nativeFileDelete path).1 = false → (a.nativeFileDelete path).2.files = a.files) ∧
    ∀ i, (a.files i).path ≠ path → (a.nativeFileDelete path).2.files i = a.files i := by
  unfold nativeFileDelete
  cases hfind : a.findNativeFile path with
  | none => exact ⟨fun _ => rfl, fun _ _ => rfl⟩
  | some j =>
      refine ⟨fun hfalse => absurd hfalse (by simp), fun i hi => ?_⟩
      apply Function.update_of_ne
      rintro rfl
      exact hi (findNativeFile_true hfind).2

/-- No call touches another file. -/
theorem fileCall_local (a : Apps) (c : FileCall) : Local a c := by
  cases c with
  | add path directory content =>
      obtain ⟨hfailed, hothers⟩ := nativeFileAdd_files a path directory content
      exact ⟨hfailed, fun i hi _ => hothers i hi⟩
  | rename source target =>
      obtain ⟨hfailed, hothers⟩ := nativeFileRename_files a source target
      exact ⟨hfailed, fun i _ hi => hothers i fun heq => hi (heq ▸ List.mem_cons_self)⟩
  | delete path =>
      obtain ⟨hfailed, hothers⟩ := nativeFileDelete_files a path
      exact ⟨hfailed, fun i _ hi => hothers i fun heq => hi (heq ▸ List.mem_cons_self)⟩
  | select path => exact ⟨fun _ => rfl, fun _ _ _ => rfl⟩
  | copySelected target =>
      cases hfind : a.findNativeFile a.fileManager.selectedPath with
      | none =>
          have hcall : a.fileCall (.copySelected target) = (false, a.setFileManagerError (text "copy failed")) := by
            unfold fileCall fileManagerCopySelected
            dsimp only
            rw [hfind]
          refine ⟨fun _ => ?_, fun i _ _ => ?_⟩
          · rw [hcall]
            rfl
          · rw [hcall]
            rfl
      | some j =>
          obtain ⟨hfailed, hothers⟩ := nativeFileAdd_files a target (a.files j).directory (a.files j).content
          have hcall : (a.fileCall (.copySelected target)).1 =
                (a.nativeFileAdd target (a.files j).directory (a.files j).content).1 ∧
              (a.fileCall (.copySelected target)).2.files =
                (a.nativeFileAdd target (a.files j).directory (a.files j).content).2.files := by
            unfold fileCall fileManagerCopySelected
            dsimp only
            rw [hfind]
            exact ⟨rfl, rfl⟩
          obtain ⟨hanswer, hfiles⟩ := hcall
          refine ⟨fun hfalse => ?_, fun i hi _ => ?_⟩
          · rw [hfiles]
            exact hfailed (hanswer.symm.trans hfalse)
          · rw [hfiles]
            exact hothers i hi
  | moveSelected target =>
      obtain ⟨hfailed, hothers⟩ := nativeFileRename_files a a.fileManager.selectedPath target
      have hfiles : (a.fileCall (.moveSelected target)).2.files =
          (a.nativeFileRename a.fileManager.selectedPath target).2.files := by
        unfold fileCall fileManagerMoveSelected
        dsimp only
        cases (a.nativeFileRename a.fileManager.selectedPath target).1 <;> rfl
      refine ⟨fun hfalse => ?_, fun i _ hi => ?_⟩
      · rw [hfiles]
        exact hfailed hfalse
      · rw [hfiles]
        exact hothers i fun heq => hi (heq ▸ List.mem_cons_self)

/-! ## Every run -/

/-- Files are added one after another. -/
theorem Represents.addAll (h : Represents a s) (entries : List (Text × Bool × Text))
    (hshort : ∀ e ∈ entries, e.1.length < kPathLength ∧ e.2.2.length < kFileContentLength) :
    Represents (entries.foldl (fun a e => (a.nativeFileAdd e.1 e.2.1 e.2.2).2) a)
      { s with files := entries.foldl (fun m e => (m.add e.1 e.2.1 e.2.2).2) s.files } := by
  induction entries generalizing a s with
  | nil => exact h
  | cons e entries ih =>
      obtain ⟨hpath, hcontent⟩ := hshort e List.mem_cons_self
      exact ih (h.add _ hpath hcontent).2 fun e' he' => hshort e' (List.mem_cons_of_mem e he')

/-- What `InitNativeAppState` adds. -/
def initialEntries : List (Text × Bool × Text) :=
  [(text "/", true, []), (text "/boot", true, []), (text "/kernel", true, []), (text "/tmp", true, []),
   (text "/tmp/readme", false, text "Antigravity OS terminal ready."),
   (text "/tmp/notes.txt", false, text "Antigravity OS notes"),
   (text "/tmp/SO.png", false, text "PNG image placeholder")]

def initialFiles : FileSystem :=
  { files := initialEntries.foldl (fun m e => (m.add e.1 e.2.1 e.2.2).2) .empty, selected := text "/tmp/readme" }

theorem represents_init (a : Apps) : Represents a.initNativeAppState initialFiles := by
  have hempty : Represents { a with files := fun _ => {} } { files := .empty, selected := a.fileManager.selectedPath } := by
    refine ⟨⟨fun i j k x y hi => ?_, fun i hi => absurd hi Bool.false_ne_true⟩, ?_, rfl⟩
    · exact absurd hi (by simp [slots])
    · exact Lib.SlotTable.toFinmap_free.symm
  have hadded := hempty.addAll initialEntries (by decide +kernel)
  exact hadded.congr rfl rfl rfl

/-- **The table of files is a map.** From `InitNativeAppState` every sequence of calls, of paths and contents that fit
    into their arrays, is answered as a map with room for sixteen paths answers it, and the slots in use are the entries
    of that map: their paths differ. A call that fails leaves every slot as it is, and no call changes a slot of a path
    that it is not about. -/
theorem files_refine (a : Apps) (cs : List FileCall) (hshort : ∀ c ∈ cs, c.Short) :
    Lib.answers fileCall a.initNativeAppState cs = Lib.answers FileSystem.call initialFiles cs ∧
    Represents (Lib.after fileCall a.initNativeAppState cs) (Lib.after FileSystem.call initialFiles cs) ∧
    Lib.Along (fun a c => (fileCall a c).2) Local a.initNativeAppState cs := by
  have hinit := represents_init a
  refine ⟨simulates.answers hinit hshort, simulates.after hinit hshort, ?_⟩
  exact Lib.along_of_invariant (I := fun _ => True) (fun _ _ _ => trivial) (fun s c _ => fileCall_local s c) trivial cs

/-- A file is added, the selected one is copied and moved, and a path is taken twice. -/
theorem files_refine_four :
    let cs := [.add (text "/a") false (text "x"), .copySelected (text "/b"), .moveSelected (text "/c"),
      .rename (text "/a") (text "/b")]
    Lib.answers fileCall (initNativeAppState {}) cs = Lib.answers FileSystem.call initialFiles cs ∧
    Represents (Lib.after fileCall (initNativeAppState {}) cs) (Lib.after FileSystem.call initialFiles cs) ∧
    Lib.Along (fun a c => (fileCall a c).2) Local (initNativeAppState {}) cs :=
  files_refine {} _ (by decide +kernel)

end Apps

end Gui
end UefiBoot
