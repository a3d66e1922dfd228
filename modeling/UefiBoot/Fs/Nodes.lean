import UefiBoot.Fs.Mounts
import UefiBoot.Lib.AppendTable
import UefiBoot.User.Environment

/-!
# `Fs.Nodes` — the nodes of RamFS and of the pseudo file systems

Two tables that are filled from the front. A new node is written behind the others without a look at what is there,
and a lookup takes the first node with the path (for a pseudo file system, with the path and the type). A node can
therefore be read back exactly when its path was not in the table before, or led to a node with the same attributes
(`nodes_readBack_iff`); the lookups of other paths never change.

Paths and link targets are texts, as in `User.Environment`; `filesystem.cpp` has its own copy of `StringEquals`.
-/

namespace UefiBoot
namespace Vfs

open Lib (AppendTable)
open Userspace (stringEquals stringEquals_iff)

abbrev kMaxRamFsNodes : Nat := 16
abbrev kMaxPseudoFsNodes : Nat := 24

structure VfsNode where
  path          : Option String := none
  symlinkTarget : Option String := none
  type          : FileSystemType := .unknown
  mode          : UInt16 := 0
  directory     : Bool := false
  symlink       : Bool := false
  active        : Bool := false
  deriving DecidableEq

structure PseudoFsNode where
  path      : Option String := none
  type      : FileSystemType := .unknown
  mode      : UInt16 := 0
  size      : UInt64 := 0
  major     : UInt32 := 0
  minor     : UInt32 := 0
  directory : Bool := false
  active    : Bool := false
  deriving DecidableEq

/-- `g_RamFsNodes` and `g_PseudoFsNodes`, each with its counter in `g_Status`. -/
structure NodeTables where
  ramFs    : AppendTable kMaxRamFsNodes VfsNode := ⟨fun _ => {}, 0⟩
  pseudoFs : AppendTable kMaxPseudoFsNodes PseudoFsNode := ⟨fun _ => {}, 0⟩

/-- `RamFsAddNode`. -/
def ramFsAddNode (s : NodeTables) (path : Option String) (mode : UInt16) (directory : Bool)
    (symlinkTarget : Option String) : Bool × NodeTables :=
  if h : path = none ∨ kMaxRamFsNodes ≤ s.ramFs.count.toNat then
    (false, s)
  else
    let node : VfsNode :=
      { path := path, symlinkTarget := symlinkTarget, type := .ramFs, mode := mode, directory := directory,
        symlink := symlinkTarget.isSome, active := true }
    (true, { s with ramFs := s.ramFs.append node (by omega) })

/-- The test of `RamFsFindNode` on a node. -/
def ramFsMatches (path : Option String) (node : VfsNode) : Bool := node.active && stringEquals node.path path

/-- `RamFsFindNode`; what the pointer leads to, or the null pointer. -/
def ramFsFindNode (s : NodeTables) (path : Option String) : Option VfsNode := s.ramFs.lookup (ramFsMatches path)

/-- `PseudoFsAddNode`. -/
def pseudoFsAddNode (s : NodeTables) (path : Option String) (type : FileSystemType) (mode : UInt16)
    (directory : Bool) (size : UInt64) (major minor : UInt32) : Bool × NodeTables :=
  if h : path = none ∨ type = .unknown ∨ kMaxPseudoFsNodes ≤ s.pseudoFs.count.toNat then
    (false, s)
  else
    let node : PseudoFsNode :=
      { path := path, type := type, mode := mode, size := size, major := major, minor := minor,
        directory := directory, active := true }
    (true, { s with pseudoFs := s.pseudoFs.append node (by omega) })

/-- The test of `PseudoFsFindNode` on a node. -/
def pseudoFsMatches (path : Option String) (type : FileSystemType) (node : PseudoFsNode) : Bool :=
  node.active && node.type == type && stringEquals node.path path

/-- `PseudoFsFindNode`. -/
def pseudoFsFindNode (s : NodeTables) (path : Option String) (type : FileSystemType) : Option PseudoFsNode :=
  s.pseudoFs.lookup (pseudoFsMatches path type)

variable {s : NodeTables} {path : Option String} {mode : UInt16} {directory : Bool}
  {symlinkTarget : Option String} {type : FileSystemType} {size : UInt64} {major minor : UInt32}

/-! ## RamFS -/

/-- The attributes of a call to `RamFsAddNode`. -/
def VfsNode.Has (node : VfsNode) (mode : UInt16) (directory : Bool) (symlinkTarget : Option String) : Prop :=
  node.mode = mode ∧ node.directory = directory ∧ node.symlinkTarget = symlinkTarget

/-- If the call succeeds, the path leads to a node with its attributes, and the other paths lead where they led. -/
def RamFsReadsBack (s : NodeTables) (path : Option String) (mode : UInt16) (directory : Bool)
    (symlinkTarget : Option String) : Prop :=
  (ramFsAddNode s path mode directory symlinkTarget).1 = true →
    (∃ node, ramFsFindNode (ramFsAddNode s path mode directory symlinkTarget).2 path = some node ∧
      node.Has mode directory symlinkTarget) ∧
    ∀ other, other ≠ path →
      ramFsFindNode (ramFsAddNode s path mode directory symlinkTarget).2 other = ramFsFindNode s other

/-- The path is not in the table, or it leads to a node with these attributes. -/
def RamFsNew (s : NodeTables) (path : Option String) (mode : UInt16) (directory : Bool)
    (symlinkTarget : Option String) : Prop :=
  ∀ node, ramFsFindNode s path = some node → node.Has mode directory symlinkTarget

theorem ramFsMatches_iff {name : String} {node : VfsNode} :
    ramFsMatches (some name) node = true ↔ node.active = true ∧ node.path = some name := by
  unfold ramFsMatches
  rw [Bool.and_eq_true, stringEquals_iff]

/-- The null pointer equals no path. -/
theorem ramFsMatches_null (node : VfsNode) : ramFsMatches none node = false := by
  unfold ramFsMatches stringEquals
  cases node.path <;> exact Bool.and_false _

theorem ramFs_readsBack_iff (s : NodeTables) (path : Option String) (mode : UInt16) (directory : Bool)
    (symlinkTarget : Option String) :
    RamFsReadsBack s path mode directory symlinkTarget ↔
      (path = none ∨ kMaxRamFsNodes ≤ s.ramFs.count.toNat) ∨ RamFsNew s path mode directory symlinkTarget := by
  unfold RamFsReadsBack ramFsAddNode
  by_cases hrefused : path = none ∨ kMaxRamFsNodes ≤ s.ramFs.count.toNat
  · rw [dif_pos hrefused]
    exact ⟨fun _ => Or.inl hrefused, fun _ h => nomatch h⟩
  · rw [dif_neg hrefused, or_iff_right hrefused]
    dsimp only
    generalize hnode : VfsNode.mk path symlinkTarget .ramFs mode directory symlinkTarget.isSome true = node
    cases path with
    | none => exact absurd (Or.inl rfl) hrefused
    | some name =>
        have hself : ramFsMatches (some name) node = true := by
          rw [ramFsMatches_iff, ← hnode]
          exact ⟨rfl, rfl⟩
        have hhas : node.Has mode directory symlinkTarget := by
          rw [← hnode]
          exact ⟨rfl, rfl, rfl⟩
        have hiff := AppendTable.lookup_append_iff (t := s.ramFs) (h := by omega) (by decide) hself
          (fun node => node.Has mode directory symlinkTarget) hhas
        constructor
        · exact fun h => hiff.mp (h rfl).1
        · intro hnew _
          refine ⟨hiff.mpr hnew, fun other hother => ?_⟩
          apply AppendTable.lookup_append_other (by decide)
          cases other with
          | none => exact ramFsMatches_null node
          | some q =>
              rw [Bool.eq_false_iff, Ne, ramFsMatches_iff, ← hnode]
              exact fun h => hother h.2.symm

/-! ## The pseudo file systems -/

/-- The attributes of a call to `PseudoFsAddNode`. -/
def PseudoFsNode.Has (node : PseudoFsNode) (mode : UInt16) (directory : Bool) (size : UInt64)
    (major minor : UInt32) : Prop :=
  node.mode = mode ∧ node.directory = directory ∧ node.size = size ∧ node.major = major ∧ node.minor = minor

def PseudoFsReadsBack (s : NodeTables) (path : Option String) (type : FileSystemType) (mode : UInt16)
    (directory : Bool) (size : UInt64) (major minor : UInt32) : Prop :=
  (pseudoFsAddNode s path type mode directory size major minor).1 = true →
    (∃ node, pseudoFsFindNode (pseudoFsAddNode s path type mode directory size major minor).2 path type = some node ∧
      node.Has mode directory size major minor) ∧
    ∀ other otherType, (other, otherType) ≠ (path, type) →
      pseudoFsFindNode (pseudoFsAddNode s path type mode directory size major minor).2 other otherType =
        pseudoFsFindNode s other otherType

/-- The path is not in the table with this type, or it leads to a node with these attributes. -/
def PseudoFsNew (s : NodeTables) (path : Option String) (type : FileSystemType) (mode : UInt16)
    (directory : Bool) (size : UInt64) (major minor : UInt32) : Prop :=
  ∀ node, pseudoFsFindNode s path type = some node → node.Has mode directory size major minor

theorem pseudoFsMatches_iff {name : String} {node : PseudoFsNode} :
    pseudoFsMatches (some name) type node = true ↔
      node.active = true ∧ node.type = type ∧ node.path = some name := by
  unfold pseudoFsMatches
  rw [Bool.and_eq_true, Bool.and_eq_true, stringEquals_iff, beq_iff_eq, and_assoc]

theorem pseudoFsMatches_null (node : PseudoFsNode) : pseudoFsMatches none type node = false := by
  unfold pseudoFsMatches stringEquals
  cases node.path <;> exact Bool.and_false _

theorem pseudoFs_readsBack_iff (s : NodeTables) (path : Option String) (type : FileSystemType) (mode : UInt16)
    (directory : Bool) (size : UInt64) (major minor : UInt32) :
    PseudoFsReadsBack s path type mode directory size major minor ↔
      (path = none ∨ type = .unknown ∨ kMaxPseudoFsNodes ≤ s.pseudoFs.count.toNat) ∨
        PseudoFsNew s path type mode directory size major minor := by
  unfold PseudoFsReadsBack pseudoFsAddNode
  by_cases hrefused : path = none ∨ type = .unknown ∨ kMaxPseudoFsNodes ≤ s.pseudoFs.count.toNat
  · rw [dif_pos hrefused]
    exact ⟨fun _ => Or.inl hrefused, fun _ h => nomatch h⟩
  · rw [dif_neg hrefused, or_iff_right hrefused]
    dsimp only
    generalize hnode : PseudoFsNode.mk path type mode size major minor directory true = node
    cases path with
    | none => exact absurd (Or.inl rfl) hrefused
    | some name =>
        have hself : pseudoFsMatches (some name) type node = true := by
          rw [pseudoFsMatches_iff, ← hnode]
          exact ⟨rfl, rfl, rfl⟩
        have hhas : node.Has mode directory size major minor := by
          rw [← hnode]
          exact ⟨rfl, rfl, rfl, rfl, rfl⟩
        have hiff := AppendTable.lookup_append_iff (t := s.pseudoFs) (h := by omega) (by decide) hself
          (fun node => node.Has mode directory size major minor) hhas
        constructor
        · exact fun h => hiff.mp (h rfl).1
        · intro hnew _
          refine ⟨hiff.mpr hnew, fun other otherType hother => ?_⟩
          apply AppendTable.lookup_append_other (by decide)
          cases other with
          | none => exact pseudoFsMatches_null node
          | some q =>
              rw [Bool.eq_false_iff, Ne, pseudoFsMatches_iff, ← hnode]
              rintro ⟨-, rfl, hq⟩
              cases hq
              exact hother rfl

/-- **The exact condition**, for every state of the tables: the call is refused, or its path is new, or what is there
    has the same attributes. -/
theorem nodes_readBack_iff (s : NodeTables) (path : Option String) (type : FileSystemType) (mode : UInt16)
    (directory : Bool) (symlinkTarget : Option String) (size : UInt64) (major minor : UInt32) :
    (RamFsReadsBack s path mode directory symlinkTarget ↔
      (path = none ∨ kMaxRamFsNodes ≤ s.ramFs.count.toNat) ∨ RamFsNew s path mode directory symlinkTarget) ∧
    (PseudoFsReadsBack s path type mode directory size major minor ↔
      (path = none ∨ type = .unknown ∨ kMaxPseudoFsNodes ≤ s.pseudoFs.count.toNat) ∨
        PseudoFsNew s path type mode directory size major minor) :=
  ⟨ramFs_readsBack_iff s path mode directory symlinkTarget,
    pseudoFs_readsBack_iff s path type mode directory size major minor⟩

/-- A file that is added twice, first as readable and then as writable, stays readable. -/
theorem nodes_not_readBack :
    ¬ RamFsReadsBack (ramFsAddNode {} (some "/a") 0o400 false none).2 (some "/a") 0o200 false none := by
  rw [ramFs_readsBack_iff]
  have hfound : ramFsFindNode (ramFsAddNode {} (some "/a") 0o400 false none).2 (some "/a") =
      some ⟨some "/a", none, .ramFs, 0o400, false, false, true⟩ := by
    have hempty : ({} : NodeTables).ramFs.find (ramFsMatches (some "/a")) = none :=
      AppendTable.find_eq_none_iff.mpr fun i hi => absurd hi (Nat.not_lt_zero _)
    refine (AppendTable.lookup_append (by decide)).trans ?_
    unfold AppendTable.lookup
    rw [hempty]
    rfl
  rintro (hrefused | hnew)
  · exact absurd hrefused (by decide)
  · exact absurd (hnew _ hfound).1 (by decide)

end Vfs
end UefiBoot
