import UefiBoot.Lib.Components
import UefiBoot.Lib.Select
import UefiBoot.Text.Strings

/-!
# `Fs.Mounts` — `VfsMountPath` and `VfsFindMount`

The mount table is filled from the front and never changed. `VfsFindMount` goes through it and keeps the mount whose
path is the longest prefix of the path looked for; a mount of the same length as the best so far does not replace
it. `PathHasPrefix` compares bytes, but a mount path that has no slash at its end is a prefix in its sense exactly
when it is one component by component (`value_pathHasPrefix`).

The lengths are taken with `StringLength`, which does not return for a mount path of 2 ^ 32 bytes or more, so that the
results are about tables without such paths. No byte behind a terminator is read in any case
(`vfsFindMount_inBounds`).
-/

namespace UefiBoot
namespace Vfs

open Lib (CString Traced)
open Lib.CString (Read)
open Strings (stringEquals stringLength)

inductive FileSystemType where
  | unknown
  | fat32
  | ext2
  | ramFs
  | tmpFs
  | procFs
  | devFs
  | sysFs
  | initRamFs
  deriving DecidableEq, Repr

abbrev kMaxMounts : Nat := 12

structure VfsMount where
  path   : Option CString := none
  type   : FileSystemType := .unknown
  active : Bool := false

/-- `g_Mounts`, and its counter in `g_Status`. -/
structure MountTable where
  mounts                 : Fin kMaxMounts → VfsMount := fun _ => {}
  mountedFilesystemCount : UInt32 := 0

/-- `'/'`. -/
def slash : UInt8 := 0x2F

/-- `"/"`. -/
def root : CString := CString.ofBytes [slash]

/-- `VfsMountPath`. -/
def vfsMountPath (s : MountTable) (path : Option CString) (type : FileSystemType) : Bool × MountTable :=
  if h : path.isNone ∨ type = .unknown ∨ kMaxMounts ≤ s.mountedFilesystemCount.toNat then
    (false, s)
  else
    (true,
      { mounts := Function.update s.mounts ⟨s.mountedFilesystemCount.toNat, by omega⟩
          { path := path, type := type, active := true }
        mountedFilesystemCount := s.mountedFilesystemCount + 1 })

/-- `for (i = 0; i < prefix_length; i++) if (path[i] != prefix[i]) return false;`, for one index. -/
def differAt (path start : CString) (i : Nat) : Traced Read (Option Unit) := do
  let x ← path.read i
  let y ← start.read i
  pure (if x ≠ y then some () else none)

/-- What follows the loop: `path[prefix_length] == '\0' || path[prefix_length] == '/'`. -/
def endsComponent (path : CString) (i : Nat) : Traced Read (Option Bool) := do
  let x ← path.read i
  pure (some (x == 0 || x == slash))

/-- `PathHasPrefix`. -/
def pathHasPrefix (path start : Option CString) (turns : Nat) : Traced Read (Option Bool) :=
  match path, start with
  | some path, some start =>
    Traced.andThen (stringLength (some start) turns) fun prefixLength =>
      if prefixLength = 0 then
        pure (some false)
      else
        Traced.andThen (stringEquals (some start) (some root) turns) fun isRoot =>
          if isRoot then do
            let x ← path.read 0
            pure (some (x == slash))
          else do
            match ← Traced.search (differAt path start) 0 prefixLength.toNat with
            | some () => pure (some false)
            | none    => endsComponent path prefixLength.toNat
  | _, _ => pure (some false)

/-- `best` and `best_length`. -/
abbrev Best : Type := Option (Fin kMaxMounts) × UInt32

/-- One turn of the loop in `VfsFindMount`. -/
def findMountTurn (s : MountTable) (path : Option CString) (turns : Nat) (b : Best) (i : Fin kMaxMounts) :
    Traced Read (Option Best) :=
  if !(s.mounts i).active then
    pure (some b)
  else
    Traced.andThen (pathHasPrefix path (s.mounts i).path turns) fun has =>
      if !has then
        pure (some b)
      else
        Traced.andThen (stringLength (s.mounts i).path turns) fun length =>
          if b.1.isNone ∨ length > b.2 then
            pure (some (some i, length))
          else
            pure (some b)

/-- The loop, over the indices it goes through. -/
def findMountLoop (s : MountTable) (path : Option CString) (turns : Nat) :
    List (Fin kMaxMounts) → Best → Traced Read (Option Best)
  | [], b      => pure (some b)
  | i :: is, b => Traced.andThen (findMountTurn s path turns b i) fun b' => findMountLoop s path turns is b'

/-- The indices of the mounts, in order. -/
def MountTable.indices (s : MountTable) : List (Fin kMaxMounts) :=
  (List.finRange kMaxMounts).filter fun i => decide (i.val < s.mountedFilesystemCount.toNat)

/-- `VfsFindMount`; the null pointer is `some none`. -/
def vfsFindMount (s : MountTable) (path : Option CString) (turns : Nat) : Traced Read (Option (Option (Fin kMaxMounts))) :=
  Traced.andThen (findMountLoop s path turns s.indices (none, 0)) fun b => pure (some b.1)

/-! ## What a prefix is -/

/-- A mount path: the root, or an absolute path without a slash at its end. -/
def MountPath (p : List UInt8) : Prop :=
  p = [slash] ∨ p.head? = some slash ∧ p.getLast? ≠ some slash

/-- A mount path is a prefix of a path component by component; the root is one of every absolute path. -/
def ComponentPrefix (p q : List UInt8) : Prop :=
  if p = [slash] then q.head? = some slash else p.splitOn slash <+: q.splitOn slash

instance (p q : List UInt8) : Decidable (ComponentPrefix p q) :=
  inferInstanceAs (Decidable (if p = [slash] then q.head? = some slash else p.splitOn slash <+: q.splitOn slash))

variable {path start : CString} {turns : Nat} {s : MountTable}

/-! ## `PathHasPrefix` -/

theorem content_root : root.content = [slash] := CString.content_ofBytes (by decide)

theorem MountPath.length_pos (h : MountPath start.content) : start.length ≠ 0 := by
  intro hzero
  have hnil : start.content = [] := List.length_eq_zero_iff.mp (by rw [CString.length_content, hzero])
  unfold MountPath at h
  rw [hnil] at h
  rcases h with h | h
  · cases h
  · cases h.1

/-- The first byte of a path. -/
theorem head_content_iff {x : UInt8} (hx : x ≠ 0) : path.content.head? = some x ↔ path.byte 0 = x := by
  by_cases hlen : path.length = 0
  · have hnil : path.content = [] := List.length_eq_zero_iff.mp (by rw [CString.length_content, hlen])
    have hzero : path.byte 0 = 0 := hlen ▸ path.byte_length
    rw [hnil, hzero]
    exact ⟨fun h => (by cases h), fun h => absurd h.symm hx⟩
  · have hpos : 0 < path.content.length := by
      rw [CString.length_content]
      omega
    rw [List.head?_eq_getElem?, List.getElem?_eq_getElem hpos, CString.getElem_content, Option.some_inj]

theorem value_differAt {i : Nat} :
    (differAt path start i).value = if path.byte i ≠ start.byte i then some () else none := rfl

/-- The loop of `PathHasPrefix` runs to its end when the paths fork at the end of the mount path. -/
theorem search_differAt_eq_none_iff :
    (Traced.search (differAt path start) 0 start.length).value = none ↔ CString.fork start path = start.length := by
  rw [Traced.search_eq_none_iff]
  constructor
  · intro h
    apply CString.fork_eq
    · intro k hk
      refine ⟨CString.byte_ne_zero hk, ?_⟩
      have hsame := h k (Nat.zero_le k) (by omega)
      rw [value_differAt] at hsame
      split at hsame
      · cases hsame
      · next heq => exact (not_not.mp heq).symm
    · exact Or.inl start.byte_length
  · intro hfork k _ hk
    have hsame := (CString.before_fork (a := start) (b := path) (by omega : k < CString.fork start path)).2
    rw [value_differAt, if_neg (not_not.mpr hsame.symm)]

/-- A prefix that is not the root. -/
theorem componentPrefix_iff (hroot : start.content ≠ [slash]) :
    ComponentPrefix start.content path.content ↔
      CString.fork start path = start.length ∧ (path.byte start.length = 0 ∨ path.byte start.length = slash) := by
  unfold ComponentPrefix
  rw [if_neg hroot, Lib.splitOn_isPrefix_iff, CString.content_eq_iff_fork,
    CString.content_append_isPrefix_iff (by decide)]
  tauto

/-- **`PathHasPrefix`** decides whether a mount path is a prefix, component by component. -/
theorem value_pathHasPrefix (hstart : MountPath start.content) (hlen : start.length < 2 ^ 32)
    (hturns : start.length + 1 < turns) :
    (pathHasPrefix (some path) (some start) turns).value =
      some (decide (ComponentPrefix start.content path.content)) := by
  have hnat : (UInt32.ofNat start.length).toNat = start.length := by
    rw [UInt32.toNat_ofNat', Nat.mod_eq_of_lt hlen]
  have hpos : UInt32.ofNat start.length ≠ 0 := by
    intro hzero
    rw [hzero] at hnat
    exact hstart.length_pos hnat.symm
  have hfork : CString.fork start root < turns := by
    have hle := CString.fork_le_left start root
    omega
  unfold pathHasPrefix
  dsimp only
  rw [Traced.value_andThen (Strings.value_stringLength hlen (by omega)), if_neg hpos,
    Traced.value_andThen (Strings.value_stringEquals hfork), content_root]
  by_cases hroot : start.content = [slash]
  · rw [if_pos (decide_eq_true hroot), Traced.value_bind, CString.value_read]
    unfold ComponentPrefix
    simp only [if_pos hroot, head_content_iff (show slash ≠ 0 by decide)]
    rfl
  · rw [if_neg (by simpa using hroot), hnat, Traced.value_bind]
    by_cases hend : CString.fork start path = start.length
    · rw [search_differAt_eq_none_iff.mpr hend]
      show some (path.byte start.length == 0 || path.byte start.length == slash) = _
      congr 1
      rw [Bool.eq_iff_iff, decide_eq_true_iff, componentPrefix_iff hroot, Bool.or_eq_true, beq_iff_eq, beq_iff_eq]
      exact ⟨fun h => ⟨hend, h⟩, fun h => h.2⟩
    · cases hfound : (Traced.search (differAt path start) 0 start.length).value with
      | none => exact absurd (search_differAt_eq_none_iff.mp hfound) hend
      | some u =>
          rw [decide_eq_false fun h => hend ((componentPrefix_iff hroot).mp h).1]
          rfl

/-- Both strings are read up to the place where they fork at most. -/
theorem pathHasPrefix_inBounds (path start : Option CString) (turns : Nat) :
    (pathHasPrefix path start turns).All Read.InBounds := by
  unfold pathHasPrefix
  split
  · next path start =>
      apply Traced.all_andThen (Strings.stringLength_inBounds _ _)
      intro n hn
      have hlen := Strings.stringLength_some hn
      split
      · exact Traced.all_pure _
      · apply Traced.all_andThen (Strings.stringEquals_inBounds _ _ _)
        intro isRoot _
        split
        · rw [Traced.all_bind, CString.all_read]
          exact ⟨Nat.zero_le _, Traced.all_pure _⟩
        · rw [hlen, Traced.all_bind, Traced.all_search_iff]
          constructor
          · intro j _ hj hbefore
            -- up to here the path agrees with the mount path, which has no zero
            have hle : j ≤ path.length := by
              apply CString.le_length
              intro k hk
              have hsame := hbefore k (Nat.zero_le k) hk
              rw [value_differAt] at hsame
              split at hsame
              · cases hsame
              · next heq =>
                  rw [not_not.mp heq]
                  exact CString.byte_ne_zero (by omega)
            unfold differAt
            rw [Traced.all_bind, Traced.all_bind, CString.all_read, CString.all_read]
            exact ⟨hle, (by omega : j ≤ start.length), Traced.all_pure _⟩
          · split
            · exact Traced.all_pure _
            · next hnone =>
                have hend := search_differAt_eq_none_iff.mp hnone
                unfold endsComponent
                rw [Traced.all_bind, CString.all_read]
                exact ⟨hend ▸ CString.fork_le_right start path, Traced.all_pure _⟩
  · exact Traced.all_pure _

/-! ## The table -/

/-- The mounts of a list of calls, in the order in which they are registered. -/
def accept (ms : List (CString × FileSystemType)) (c : Option CString × FileSystemType) :
    List (CString × FileSystemType) :=
  match c with
  | (some path, type) => if type = .unknown ∨ kMaxMounts ≤ ms.length then ms else ms ++ [(path, type)]
  | (none, _)         => ms

def accepted (calls : List (Option CString × FileSystemType)) : List (CString × FileSystemType) :=
  calls.foldl accept []

/-- The table after a list of calls. -/
def build (calls : List (Option CString × FileSystemType)) : MountTable :=
  calls.foldl (fun s c => (vfsMountPath s c.1 c.2).2) {}

/-- The table holds the mounts of a list, from the front. -/
structure Registers (s : MountTable) (ms : List (CString × FileSystemType)) : Prop where
  count  : s.mountedFilesystemCount.toNat = ms.length
  room   : ms.length ≤ kMaxMounts
  mounts : ∀ (i : Fin kMaxMounts) (h : i.val < ms.length), s.mounts i = ⟨some ms[i.val].1, ms[i.val].2, true⟩

variable {ms : List (CString × FileSystemType)}

theorem Registers.mount (h : Registers s ms) (c : Option CString × FileSystemType) :
    Registers (vfsMountPath s c.1 c.2).2 (accept ms c) := by
  obtain ⟨path, type⟩ := c
  have hcount := h.count
  cases path with
  | none =>
      have hnull : (vfsMountPath s none type).2 = s := rfl
      rw [hnull]
      exact h
  | some path =>
      unfold vfsMountPath accept
      dsimp only
      by_cases hrefused : type = .unknown ∨ kMaxMounts ≤ ms.length
      · rw [dif_pos (Or.inr (by rw [hcount]; exact hrefused)), if_pos hrefused]
        exact h
      · have hargs : ¬ ((some path).isNone = true ∨ type = .unknown ∨
            kMaxMounts ≤ s.mountedFilesystemCount.toNat) := by
          rw [hcount]
          exact fun hor => hor.elim (fun hnone => nomatch hnone) hrefused
        have hroom : ms.length < 12 := by
          by_contra hfull
          exact hrefused (Or.inr (Nat.not_lt.mp hfull))
        rw [dif_neg hargs, if_neg hrefused]
        refine ⟨?_, ?_, ?_⟩
        · have hone : (1 : UInt32).toNat = 1 := rfl
          show (s.mountedFilesystemCount + 1).toNat = _
          rw [UInt32.toNat_add, hone, hcount, List.length_append, List.length_singleton]
          omega
        · rw [List.length_append, List.length_singleton]
          exact hroom
        · intro i hi
          rw [List.length_append, List.length_singleton] at hi
          dsimp only
          by_cases hlast : i.val = ms.length
          · have hslot : i = ⟨s.mountedFilesystemCount.toNat, by omega⟩ := Fin.ext (hlast.trans hcount.symm)
            rw [← hslot, Function.update_self]
            have hget : (ms ++ [(path, type)])[i.val] = (path, type) := by
              simp [hlast]
            rw [hget]
          · have hlt : i.val < ms.length := by omega
            rw [Function.update_of_ne fun heq => hlast ((congrArg Fin.val heq).trans hcount), h.mounts i hlt,
              List.getElem_append_left hlt]

theorem registers_foldl (h : Registers s ms) (calls : List (Option CString × FileSystemType)) :
    Registers (calls.foldl (fun s c => (vfsMountPath s c.1 c.2).2) s) (calls.foldl accept ms) := by
  induction calls generalizing s ms with
  | nil => exact h
  | cons c calls ih => exact ih (h.mount c)

/-- **The table registers the accepted mounts in order.** -/
theorem registers_build (calls : List (Option CString × FileSystemType)) :
    Registers (build calls) (accepted calls) :=
  registers_foldl ⟨rfl, by decide, fun i h => absurd h (Nat.not_lt_zero _)⟩ calls

theorem Registers.mem_indices (h : Registers s ms) {i : Fin kMaxMounts} : i ∈ s.indices ↔ i.val < ms.length := by
  unfold MountTable.indices
  rw [List.mem_filter, h.count]
  simp

/-! ## `VfsFindMount` -/

/-- The mount is active, and its path is a prefix of the one looked for. -/
def eligible (s : MountTable) (path : CString) (i : Fin kMaxMounts) : Bool :=
  match (s.mounts i).path with
  | some start => (s.mounts i).active && decide (ComponentPrefix start.content path.content)
  | none       => false

/-- How long the path of a mount is. -/
def pathLength (s : MountTable) (i : Fin kMaxMounts) : Nat :=
  match (s.mounts i).path with
  | some start => start.length
  | none       => 0

/-- `best_length` is the length of `best`. -/
def Tracks (s : MountTable) (b : Best) : Prop := ∀ k, b.1 = some k → b.2.toNat = pathLength s k

/-- One turn keeps the better of the best so far and the mount it looks at. -/
theorem value_findMountTurn {b : Best} {i : Fin kMaxMounts} {type : FileSystemType} (hb : Tracks s b)
    (hi : s.mounts i = ⟨some start, type, true⟩) (hstart : MountPath start.content)
    (hlen : start.length < 2 ^ 32) (hturns : start.length + 1 < turns) :
    ∃ b', (findMountTurn s (some path) turns b i).value = some b' ∧
      b'.1 = Lib.better (eligible s path) (pathLength s) b.1 i ∧ Tracks s b' := by
  have hok : eligible s path i = decide (ComponentPrefix start.content path.content) := by
    unfold eligible
    rw [hi]
    exact Bool.true_and _
  have hkey : pathLength s i = start.length := by
    unfold pathLength
    rw [hi]
  have hnat : (UInt32.ofNat start.length).toNat = start.length := by
    rw [UInt32.toNat_ofNat', Nat.mod_eq_of_lt hlen]
  unfold findMountTurn Lib.better
  rw [hi, hok]
  dsimp only
  rw [if_neg (by simp), Traced.value_andThen (value_pathHasPrefix hstart hlen hturns)]
  by_cases hstarts : ComponentPrefix start.content path.content
  · rw [decide_eq_true hstarts, if_neg (by simp), if_pos rfl,
      Traced.value_andThen (Strings.value_stringLength hlen (by omega))]
    have htaken : Tracks s (some i, UInt32.ofNat start.length) := by
      intro k hk
      cases hk
      rw [hkey]
      exact hnat
    cases hbest : b.1 with
    | none =>
        exact ⟨_, rfl, rfl, htaken⟩
    | some k =>
        have hlt : UInt32.ofNat start.length > b.2 ↔ pathLength s k < pathLength s i := by
          rw [gt_iff_lt, UInt32.lt_iff_toNat_lt, hnat, hb k hbest, hkey]
        dsimp only
        by_cases hbetter : UInt32.ofNat start.length > b.2
        · rw [if_pos (Or.inr hbetter), if_pos (hlt.mp hbetter)]
          exact ⟨_, rfl, rfl, htaken⟩
        · rw [if_neg (fun hor => hor.elim (fun hnone => nomatch hnone) hbetter), if_neg fun h => hbetter (hlt.mpr h)]
          exact ⟨b, rfl, hbest, hb⟩
  · have hskip : (!false) = true := rfl
    rw [decide_eq_false hstarts, if_pos hskip, if_neg (by simp)]
    exact ⟨b, rfl, rfl, hb⟩

/-- The mounts of a list are ones that `VfsFindMount` can measure. -/
def Measurable (ms : List (CString × FileSystemType)) : Prop :=
  ∀ c ∈ ms, MountPath c.1.content ∧ c.1.length < 2 ^ 32

/-- The loop keeps the best of the mounts it has looked at. -/
theorem value_findMountLoop (h : Registers s ms) (hms : Measurable ms)
    (hturns : ∀ c ∈ ms, c.1.length + 1 < turns) (is : List (Fin kMaxMounts)) (his : ∀ i ∈ is, i.val < ms.length)
    {b : Best} (hb : Tracks s b) :
    ∃ b', (findMountLoop s (some path) turns is b).value = some b' ∧
      b'.1 = is.foldl (Lib.better (eligible s path) (pathLength s)) b.1 := by
  induction is generalizing b with
  | nil => exact ⟨b, rfl, rfl⟩
  | cons i is ih =>
      have hi := his i List.mem_cons_self
      have hmem : ms[i.val] ∈ ms := List.getElem_mem hi
      obtain ⟨hstart, hlen⟩ := hms _ hmem
      obtain ⟨b', hvalue, hbest, hb'⟩ := value_findMountTurn hb (h.mounts i hi) hstart hlen (hturns _ hmem)
      obtain ⟨b'', hrest, hall⟩ := ih (fun j hj => his j (List.mem_cons_of_mem i hj)) hb'
      refine ⟨b'', ?_, ?_⟩
      · unfold findMountLoop
        rw [Traced.value_andThen hvalue]
        exact hrest
      · rw [hall, hbest, List.foldl_cons]

theorem value_vfsFindMount (h : Registers s ms) (hms : Measurable ms)
    (hturns : ∀ c ∈ ms, c.1.length + 1 < turns) :
    (vfsFindMount s (some path) turns).value =
      some (Lib.pickBest (eligible s path) (pathLength s) s.indices) := by
  obtain ⟨b, hvalue, hbest⟩ := @value_findMountLoop path turns s ms h hms hturns s.indices
    (fun i hi => h.mem_indices.mp hi) (none, 0) (fun k hk => nomatch hk)
  unfold vfsFindMount Lib.pickBest
  rw [Traced.value_andThen hvalue, ← hbest]
  rfl

/-- No byte behind a terminator is read. -/
theorem vfsFindMount_inBounds (s : MountTable) (path : Option CString) (turns : Nat) :
    (vfsFindMount s path turns).All Read.InBounds := by
  have hturn : ∀ b i, (findMountTurn s path turns b i).All Read.InBounds := by
    intro b i
    unfold findMountTurn
    split
    · exact Traced.all_pure _
    · apply Traced.all_andThen (pathHasPrefix_inBounds _ _ _)
      intro has _
      split
      · exact Traced.all_pure _
      · apply Traced.all_andThen (Strings.stringLength_inBounds _ _)
        intro length _
        split <;> exact Traced.all_pure _
  have hloop : ∀ is b, (findMountLoop s path turns is b).All Read.InBounds := by
    intro is
    induction is with
    | nil => exact fun b => Traced.all_pure _
    | cons i is ih => exact fun b => Traced.all_andThen (hturn b i) fun b' _ => ih b'
  exact Traced.all_andThen (hloop _ _) fun b _ => Traced.all_pure _

/-- The earliest mount among those with the longest path that is a prefix; the null pointer when there is none. -/
def EarliestLongest (ms : List (CString × FileSystemType)) (path : CString) : Option (Fin kMaxMounts) → Prop
  | none   => ∀ c ∈ ms, ¬ ComponentPrefix c.1.content path.content
  | some k => ∃ h : k.val < ms.length, ComponentPrefix ms[k.val].1.content path.content ∧
      ∀ i (hi : i < ms.length), ComponentPrefix ms[i].1.content path.content →
        ms[i].1.length ≤ ms[k.val].1.length ∧ (i < k.val → ms[i].1.length < ms[k.val].1.length)

theorem Registers.eligible_iff (h : Registers s ms) {i : Fin kMaxMounts} (hi : i.val < ms.length) :
    eligible s path i = true ↔ ComponentPrefix ms[i.val].1.content path.content := by
  unfold eligible
  rw [h.mounts i hi]
  simp

theorem Registers.pathLength_eq (h : Registers s ms) {i : Fin kMaxMounts} (hi : i.val < ms.length) :
    pathLength s i = ms[i.val].1.length := by
  unfold pathLength
  rw [h.mounts i hi]

/-- The scan in order finds the earliest of the longest. -/
theorem Registers.pickBest (h : Registers s ms) :
    EarliestLongest ms path (Lib.pickBest (eligible s path) (pathLength s) s.indices) := by
  have hroom := h.room
  cases hpick : Lib.pickBest (eligible s path) (pathLength s) s.indices with
  | none =>
      intro c hc hstarts
      obtain ⟨i, hi, rfl⟩ := List.getElem_of_mem hc
      have hfalse := Lib.pickBest_eq_none_iff.mp hpick ⟨i, by omega⟩ (h.mem_indices.mpr hi)
      rw [(h.eligible_iff hi).mpr hstarts] at hfalse
      cases hfalse
  | some k =>
      obtain ⟨hok, pre, post, hsplit, hpre, hpost⟩ := Lib.pickBest_eq_some hpick
      have hk : k.val < ms.length := h.mem_indices.mp (Lib.pickBest_mem hpick)
      refine ⟨hk, (h.eligible_iff hk).mp hok, fun i hi hstarts => ?_⟩
      have hmem : (⟨i, by omega⟩ : Fin kMaxMounts) ∈ s.indices := h.mem_indices.mpr hi
      have hoki : eligible s path ⟨i, by omega⟩ = true := (h.eligible_iff hi).mpr hstarts
      have hmax := Lib.pickBest_max hpick hmem hoki
      rw [h.pathLength_eq hi, h.pathLength_eq hk] at hmax
      refine ⟨hmax, fun hik => ?_⟩
      -- the indices ascend, so what comes before `k` has been looked at before
      have hsorted : s.indices.Pairwise (· < ·) := (List.pairwise_lt_finRange kMaxMounts).filter _
      rw [hsplit] at hmem hsorted
      rcases List.mem_append.mp hmem with hbefore | hafter
      · have hlt := hpre _ hbefore hoki
        rwa [h.pathLength_eq hi, h.pathLength_eq hk] at hlt
      · have hge : k ≤ (⟨i, by omega⟩ : Fin kMaxMounts) := by
          rcases List.mem_cons.mp hafter with heq | hpost'
          · exact le_of_eq heq.symm
          · exact le_of_lt ((List.pairwise_cons.mp (List.pairwise_append.mp hsorted).2.1).1 _ hpost')
        exact absurd hik (Nat.not_lt.mpr hge)

/-- **`VfsFindMount`** finds the earliest of the longest prefixes, for tables whose paths have fewer than 2 ^ 32 bytes,
    and reads nothing behind a terminator. -/
theorem findMount_earliestLongest (calls : List (Option CString × FileSystemType)) (path : CString)
    (hms : ∀ c ∈ accepted calls, MountPath c.1.content ∧ c.1.length < 2 ^ 32)
    (hturns : ∀ c ∈ accepted calls, c.1.length + 1 < turns) :
    ∃ best, (vfsFindMount (build calls) (some path) turns).value = some best ∧
      EarliestLongest (accepted calls) path best ∧
      (vfsFindMount (build calls) (some path) turns).All Read.InBounds :=
  ⟨_, value_vfsFindMount (registers_build calls) hms hturns, (registers_build calls).pickBest,
    vfsFindMount_inBounds _ _ _⟩

/-- The two usual mounts of a path below `/tmp`. -/
def tmpCalls : List (Option CString × FileSystemType) :=
  [(some root, .ext2), (some (CString.ofBytes [0x2F, 0x74, 0x6D, 0x70]), .tmpFs)]

theorem findMount_earliestLongest_tmp :
    ∃ best, (vfsFindMount (build tmpCalls) (some (CString.ofBytes [0x2F, 0x74, 0x6D, 0x70, 0x2F, 0x61])) 6).value =
        some best ∧
      EarliestLongest (accepted tmpCalls) (CString.ofBytes [0x2F, 0x74, 0x6D, 0x70, 0x2F, 0x61]) best ∧
      (vfsFindMount (build tmpCalls) (some (CString.ofBytes [0x2F, 0x74, 0x6D, 0x70, 0x2F, 0x61])) 6).All
        Read.InBounds := by
  have hroot : root.length = 1 := CString.length_ofBytes (by decide)
  have htmp : (CString.ofBytes [0x2F, 0x74, 0x6D, 0x70]).length = 4 := CString.length_ofBytes (by decide)
  have hcontent : (CString.ofBytes [0x2F, 0x74, 0x6D, 0x70]).content = [0x2F, 0x74, 0x6D, 0x70] :=
    CString.content_ofBytes (by decide)
  have haccepted : accepted tmpCalls =
      [(root, .ext2), (CString.ofBytes [0x2F, 0x74, 0x6D, 0x70], .tmpFs)] := rfl
  apply findMount_earliestLongest
  · intro c hc
    rw [haccepted, List.mem_cons, List.mem_singleton] at hc
    rcases hc with rfl | rfl
    · exact ⟨Or.inl content_root, by rw [hroot]; decide⟩
    · refine ⟨Or.inr ?_, by rw [htmp]; decide⟩
      rw [hcontent]
      decide
  · intro c hc
    rw [haccepted, List.mem_cons, List.mem_singleton] at hc
    rcases hc with rfl | rfl
    · rw [hroot]
      decide
    · rw [htmp]
      decide

/-! ### Mount paths that cannot be measured -/

theorem findMountTurn_never {b : Best} {i : Fin kMaxMounts} {type : FileSystemType}
    (hi : s.mounts i = ⟨some start, type, true⟩) (hlong : 2 ^ 32 ≤ start.length) :
    (findMountTurn s (some path) turns b i).value = none := by
  unfold findMountTurn
  rw [hi]
  dsimp only
  rw [if_neg (by simp)]
  apply Traced.value_andThen_none
  exact Traced.value_andThen_none (Strings.stringLength_never hlong turns) _

theorem findMountLoop_never {i : Fin kMaxMounts} {type : FileSystemType}
    (hi : s.mounts i = ⟨some start, type, true⟩) (hlong : 2 ^ 32 ≤ start.length) {is : List (Fin kMaxMounts)}
    (hmem : i ∈ is) (b : Best) : (findMountLoop s (some path) turns is b).value = none := by
  induction is generalizing b with
  | nil => exact absurd hmem List.not_mem_nil
  | cons j is ih =>
      unfold findMountLoop
      cases hturn : (findMountTurn s (some path) turns b j).value with
      | none => exact Traced.value_andThen_none hturn _
      | some b' =>
          rw [Traced.value_andThen hturn]
          rcases List.mem_cons.mp hmem with rfl | hrest
          · rw [findMountTurn_never hi hlong] at hturn
            cases hturn
          · exact ih hrest b'

/-- **A mount path of 2 ^ 32 bytes or more** keeps `VfsFindMount` from returning. -/
theorem vfsFindMount_never (h : Registers s ms) {c : CString × FileSystemType} (hc : c ∈ ms)
    (hlong : 2 ^ 32 ≤ c.1.length) : (vfsFindMount s (some path) turns).value = none := by
  obtain ⟨i, hi, rfl⟩ := List.getElem_of_mem hc
  have hroom := h.room
  have hslot := h.mounts ⟨i, by omega⟩ hi
  exact Traced.value_andThen_none
    (findMountLoop_never hslot hlong (h.mem_indices.mpr hi) (none, 0)) _

/-- There are mount paths of every length. -/
theorem exists_mountPath_length (n : Nat) : ∃ long : CString, MountPath long.content ∧ long.length = n + 2 := by
  have hbytes : (0 : UInt8) ∉ slash :: List.replicate (n + 1) 0x61 := by
    intro hmem
    rcases List.mem_cons.mp hmem with heq | hrest
    · exact absurd heq (by decide)
    · exact absurd (List.eq_of_mem_replicate hrest) (by decide)
  refine ⟨CString.ofBytes (slash :: List.replicate (n + 1) 0x61), ?_, ?_⟩
  · rw [CString.content_ofBytes hbytes]
    refine Or.inr ⟨rfl, ?_⟩
    rw [List.getLast?_cons, List.getLast?_replicate, if_neg (Nat.succ_ne_zero n), Option.getD_some]
    decide
  · rw [CString.length_ofBytes hbytes, List.length_cons, List.length_replicate]

theorem findMount_not_total :
    ¬ ∀ (calls : List (Option CString × FileSystemType)) (path : CString),
      (∀ c ∈ accepted calls, MountPath c.1.content) →
        ∃ turns best, (vfsFindMount (build calls) (some path) turns).value = some best := by
  intro h
  obtain ⟨long, hpath, hlen⟩ := exists_mountPath_length (2 ^ 32)
  have haccepted : accepted [(some long, FileSystemType.ramFs)] = [(long, .ramFs)] := rfl
  obtain ⟨turns, best, hbest⟩ := h [(some long, .ramFs)] root (by
    intro c hc
    rw [haccepted, List.mem_singleton] at hc
    rw [hc]
    exact hpath)
  have hnever := @vfsFindMount_never root turns _ _ (registers_build [(some long, FileSystemType.ramFs)]) (long, .ramFs)
    (by rw [haccepted]; exact List.mem_singleton_self _) (by dsimp only; omega)
  rw [hnever] at hbest
  cases hbest

end Vfs
end UefiBoot
