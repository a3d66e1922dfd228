import UefiBoot.Lib.ByteRange
import UefiBoot.Memory.Pmm

/-!
# `Memory.Paging` — the identity map of `VirtualMemoryManager`, against the x86-64 page walk

`InitIdentityMap4GiB` fills three levels of page tables: one entry of the PML4, four of the page directory
pointer table, and four page directories of 2 MiB pages. Its stores go to physical memory, byte by byte, and
`walk` is the translation the processor makes of what it finds there: it knows the format of an entry and
nothing of who built the tables.

`Built` says which word is where after the two loops; the proof never looks at a loop again after `built`, and
the walk is followed through `Built` alone.
-/

namespace UefiBoot

/-! ## The page walk -/

namespace PageWalk

/-- Bits `lo`, …, `lo + len - 1` of a word. -/
def field (e : UInt64) (lo len : Nat) : Nat := e.toNat / 2 ^ lo % 2 ^ len

def present (e : UInt64) : Bool := field e 0 1 == 1
def writable (e : UInt64) : Bool := field e 1 1 == 1
def pageSize (e : UInt64) : Bool := field e 7 1 == 1

/-- Entry `index` of the table that `e` refers to, in bits 12 to 51. -/
def tableEntry (m : Lib.Bytes) (e : UInt64) (index : Nat) : UInt64 :=
  m.load64 (UInt64.ofNat (field e 12 40 * 4096 + 8 * index))

/-- Where an address is mapped, and whether every level of the walk allows writing. -/
structure Mapping where
  physical : Nat
  writable : Bool
  deriving DecidableEq

/-- Bits 48 to 63 repeat bit 47. -/
def Canonical (v : UInt64) : Prop := v.toNat < 2 ^ 47 ∨ 2 ^ 64 - 2 ^ 47 ≤ v.toNat

/-- **The 4-level walk.** `cr3` holds the address of the PML4; `none` is a page fault. A set page-size bit ends
    the walk at a 1 GiB or a 2 MiB page. -/
def walk (m : Lib.Bytes) (cr3 v : UInt64) : Option Mapping :=
  let pml4e := tableEntry m cr3 (field v 39 9)
  if !present pml4e then none
  else
    let pdpte := tableEntry m pml4e (field v 30 9)
    if !present pdpte then none
    else if pageSize pdpte then
      some { physical := field pdpte 30 22 * 2 ^ 30 + field v 0 30
             writable := writable pml4e && writable pdpte }
    else
      let pde := tableEntry m pdpte (field v 21 9)
      if !present pde then none
      else if pageSize pde then
        some { physical := field pde 21 31 * 2 ^ 21 + field v 0 21
               writable := writable pml4e && writable pdpte && writable pde }
      else
        let pte := tableEntry m pde (field v 12 9)
        if !present pte then none
        else
          some { physical := field pte 12 40 * 2 ^ 12 + field v 0 12
                 writable := writable pml4e && writable pdpte && writable pde && writable pte }

end PageWalk

/-! ## Building the tables -/

namespace VirtualMemoryManager

def kPresentWritable : UInt64 := 0x003
def kPageSize2MiB : UInt64 := 0x080
def kLargePageSize : UInt64 := 2 * 1024 * 1024

/-- `table[i]`. -/
def entryAt (table : UInt64) (i : Nat) : UInt64 := table + UInt64.ofNat i * 8

/-- `g_PageDirectories[pd]`. -/
def directory (image : KernelImage) (pd : Nat) : UInt64 := image.pageDirectories + UInt64.ofNat pd * 4096

/-- `g_PageDirectories[pd][entry]`. -/
def leaf (pd entry : Nat) : UInt64 :=
  UInt64.ofNat (pd * 512 + entry) * kLargePageSize ||| kPresentWritable ||| kPageSize2MiB

/-- One turn of the first loop. -/
def clearEntry (image : KernelImage) (m : Lib.Bytes) (i : Nat) : Lib.Bytes :=
  (m.store64 (entryAt image.pml4 i) 0).store64 (entryAt image.pdpt i) 0

/-- One turn of the second loop. -/
def fillDirectory (image : KernelImage) (m : Lib.Bytes) (pd : Nat) : Lib.Bytes :=
  (m.store64 (entryAt image.pdpt pd) (directory image pd ||| kPresentWritable)).storeLoop 512
    (entryAt (directory image pd)) (leaf pd)

/-- `InitIdentityMap4GiB`: the memory it leaves and the value it loads into `cr3`. -/
def initIdentityMap4GiB (image : KernelImage) (m : Lib.Bytes) : Lib.Bytes × UInt64 :=
  let m := (List.range 512).foldl (clearEntry image) m
  let m := (List.range 4).foldl (fillDirectory image) m
  let m := m.store64 (entryAt image.pml4 0) (image.pdpt ||| kPresentWritable)
  (m, image.pml4)

/-! ## Where the tables are -/

/-- A page-aligned physical address below `2 ^ 52`. -/
def IsTable (a : UInt64) : Prop := a.toNat % 4096 = 0 ∧ a.toNat < 2 ^ 52

instance (a : UInt64) : Decidable (IsTable a) := by
  unfold IsTable
  infer_instance

/-- The six table pages are aligned, below `2 ^ 52`, and different objects. -/
structure Placed (image : KernelImage) : Prop where
  pml4        : IsTable image.pml4
  pdpt        : IsTable image.pdpt
  directories : image.pageDirectories.toNat % 4096 = 0 ∧ image.pageDirectories.toNat + 3 * 4096 < 2 ^ 52
  distinct    : image.pml4 ≠ image.pdpt
  apart       : ∀ pd < 4, image.pml4 ≠ directory image pd ∧ image.pdpt ≠ directory image pd

variable {image : KernelImage} {m : Lib.Bytes} {t u : UInt64} {i j pd : Nat}

theorem toNat_entryAt (ht : IsTable t) (hi : i < 512) : (entryAt t i).toNat = t.toNat + 8 * i := by
  obtain ⟨-, hlt⟩ := ht
  have height : (8 : UInt64).toNat = 8 := rfl
  unfold entryAt
  rw [UInt64.toNat_add, UInt64.toNat_mul, UInt64.toNat_ofNat', height]
  omega

theorem entryAt_aligned (ht : IsTable t) (hi : i < 512) : (entryAt t i).toNat % 8 = 0 := by
  have hal := ht.1
  rw [toNat_entryAt ht hi]
  omega

theorem entryAt_inj (ht : IsTable t) (hi : i < 512) (hj : j < 512) (h : entryAt t i = entryAt t j) : i = j := by
  have hval := congrArg UInt64.toNat h
  rw [toNat_entryAt ht hi, toNat_entryAt ht hj] at hval
  omega

/-- Entries of different tables are different words. -/
theorem entryAt_ne (ht : IsTable t) (hu : IsTable u) (hne : t ≠ u) (hi : i < 512) (hj : j < 512) :
    entryAt t i ≠ entryAt u j := by
  intro h
  apply hne
  apply UInt64.toNat_inj.mp
  have hval := congrArg UInt64.toNat h
  rw [toNat_entryAt ht hi, toNat_entryAt hu hj] at hval
  have hal := ht.1
  have hul := hu.1
  omega

namespace Placed

theorem toNat_directory (h : Placed image) (hpd : pd < 4) :
    (directory image pd).toNat = image.pageDirectories.toNat + 4096 * pd := by
  obtain ⟨-, hlt⟩ := h.directories
  have hpage : (4096 : UInt64).toNat = 4096 := rfl
  unfold directory
  rw [UInt64.toNat_add, UInt64.toNat_mul, UInt64.toNat_ofNat', hpage]
  omega

theorem directory (h : Placed image) (hpd : pd < 4) : IsTable (directory image pd) := by
  obtain ⟨hal, hlt⟩ := h.directories
  unfold IsTable
  rw [h.toNat_directory hpd]
  omega

theorem directory_inj (h : Placed image) {pd' : Nat} (hpd : pd < 4) (hpd' : pd' < 4) (hne : pd ≠ pd') :
    VirtualMemoryManager.directory image pd ≠ VirtualMemoryManager.directory image pd' := by
  intro heq
  have hval := congrArg UInt64.toNat heq
  rw [h.toNat_directory hpd, h.toNat_directory hpd'] at hval
  omega

end Placed

/-! ## What the loops leave -/

/-- **The tables**, as `InitIdentityMap4GiB` leaves them. -/
structure Built (image : KernelImage) (m : Lib.Bytes) : Prop where
  pml4        : ∀ i < 512, m.load64 (entryAt image.pml4 i) =
    if i = 0 then image.pdpt ||| kPresentWritable else 0
  pdpt        : ∀ i < 512, m.load64 (entryAt image.pdpt i) =
    if i < 4 then directory image i ||| kPresentWritable else 0
  directories : ∀ pd < 4, ∀ i < 512, m.load64 (entryAt (directory image pd) i) = leaf pd i

/-- After `n` turns of the first loop. -/
theorem cleared (h : Placed image) (m : Lib.Bytes) {n : Nat} (hn : n ≤ 512) :
    ∀ i < n, ((List.range n).foldl (clearEntry image) m).load64 (entryAt image.pml4 i) = 0 ∧
      ((List.range n).foldl (clearEntry image) m).load64 (entryAt image.pdpt i) = 0 := by
  induction n with
  | zero =>
      intro i hi
      omega
  | succ n ih =>
      intro i hi
      rw [List.range_succ, List.foldl_append, List.foldl_cons, List.foldl_nil]
      generalize (List.range n).foldl (clearEntry image) m = t at ih
      have hal := entryAt_aligned h.pml4 (show i < 512 by omega)
      have hdl := entryAt_aligned h.pdpt (show i < 512 by omega)
      have hpml4 := entryAt_aligned h.pml4 (show n < 512 by omega)
      have hpdpt := entryAt_aligned h.pdpt (show n < 512 by omega)
      unfold clearEntry
      rw [Lib.Bytes.load64_store64_aligned hpdpt hal, Lib.Bytes.load64_store64_aligned hpml4 hal,
        Lib.Bytes.load64_store64_aligned hpdpt hdl, Lib.Bytes.load64_store64_aligned hpml4 hdl]
      -- every store is of zero, so a word that is zero stays zero
      rcases Nat.lt_succ_iff_lt_or_eq.mp hi with hlt | rfl
      · obtain ⟨hzero, hzero'⟩ := ih (by omega) i hlt
        rw [hzero, hzero']
        simp
      · constructor
        · rw [if_pos rfl, ite_self]
        · rw [if_pos rfl]

/-- What one turn of the second loop does to the words of the tables. -/
theorem load64_fillDirectory (h : Placed image) (hpd : pd < 4) :
    (∀ i < 512, (fillDirectory image m pd).load64 (entryAt image.pml4 i) = m.load64 (entryAt image.pml4 i)) ∧
    (∀ i < 512, (fillDirectory image m pd).load64 (entryAt image.pdpt i) =
      if i = pd then directory image pd ||| kPresentWritable else m.load64 (entryAt image.pdpt i)) ∧
    (∀ i < 512, (fillDirectory image m pd).load64 (entryAt (directory image pd) i) = leaf pd i) ∧
    (∀ pd' < 4, pd' ≠ pd → ∀ i < 512, (fillDirectory image m pd).load64 (entryAt (directory image pd') i) =
      m.load64 (entryAt (directory image pd') i)) := by
  have hdir := h.directory hpd
  have hdiral : ∀ i < 512, (entryAt (directory image pd) i).toNat % 8 = 0 := fun i hi => entryAt_aligned hdir hi
  have hpdal := entryAt_aligned h.pdpt (show pd < 512 by omega)
  obtain ⟨hapart, hapart'⟩ := h.apart pd hpd
  unfold fillDirectory
  refine ⟨fun i hi => ?_, fun i hi => ?_, fun i hi => ?_, fun pd' hpd' hne i hi => ?_⟩
  · have hal := entryAt_aligned h.pml4 hi
    rw [Lib.Bytes.storeLoop_other hdiral hal fun j hj => entryAt_ne h.pml4 hdir hapart hi hj,
      Lib.Bytes.load64_store64_aligned hpdal hal,
      if_neg (entryAt_ne h.pml4 h.pdpt h.distinct hi (by omega))]
  · have hal := entryAt_aligned h.pdpt hi
    rw [Lib.Bytes.storeLoop_other hdiral hal fun j hj => entryAt_ne h.pdpt hdir hapart' hi hj,
      Lib.Bytes.load64_store64_aligned hpdal hal]
    by_cases heq : i = pd
    · rw [if_pos heq, heq, if_pos rfl]
    · rw [if_neg heq, if_neg fun he => heq (entryAt_inj h.pdpt hi (by omega) he)]
  · exact Lib.Bytes.storeLoop_stored hdiral (fun i hi j hj he => entryAt_inj hdir hi hj he) hi
  · have hdir' := h.directory hpd'
    have hal := entryAt_aligned hdir' hi
    obtain ⟨-, hother⟩ := h.apart pd' hpd'
    rw [Lib.Bytes.storeLoop_other hdiral hal
        fun j hj => entryAt_ne hdir' hdir (h.directory_inj hpd' hpd hne) hi hj,
      Lib.Bytes.load64_store64_aligned hpdal hal,
      if_neg (entryAt_ne hdir' h.pdpt (Ne.symm hother) hi (by omega))]

/-- After `n` turns of the second loop, from tables that the first loop has cleared. -/
theorem filled (h : Placed image) (hclear : ∀ i < 512, m.load64 (entryAt image.pml4 i) = 0 ∧
    m.load64 (entryAt image.pdpt i) = 0) {n : Nat} (hn : n ≤ 4) :
    let t := (List.range n).foldl (fillDirectory image) m
    (∀ i < 512, t.load64 (entryAt image.pml4 i) = 0) ∧
    (∀ i < 512, t.load64 (entryAt image.pdpt i) =
      if i < n then directory image i ||| kPresentWritable else 0) ∧
    (∀ pd < n, ∀ i < 512, t.load64 (entryAt (directory image pd) i) = leaf pd i) := by
  induction n with
  | zero =>
      refine ⟨fun i hi => (hclear i hi).1, fun i hi => ?_, fun pd hpd => by omega⟩
      rw [if_neg (by omega)]
      exact (hclear i hi).2
  | succ n ih =>
      obtain ⟨hpml4, hpdpt, hdirs⟩ := ih (by omega)
      rw [List.range_succ, List.foldl_append, List.foldl_cons, List.foldl_nil]
      generalize (List.range n).foldl (fillDirectory image) m = t at hpml4 hpdpt hdirs
      obtain ⟨hpml4', hpdpt', hdir', hdirs'⟩ := @load64_fillDirectory image t n h (by omega)
      refine ⟨fun i hi => ?_, fun i hi => ?_, fun pd hpd i hi => ?_⟩
      · rw [hpml4' i hi, hpml4 i hi]
      · rw [hpdpt' i hi, hpdpt i hi]
        by_cases heq : i = n
        · rw [if_pos heq, if_pos (by omega), heq]
        · have hiff : i < n ↔ i < n + 1 := by omega
          simp only [if_neg heq, hiff]
      · by_cases heq : pd = n
        · rw [heq]
          exact hdir' i hi
        · rw [hdirs' pd (by omega) heq i hi]
          exact hdirs pd (by omega) i hi

/-- **`InitIdentityMap4GiB` builds the tables.** -/
theorem built (h : Placed image) (m : Lib.Bytes) : Built image (initIdentityMap4GiB image m).1 := by
  have hclear := cleared h m (Nat.le_refl 512)
  obtain ⟨hpml4, hpdpt, hdirs⟩ := filled h hclear (Nat.le_refl 4)
  unfold initIdentityMap4GiB
  dsimp only
  generalize (List.range 4).foldl (fillDirectory image) _ = t at hpml4 hpdpt hdirs
  have hlast := entryAt_aligned h.pml4 (show 0 < 512 by omega)
  constructor
  · intro i hi
    rw [Lib.Bytes.load64_store64_aligned hlast (entryAt_aligned h.pml4 hi)]
    by_cases hz : i = 0
    · rw [if_pos (by rw [hz]), if_pos hz]
    · rw [if_neg fun he => hz (entryAt_inj h.pml4 hi (by omega) he), if_neg hz]
      exact hpml4 i hi
  · intro i hi
    rw [Lib.Bytes.load64_store64_aligned hlast (entryAt_aligned h.pdpt hi),
      if_neg (entryAt_ne h.pdpt h.pml4 (Ne.symm h.distinct) hi (by omega))]
    exact hpdpt i hi
  · intro pd hpd i hi
    have hdir := h.directory hpd
    rw [Lib.Bytes.load64_store64_aligned hlast (entryAt_aligned hdir hi),
      if_neg (entryAt_ne hdir h.pml4 (Ne.symm (h.apart pd hpd).1) hi (by omega))]
    exact hdirs pd hpd i hi

/-! ## The walk of the tables -/

open PageWalk

/-- Flags below the alignment of an address are added to it. -/
theorem toNat_or_low {a b : UInt64} {k : Nat} (ha : a.toNat % 2 ^ k = 0) (hb : b.toNat < 2 ^ k) :
    (a ||| b).toNat = a.toNat + b.toNat := by
  obtain ⟨q, hq⟩ := Nat.dvd_of_mod_eq_zero ha
  rw [UInt64.toNat_or, hq, ← Nat.two_pow_add_eq_or_of_lt hb q]

/-- An entry that holds the address of a table, whatever its low bits are, leads to that table. -/
theorem tableEntry_eq (ht : IsTable t) {e : UInt64} {flags : Nat} (hflags : flags < 4096)
    (he : e.toNat = t.toNat + flags) (hi : i < 512) : tableEntry m e i = m.load64 (entryAt t i) := by
  obtain ⟨hal, hlt⟩ := ht
  unfold tableEntry
  congr 1
  apply UInt64.toNat_inj.mp
  rw [toNat_entryAt ⟨hal, hlt⟩ hi, UInt64.toNat_ofNat']
  unfold field
  rw [he]
  omega

/-- The entries that refer to tables are present and writable, and no large pages. -/
theorem tablePointer (ht : IsTable t) :
    (t ||| kPresentWritable).toNat = t.toNat + 3 ∧ present (t ||| kPresentWritable) = true ∧
    writable (t ||| kPresentWritable) = true ∧ pageSize (t ||| kPresentWritable) = false := by
  obtain ⟨hal, hlt⟩ := ht
  have hflags : kPresentWritable.toNat = 3 := rfl
  have hval : (t ||| kPresentWritable).toNat = t.toNat + 3 := by
    rw [@toNat_or_low t kPresentWritable 12 (by omega) (by rw [hflags]; decide), hflags]
  refine ⟨hval, ?_, ?_, ?_⟩
  · unfold present field
    rw [hval, beq_iff_eq]
    omega
  · unfold writable field
    rw [hval, beq_iff_eq]
    omega
  · unfold pageSize field
    rw [hval, beq_eq_false_iff_ne]
    omega

/-- The leaves are present, writable 2 MiB pages, in order. -/
theorem leaf_bits {pd e : Nat} (hpd : pd < 4) (he : e < 512) :
    present (leaf pd e) = true ∧ writable (leaf pd e) = true ∧ pageSize (leaf pd e) = true ∧
    field (leaf pd e) 21 31 = pd * 512 + e := by
  have hsize : kLargePageSize.toNat = 2 ^ 21 := rfl
  have hbase : (UInt64.ofNat (pd * 512 + e) * kLargePageSize).toNat = (pd * 512 + e) * 2 ^ 21 := by
    rw [UInt64.toNat_mul, UInt64.toNat_ofNat', hsize]
    omega
  have hval : (leaf pd e).toNat = (pd * 512 + e) * 2 ^ 21 + 0x83 := by
    have hflags : (kPresentWritable ||| kPageSize2MiB).toNat = 0x83 := rfl
    unfold leaf
    rw [UInt64.or_assoc, @toNat_or_low _ _ 21 (by rw [hbase]; omega) (by rw [hflags]; decide), hbase, hflags]
  refine ⟨?_, ?_, ?_, ?_⟩
  · unfold present field
    rw [hval, beq_iff_eq]
    omega
  · unfold writable field
    rw [hval, beq_iff_eq]
    omega
  · unfold pageSize field
    rw [hval, beq_iff_eq]
    omega
  · unfold field
    rw [hval]
    omega

theorem present_zero : present 0 = false := rfl

theorem field_lt (v : UInt64) (lo len : Nat) : field v lo len < 2 ^ len := Nat.mod_lt _ (Nat.two_pow_pos len)

/-- The walk reads the first two levels in the PML4 and the pointer table. -/
theorem walk_pml4 (h : Placed image) (hb : Built image m) (v : UInt64) :
    tableEntry m image.pml4 (field v 39 9) =
      if field v 39 9 = 0 then image.pdpt ||| kPresentWritable else 0 := by
  rw [tableEntry_eq h.pml4 (by decide) (Nat.add_zero _).symm (field_lt v 39 9)]
  exact hb.pml4 _ (field_lt v 39 9)

theorem walk_pdpt (h : Placed image) (hb : Built image m) (v : UInt64) :
    tableEntry m (image.pdpt ||| kPresentWritable) (field v 30 9) =
      if field v 30 9 < 4 then directory image (field v 30 9) ||| kPresentWritable else 0 := by
  rw [tableEntry_eq h.pdpt (by decide) (tablePointer h.pdpt).1 (field_lt v 30 9)]
  exact hb.pdpt _ (field_lt v 30 9)

theorem walk_directory (h : Placed image) (hb : Built image m) (hpd : pd < 4) (v : UInt64) :
    tableEntry m (directory image pd ||| kPresentWritable) (field v 21 9) = leaf pd (field v 21 9) := by
  rw [tableEntry_eq (h.directory hpd) (by decide) (tablePointer (h.directory hpd)).1 (field_lt v 21 9)]
  exact hb.directories pd hpd _ (field_lt v 21 9)

/-- **What the tables say of an address.** Bits 48 to 63 are not looked at; below 4 GiB the others are the physical
    address, and every level allows writing. -/
theorem walk_built (h : Placed image) (hb : Built image m) (v : UInt64) :
    walk m image.pml4 v =
      if v.toNat % 2 ^ 48 < 2 ^ 32 then some { physical := v.toNat % 2 ^ 48, writable := true } else none := by
  obtain ⟨-, hpres, hwrite, -⟩ := tablePointer h.pdpt
  unfold walk
  dsimp only
  rw [walk_pml4 h hb]
  by_cases hpml4 : field v 39 9 = 0
  · rw [if_pos hpml4, walk_pdpt h hb, hpres]
    by_cases hpd : field v 30 9 < 4
    · obtain ⟨-, hpres', hwrite', hsize'⟩ := tablePointer (h.directory hpd)
      obtain ⟨hpres'', hwrite'', hsize'', hframe⟩ := leaf_bits hpd (field_lt v 21 9)
      have haddr : (field v 30 9 * 512 + field v 21 9) * 2 ^ 21 + field v 0 21 = v.toNat % 2 ^ 48 := by
        unfold field at hpml4 ⊢
        omega
      have hlow : v.toNat % 2 ^ 48 < 2 ^ 32 := by
        unfold field at hpml4 hpd
        omega
      rw [if_pos hpd, walk_directory h hb hpd, hpres', hsize', hpres'', hsize'', hwrite, hwrite', hwrite'', hframe,
        haddr, if_pos hlow]
      rfl
    · -- no entry of the pointer table beyond the fourth
      have hhigh : ¬ v.toNat % 2 ^ 48 < 2 ^ 32 := by
        unfold field at hpd
        omega
      rw [if_neg hpd, present_zero, if_neg hhigh]
      rfl
  · have hhigh : ¬ v.toNat % 2 ^ 48 < 2 ^ 32 := by
      unfold field at hpml4
      omega
    rw [if_neg hpml4, present_zero, if_neg hhigh]
    rfl

/-- Exactly the addresses below 4 GiB are mapped to themselves. -/
theorem walk_self_iff (h : Placed image) (m : Lib.Bytes) (v : UInt64) :
    walk (initIdentityMap4GiB image m).1 (initIdentityMap4GiB image m).2 v =
      some { physical := v.toNat, writable := true } ↔ v.toNat < 2 ^ 32 := by
  have hcr3 : (initIdentityMap4GiB image m).2 = image.pml4 := rfl
  rw [hcr3, walk_built h (built h m)]
  constructor
  · intro hself
    split at hself
    · rename_i hlow
      have hval : v.toNat % 2 ^ 48 = v.toNat := congrArg Mapping.physical (Option.some.inj hself)
      omega
    · exact absurd hself (by simp)
  · intro hlow
    have hval : v.toNat % 2 ^ 48 = v.toNat := by omega
    rw [hval, if_pos hlow]

/-- **The identity map.** Below 4 GiB every address is mapped to itself, and every level allows writing; no
    other canonical address is mapped. -/
theorem walk_identity (h : Placed image) (m : Lib.Bytes) (v : UInt64) :
    (v.toNat < 2 ^ 32 → walk (initIdentityMap4GiB image m).1 (initIdentityMap4GiB image m).2 v =
      some { physical := v.toNat, writable := true }) ∧
    (Canonical v → 2 ^ 32 ≤ v.toNat →
      walk (initIdentityMap4GiB image m).1 (initIdentityMap4GiB image m).2 v = none) := by
  refine ⟨(walk_self_iff h m v).mpr, fun hcan hv => ?_⟩
  have hcr3 : (initIdentityMap4GiB image m).2 = image.pml4 := rfl
  rw [hcr3, walk_built h (built h m), if_neg]
  have hlt := v.toNat_lt
  rcases hcan with hlow | hhigh
  · omega
  · omega

/-- Tables in one place after another. -/
theorem walk_identity_example :
    Placed ⟨0x300000, 0x320000, 0x321000, 0x322000⟩ ∧
    walk (initIdentityMap4GiB ⟨0x300000, 0x320000, 0x321000, 0x322000⟩ fun _ => 0xAA).1
      (initIdentityMap4GiB ⟨0x300000, 0x320000, 0x321000, 0x322000⟩ fun _ => 0xAA).2 0xB8000 =
        some { physical := 0xB8000, writable := true } := by
  have hplaced : Placed ⟨0x300000, 0x320000, 0x321000, 0x322000⟩ :=
    ⟨by decide, by decide, by decide, by decide, by decide⟩
  exact ⟨hplaced, (walk_identity hplaced (fun _ => 0xAA) 0xB8000).1 (by decide)⟩

end VirtualMemoryManager
end UefiBoot
