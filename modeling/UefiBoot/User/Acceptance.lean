import Mathlib.Order.Bounds.Basic
import UefiBoot.User.AppElf

/-!
# `User.Acceptance` — which images `LoadUserElfImage` accepts, and what it says of them

`User.Elf` follows the loader header by header. Here its answer is put against the list of `PT_LOAD` headers of the
image: as long as no sum passes `2 ^ 64`, `loader_accepts_iff` says in integers which images are accepted, and that
the hull is the least start and the greatest end of the segments.

The entry point is only compared with that hull. `accepted_entry_between` is what this leaves of "the entry point is
in a segment": it is in one, or between two (`sparseImage_entry_in_gap`).
-/

namespace UefiBoot
namespace UserElf

open Lib (ByteRange Traced)

/-! ## The segments of an image -/

/-- The program header table, in its order. -/
def Elf64Header.programs (header : Elf64Header) (image : Lib.Bytes) : List Elf64ProgramHeader :=
  (List.range' 0 header.programHeaderCount.toNat).map (header.program image)

def Elf64ProgramHeader.loads (p : Elf64ProgramHeader) : Bool := p.type == kElfLoadSegment

/-- The `PT_LOAD` headers. -/
def Elf64Header.segments (header : Elf64Header) (image : Lib.Bytes) : List Elf64ProgramHeader :=
  (header.programs image).filter Elf64ProgramHeader.loads

/-- The end of a segment in memory, as an integer. -/
def Elf64ProgramHeader.memoryEnd (p : Elf64ProgramHeader) : Nat := p.virtualAddress.toNat + p.memorySize.toNat

/-- The end of its bytes in the file, as an integer. -/
def Elf64ProgramHeader.fileEnd (p : Elf64ProgramHeader) : Nat := p.offset.toNat + p.fileSize.toNat

/-- `a` is in the memory range of the segment. -/
def Elf64ProgramHeader.Covers (p : Elf64ProgramHeader) (a : UInt64) : Prop :=
  p.virtualAddress.toNat ≤ a.toNat ∧ a.toNat < p.memoryEnd

/-- The addresses at which segments start. -/
def starts (segments : List Elf64ProgramHeader) : Set Nat := {a | ∃ p ∈ segments, p.virtualAddress.toNat = a}

/-- The addresses at which segments end. -/
def stops (segments : List Elf64ProgramHeader) : Set Nat := {a | ∃ p ∈ segments, p.memoryEnd = a}

/-- None of the loader's sums passes `2 ^ 64`. -/
structure NoWrap (image : Lib.Bytes) (header : Elf64Header) : Prop where
  table  : header.programHeaderOffset.toNat + 56 * header.programHeaderCount.toNat < 2 ^ 64
  file   : ∀ p ∈ header.segments image, p.fileEnd < 2 ^ 64
  memory : ∀ p ∈ header.segments image, p.memoryEnd < 2 ^ 64

/-- **What an image needs**, in integers. -/
structure Acceptable (image : Lib.Bytes) (imageSize : UInt64) (header : Elf64Header) : Prop where
  valid   : validateElf64Header header imageSize = true
  sizes   : ∀ p ∈ header.segments image, p.fileSize.toNat ≤ p.memorySize.toNat
  inside  : ∀ p ∈ header.segments image, p.fileEnd ≤ imageSize.toNat
  memory  : ∀ p ∈ header.segments image, 0 < p.memorySize.toNat
  loads   : header.segments image ≠ []
  entry   : ∃ lowest highest, IsLeast (starts (header.segments image)) lowest ∧
    IsGreatest (stops (header.segments image)) highest ∧ lowest ≤ header.entry.toNat ∧ header.entry.toNat < highest

variable {image : Lib.Bytes} {imageSize : UInt64} {header : Elf64Header} {p : Elf64ProgramHeader}
  {ps : List Elf64ProgramHeader} {loaded : UserElfImage}

theorem mem_programs : p ∈ header.programs image ↔
    ∃ i < header.programHeaderCount.toNat, header.program image i = p := by
  unfold Elf64Header.programs
  rw [List.mem_map]
  constructor
  · rintro ⟨i, hi, rfl⟩
    rw [List.mem_range'_1] at hi
    exact ⟨i, by omega, rfl⟩
  · rintro ⟨i, hi, rfl⟩
    exact ⟨i, List.mem_range'_1.mpr (by omega), rfl⟩

theorem mem_segments :
    p ∈ header.segments image ↔ p ∈ header.programs image ∧ p.type = kElfLoadSegment := by
  unfold Elf64Header.segments Elf64ProgramHeader.loads
  rw [List.mem_filter, beq_iff_eq]

theorem length_programs : (header.programs image).length = header.programHeaderCount.toNat := by
  unfold Elf64Header.programs
  rw [List.length_map, List.length_range']

/-- A header that does not stop the loader is of another type, or passes the three checks in integers. -/
theorem not_rejected_iff (hfile : p.fileEnd < 2 ^ 64) (hmemory : p.memoryEnd < 2 ^ 64)
    (hload : p.type = kElfLoadSegment) :
    ¬ p.Rejected imageSize ↔
      p.fileSize.toNat ≤ p.memorySize.toNat ∧ p.fileEnd ≤ imageSize.toNat ∧ 0 < p.memorySize.toNat := by
  unfold Elf64ProgramHeader.fileEnd at hfile ⊢
  unfold Elf64ProgramHeader.memoryEnd at hmemory
  unfold Elf64ProgramHeader.Rejected
  rw [gt_iff_lt, gt_iff_lt, UInt64.lt_iff_toNat_lt, UInt64.lt_iff_toNat_lt, UInt64.le_iff_toNat_le,
    UInt64.toNat_add, UInt64.toNat_add, Nat.mod_eq_of_lt hfile, Nat.mod_eq_of_lt hmemory]
  constructor
  · intro h
    refine ⟨?_, ?_, ?_⟩
    · by_contra hbad
      exact h ⟨hload, Or.inl (by omega)⟩
    · by_contra hbad
      exact h ⟨hload, Or.inr (Or.inl (by omega))⟩
    · by_contra hbad
      exact h ⟨hload, Or.inr (Or.inr (by omega))⟩
  · rintro ⟨hsize, hinside, hpos⟩ ⟨-, hbad | hbad | hbad⟩
    · omega
    · omega
    · omega

/-- The last check refuses a memory range that wraps, and an empty one. -/
theorem memoryEnd_of_accepted (h : ¬ p.Rejected imageSize) (hload : p.type = kElfLoadSegment) :
    (p.virtualAddress + p.memorySize).toNat = p.memoryEnd ∧ p.virtualAddress.toNat < p.memoryEnd := by
  have hend : ¬ p.virtualAddress + p.memorySize ≤ p.virtualAddress :=
    fun hbad => h ⟨hload, Or.inr (Or.inr hbad)⟩
  rw [UInt64.le_iff_toNat_le, UInt64.toNat_add] at hend
  have hva := p.virtualAddress.toNat_lt
  have hsize := p.memorySize.toNat_lt
  unfold Elf64ProgramHeader.memoryEnd
  rw [UInt64.toNat_add]
  omega

/-! ## The hull in integers -/

/-- Each segment of the table is counted. -/
theorem segmentCount_foldl (hcount : loaded.segmentCount.toNat + ps.length ≤ 65535) :
    (ps.foldl (fun loaded p => p.enter loaded) loaded).segmentCount.toNat =
      loaded.segmentCount.toNat + (ps.filter Elf64ProgramHeader.loads).length := by
  induction ps generalizing loaded with
  | nil => rfl
  | cons p ps ih =>
      rw [List.length_cons] at hcount
      rw [List.foldl_cons, List.filter_cons]
      have hone : (1 : UInt16).toNat = 1 := rfl
      unfold Elf64ProgramHeader.loads at ih ⊢
      by_cases hload : p.type = kElfLoadSegment
      · have hnext : (p.enter loaded).segmentCount.toNat = loaded.segmentCount.toNat + 1 := by
          unfold Elf64ProgramHeader.enter
          rw [if_neg (not_not.mpr hload)]
          show (loaded.segmentCount + 1).toNat = _
          rw [UInt16.toNat_add, hone]
          omega
        rw [ih (by omega), hnext, if_pos (beq_iff_eq.mpr hload), List.length_cons]
        omega
      · have hsame : p.enter loaded = loaded := by
          unfold Elf64ProgramHeader.enter
          rw [if_pos hload]
        rw [hsame, if_neg (by simpa using hload)]
        exact ih (by omega)

/-- **The hull of accepted segments** is the least start and the greatest end. -/
theorem Hull.extremes (h : Hull (header.programs image) loaded)
    (haccept : ∀ p ∈ header.programs image, ¬ p.Rejected imageSize) (hload : header.segments image ≠ []) :
    IsLeast (starts (header.segments image)) loaded.lowestAddress.toNat ∧
      IsGreatest (stops (header.segments image)) loaded.highestAddress.toNat := by
  obtain ⟨p₀, hp₀⟩ := List.exists_mem_of_ne_nil _ hload
  have hcount : loaded.segmentCount ≠ 0 := fun hz => h.none.mp hz p₀ (mem_segments.mp hp₀).1 (mem_segments.mp hp₀).2
  have hbelow : ∀ p ∈ header.segments image, loaded.lowestAddress.toNat ≤ p.virtualAddress.toNat := by
    intro p hp
    obtain ⟨hmem, htype⟩ := mem_segments.mp hp
    exact UInt64.le_iff_toNat_le.mp ((h.lowest hcount _).mpr ⟨p, hmem, htype, UInt64.le_refl _⟩)
  have hstop : ∀ p ∈ header.segments image, (p.virtualAddress + p.memorySize).toNat = p.memoryEnd ∧
      p.virtualAddress.toNat < p.memoryEnd := by
    intro p hp
    obtain ⟨hmem, htype⟩ := mem_segments.mp hp
    exact memoryEnd_of_accepted (haccept p hmem) htype
  have habove : ∀ p ∈ header.segments image, p.memoryEnd ≤ loaded.highestAddress.toNat := by
    intro p hp
    obtain ⟨hmem, htype⟩ := mem_segments.mp hp
    by_contra hlt
    have hself : loaded.highestAddress < loaded.highestAddress := by
      refine (h.highest _).mpr ⟨p, hmem, htype, ?_⟩
      rw [UInt64.lt_iff_toNat_lt, (hstop p hp).1]
      omega
    exact absurd hself (UInt64.lt_irrefl _)
  constructor
  · -- the address itself is at or above the start of some segment
    obtain ⟨p, hmem, htype, hle⟩ := (h.lowest hcount loaded.lowestAddress).mp (UInt64.le_refl _)
    have hp := mem_segments.mpr ⟨hmem, htype⟩
    refine ⟨⟨p, hp, Nat.le_antisymm (UInt64.le_iff_toNat_le.mp hle) (hbelow p hp)⟩, ?_⟩
    rintro a ⟨q, hq, rfl⟩
    exact hbelow q hq
  · -- and the one before the end is below the end of some segment
    have hpos : 0 < loaded.highestAddress.toNat := by
      have hend := (hstop p₀ hp₀).2
      have hle := habove p₀ hp₀
      omega
    have hone : (1 : UInt64).toNat = 1 := rfl
    have hpred : (loaded.highestAddress - 1).toNat = loaded.highestAddress.toNat - 1 := by
      rw [UInt64.toNat_sub_of_le _ _ (by rw [UInt64.le_iff_toNat_le, hone]; exact hpos), hone]
    have hlast : loaded.highestAddress - 1 < loaded.highestAddress := by
      rw [UInt64.lt_iff_toNat_lt, hpred]
      omega
    obtain ⟨p, hmem, htype, hlt⟩ := (h.highest _).mp hlast
    have hp := mem_segments.mpr ⟨hmem, htype⟩
    rw [UInt64.lt_iff_toNat_lt, hpred, (hstop p hp).1] at hlt
    have hle := habove p hp
    refine ⟨⟨p, hp, by omega⟩, ?_⟩
    rintro a ⟨q, hq, rfl⟩
    exact habove q hq

/-! ## The answer -/

/-- What the loader returns when it succeeds, and what it does to the counter either way. -/
theorem loadUserElfImage_value (image : Lib.Bytes) (imageSize : UInt64) (status : UserspaceStatus) :
    let header := Elf64Header.ofImage image
    let r := (loadUserElfImage (some image) imageSize status).value
    (r.1 = true → r.2.1 = { (header.programs image).foldl (fun loaded p => p.enter loaded)
      { entry := header.entry } with valid := true }) ∧
    r.2.2.loadedElfCount = if r.1 then status.loadedElfCount + 1 else status.loadedElfCount := by
  intro header
  have hloop := (@loadSegments_value image imageSize { entry := header.entry } header 0
    header.programHeaderCount.toNat).2
  have hfold : (header.programs image).foldl (fun loaded p => p.enter loaded) { entry := header.entry } =
      (List.range' 0 header.programHeaderCount.toNat).foldl
        (fun loaded j => (header.program image j).enter loaded) { entry := header.entry } := by
    unfold Elf64Header.programs
    rw [List.foldl_map]
  rw [← hfold] at hloop
  unfold loadUserElfImage
  dsimp only
  by_cases hsize : imageSize < kElf64HeaderSize.toUInt64
  · rw [if_pos hsize]
    exact ⟨fun h => absurd h (by simp), rfl⟩
  · rw [if_neg hsize, Traced.value_bind]
    have hheader : (readHeader image).value = header := rfl
    rw [hheader]
    cases hvalid : validateElf64Header header imageSize with
    | false => exact ⟨fun h => absurd h (by simp), rfl⟩
    | true =>
        rw [if_neg (by simp), Traced.value_bind]
        generalize (loadSegments image imageSize header 0 header.programHeaderCount.toNat
          { entry := header.entry }).value = t at hloop ⊢
        obtain ⟨whole, loaded⟩ := t
        cases whole with
        | false => exact ⟨fun h => absurd h (by simp), rfl⟩
        | true =>
            have hhull := hloop rfl
            dsimp only at hhull
            refine ⟨fun h => ?_, ?_⟩
            · have hin : loaded.inHull = true := h
              show { loaded with valid := loaded.inHull } = _
              rw [hin, hhull]
            · show (if loaded.inHull then UserspaceStatus.mk (status.loadedElfCount + 1) else status).loadedElfCount = _
              cases loaded.inHull <;> rfl

/-- What the loader returns about an image that it accepts. -/
theorem accepted_hull {status : UserspaceStatus}
    (h : (loadUserElfImage (some image) imageSize status).value.1 = true) :
    let header := Elf64Header.ofImage image
    let loaded := (loadUserElfImage (some image) imageSize status).value.2.1
    IsLeast (starts (header.segments image)) loaded.lowestAddress.toNat ∧
      IsGreatest (stops (header.segments image)) loaded.highestAddress.toNat ∧
      loaded.segmentCount.toNat = (header.segments image).length := by
  intro header loaded
  obtain ⟨-, hloadable⟩ := (loadUserElfImage_true_iff image imageSize status).mp h
  have hvalue : loaded = _ := (loadUserElfImage_value image imageSize status).1 h
  have hlen : (header.programs image).length ≤ 65535 := by
    have hcount := header.programHeaderCount.toNat_lt
    rw [length_programs]
    omega
  have hhull : Hull (header.programs image)
      ((header.programs image).foldl (fun loaded p => p.enter loaded) { entry := header.entry }) := by
    have hempty : Hull ([] ++ header.programs image) _ :=
      (Hull.empty header.entry).foldl (by rw [List.length_nil, Nat.zero_add]; exact hlen)
    exact hempty
  have haccept : ∀ p ∈ header.programs image, ¬ p.Rejected imageSize := by
    intro p hp
    obtain ⟨i, hi, rfl⟩ := mem_programs.mp hp
    exact hloadable.accepted i hi
  have hsegments : header.segments image ≠ [] := by
    obtain ⟨i, hi, htype, -⟩ := hloadable.below
    exact List.ne_nil_of_mem (mem_segments.mpr ⟨mem_programs.mpr ⟨i, hi, rfl⟩, htype⟩)
  obtain ⟨hlow, hhigh⟩ := hhull.extremes haccept hsegments
  have hcount := @segmentCount_foldl (header.programs image) { entry := header.entry } (by
    show (0 : UInt16).toNat + _ ≤ _
    rw [show (0 : UInt16).toNat = 0 from rfl]
    omega)
  rw [hvalue]
  refine ⟨hlow, hhigh, hcount.trans ?_⟩
  exact Nat.zero_add _

/-- **Which images are accepted**, and what the loader says of them. -/
theorem loader_accepts_iff (image : Lib.Bytes) (imageSize : UInt64) (status : UserspaceStatus)
    (hwrap : NoWrap image (.ofImage image)) :
    let header := Elf64Header.ofImage image
    let r := (loadUserElfImage (some image) imageSize status).value
    (r.1 = true ↔ Acceptable image imageSize header) ∧
    (r.1 = true → IsLeast (starts (header.segments image)) r.2.1.lowestAddress.toNat ∧
      IsGreatest (stops (header.segments image)) r.2.1.highestAddress.toNat ∧
      r.2.1.segmentCount.toNat = (header.segments image).length) ∧
    r.2.2.loadedElfCount = if r.1 then status.loadedElfCount + 1 else status.loadedElfCount := by
  intro header r
  refine ⟨?_, accepted_hull, (loadUserElfImage_value image imageSize status).2⟩
  have hpass : ∀ p ∈ header.segments image, (¬ p.Rejected imageSize ↔
      p.fileSize.toNat ≤ p.memorySize.toNat ∧ p.fileEnd ≤ imageSize.toNat ∧ 0 < p.memorySize.toNat) :=
    fun p hp => not_rejected_iff (hwrap.file p hp) (hwrap.memory p hp) (mem_segments.mp hp).2
  have hsum : ∀ p ∈ header.segments image, (p.virtualAddress + p.memorySize).toNat = p.memoryEnd := by
    intro p hp
    rw [UInt64.toNat_add]
    exact Nat.mod_eq_of_lt (hwrap.memory p hp)
  have hmem : ∀ {i}, i < header.programHeaderCount.toNat → (header.program image i).type = kElfLoadSegment →
      header.program image i ∈ header.segments image :=
    fun hi htype => mem_segments.mpr ⟨mem_programs.mpr ⟨_, hi, rfl⟩, htype⟩
  constructor
  · intro hdone
    obtain ⟨hvalid, hloadable⟩ := (loadUserElfImage_true_iff image imageSize status).mp hdone
    have haccept : ∀ p ∈ header.segments image, ¬ p.Rejected imageSize := by
      intro p hp
      obtain ⟨i, hi, rfl⟩ := mem_programs.mp (mem_segments.mp hp).1
      exact hloadable.accepted i hi
    obtain ⟨hlow, hhigh, -⟩ := accepted_hull hdone
    obtain ⟨i, hi, htype, hbelow⟩ := hloadable.below
    obtain ⟨j, hj, htype', habove⟩ := hloadable.above
    have hpi := hmem hi htype
    have hpj := hmem hj htype'
    rw [UInt64.lt_iff_toNat_lt, hsum _ hpj] at habove
    refine ⟨hvalid, fun p hp => ((hpass p hp).mp (haccept p hp)).1, fun p hp => ((hpass p hp).mp (haccept p hp)).2.1,
      fun p hp => ((hpass p hp).mp (haccept p hp)).2.2, List.ne_nil_of_mem hpi, _, _, hlow, hhigh, ?_, ?_⟩
    · exact Nat.le_trans (hlow.2 ⟨_, hpi, rfl⟩) (UInt64.le_iff_toNat_le.mp hbelow)
    · exact Nat.lt_of_lt_of_le habove (hhigh.2 ⟨_, hpj, rfl⟩)
  · intro h
    obtain ⟨lowest, highest, hlow, hhigh, hle, hlt⟩ := h.entry
    obtain ⟨p, hp, rfl⟩ := hlow.1
    obtain ⟨q, hq, rfl⟩ := hhigh.1
    refine (loadUserElfImage_true_iff image imageSize status).mpr ⟨h.valid, ?_, ?_, ?_⟩
    · intro i hi hreject
      have hpi := hmem hi hreject.1
      exact (hpass _ hpi).mpr ⟨h.sizes _ hpi, h.inside _ hpi, h.memory _ hpi⟩ hreject
    · obtain ⟨i, hi, rfl⟩ := mem_programs.mp (mem_segments.mp hp).1
      exact ⟨i, hi, (mem_segments.mp hp).2, UInt64.le_iff_toNat_le.mpr hle⟩
    · obtain ⟨i, hi, rfl⟩ := mem_programs.mp (mem_segments.mp hq).1
      refine ⟨i, hi, (mem_segments.mp hq).2, ?_⟩
      rw [UInt64.lt_iff_toNat_lt, hsum _ hq]
      exact hlt

theorem acceptable_appElf : NoWrap (buildSyntheticAppElf (fun _ => 0) 136 0x400000)
    (.ofImage (buildSyntheticAppElf (fun _ => 0) 136 0x400000)) := by
  have hheader := @header_appElf (fun _ => 0) 136 0x400000 (by decide)
  have hprogram := @program_appElf (fun _ => 0) 136 0x400000 (by decide)
  generalize buildSyntheticAppElf (fun _ => 0) 136 0x400000 = image at hheader hprogram ⊢
  have hone : ∀ p ∈ (Elf64Header.ofImage image).segments image, p = Elf64ProgramHeader.ofImage image 64 := by
    intro p hp
    obtain ⟨i, hi, rfl⟩ := mem_programs.mp (mem_segments.mp hp).1
    rw [hheader] at hi ⊢
    have hzero : i = 0 := Nat.lt_one_iff.mp hi
    rw [hzero]
    rfl
  constructor
  · rw [hheader]
    decide
  · intro p hp
    rw [hone p hp, hprogram]
    decide
  · intro p hp
    rw [hone p hp, hprogram]
    decide

/-- The image of an application is one the loader decides about without a wrap, and accepts. -/
theorem loader_accepts_iff_appElf :
    (loadUserElfImage (some (buildSyntheticAppElf (fun _ => 0) 136 0x400000)) 136 {}).value.1 = true ↔
      Acceptable (buildSyntheticAppElf (fun _ => 0) 136 0x400000) 136
        (.ofImage (buildSyntheticAppElf (fun _ => 0) 136 0x400000)) :=
  (loader_accepts_iff (buildSyntheticAppElf (fun _ => 0) 136 0x400000) 136 {} acceptable_appElf).1

/-! ## The entry point -/

/-- **The entry point of an accepted image** is in a segment, or has one wholly below it and one wholly above. -/
theorem accepted_entry_between (image : Lib.Bytes) (imageSize : UInt64) (status : UserspaceStatus)
    (h : (loadUserElfImage (some image) imageSize status).value.1 = true) :
    let header := Elf64Header.ofImage image
    (∃ p ∈ header.segments image, p.virtualAddress.toNat ≤ header.entry.toNat) ∧
    (∃ p ∈ header.segments image, header.entry.toNat < p.memoryEnd) ∧
    ((∃ p ∈ header.segments image, p.Covers header.entry) ∨
      (∃ p ∈ header.segments image, p.memoryEnd ≤ header.entry.toNat) ∧
        ∃ p ∈ header.segments image, header.entry.toNat < p.virtualAddress.toNat) := by
  intro header
  obtain ⟨-, hloadable⟩ := (loadUserElfImage_true_iff image imageSize status).mp h
  obtain ⟨i, hi, htype, hbelow⟩ := hloadable.below
  obtain ⟨j, hj, htype', habove⟩ := hloadable.above
  have hpi := mem_segments.mpr ⟨mem_programs.mpr ⟨i, hi, rfl⟩, htype⟩
  have hpj := mem_segments.mpr ⟨mem_programs.mpr ⟨j, hj, rfl⟩, htype'⟩
  rw [UInt64.le_iff_toNat_le] at hbelow
  rw [UInt64.lt_iff_toNat_lt, (memoryEnd_of_accepted (hloadable.accepted j hj) htype').1] at habove
  refine ⟨⟨_, hpi, hbelow⟩, ⟨_, hpj, habove⟩, ?_⟩
  -- the segment that starts below the entry point ends below it too, and the one that ends above it starts above it
  by_cases hin : header.entry.toNat < (header.program image i).memoryEnd
  · exact Or.inl ⟨_, hpi, hbelow, hin⟩
  · by_cases hin' : (header.program image j).virtualAddress.toNat ≤ header.entry.toNat
    · exact Or.inl ⟨_, hpj, hin', habove⟩
    · exact Or.inr ⟨⟨_, hpi, Nat.not_lt.mp hin⟩, ⟨_, hpj, Nat.not_le.mp hin'⟩⟩

/-- Two segments, `[0x1000, 0x1010)` and `[0x3000, 0x3010)`, and the entry point `0x2000`. -/
def sparseImage : Lib.Bytes := fun a =>
  match a.toNat with
  | 0   => 0x7F
  | 1   => 0x45
  | 2   => 0x4C
  | 3   => 0x46
  | 4   => 2
  | 5   => 1
  | 16  => 2
  | 18  => 0x3E
  | 20  => 1
  | 25  => 0x20
  | 32  => 64
  | 52  => 64
  | 54  => 56
  | 56  => 2
  | 64  => 1
  | 81  => 0x10
  | 104 => 0x10
  | 120 => 1
  | 137 => 0x30
  | 160 => 0x10
  | _   => 0

theorem sparseImage_accepted : (loadUserElfImage (some sparseImage) 176 {}).value.1 = true := by decide +kernel

/-- The loader accepts an entry point between two segments. -/
theorem sparseImage_entry_in_gap :
    (loadUserElfImage (some sparseImage) 176 {}).value.1 = true ∧
      ¬ ∃ p ∈ (Elf64Header.ofImage sparseImage).segments sparseImage,
        p.Covers (Elf64Header.ofImage sparseImage).entry := by
  refine ⟨sparseImage_accepted, ?_⟩
  rintro ⟨p, hp, hlow, hhigh⟩
  obtain ⟨i, hi, rfl⟩ := mem_programs.mp (mem_segments.mp hp).1
  have hcount : (Elf64Header.ofImage sparseImage).programHeaderCount.toNat = 2 := by decide
  rw [hcount] at hi
  interval_cases i
  · exact absurd hhigh (by decide)
  · exact absurd hlow (by decide)

theorem accepted_entry_between_sparse :
    (∃ p ∈ (Elf64Header.ofImage sparseImage).segments sparseImage,
      p.virtualAddress.toNat ≤ (Elf64Header.ofImage sparseImage).entry.toNat) ∧
    ∃ p ∈ (Elf64Header.ofImage sparseImage).segments sparseImage,
      (Elf64Header.ofImage sparseImage).entry.toNat < p.memoryEnd :=
  have h := accepted_entry_between sparseImage 176 {} sparseImage_accepted
  ⟨h.1, h.2.1⟩

/-! ## The round trip of an application's image -/

/-- Nothing is written outside the buffer. -/
theorem buildSyntheticAppElf_outside {image : Lib.Bytes} {imageSize base a : UInt64} (ha : imageSize ≤ a) :
    buildSyntheticAppElf image imageSize base a = image a := by
  rw [UInt64.le_iff_toNat_le] at ha
  have hlt := imageSize.toNat_lt
  unfold buildSyntheticAppElf
  split
  · rfl
  · rename_i hsize
    have hmin : 136 ≤ imageSize.toNat := UInt64.le_iff_toNat_le.mp (UInt64.not_lt.mp hsize)
    rw [Lib.Bytes.storeFields_outside (appElfFields_ascending base).fits, Lib.Bytes.fill_apply (by omega)]
    · rw [UInt64.sub_zero, if_neg (by omega)]
    · intro f hf hmem
      have hend := appElfFields_inside hf
      rw [Lib.ByteRange.mem_iff_of_fits ((appElfFields_ascending base).fits f hf)] at hmem
      have hhigh : a.toNat < f.start.toNat + f.size := hmem.2
      omega

/-- **What `BuildSyntheticAppElf` writes, `LoadUserElfImage` reads back**: the segment of 16 bytes at the base
    address, entered at its start. And only the buffer is written. -/
theorem appElf_roundTrip (image : Lib.Bytes) (imageSize base : UInt64) (status : UserspaceStatus)
    (hsize : 136 ≤ imageSize.toNat) (hbase : base.toNat < 2 ^ 64 - 16) :
    let built := buildSyntheticAppElf image imageSize base
    let r := (loadUserElfImage (some built) imageSize status).value
    r.1 = true ∧ r.2.1.entry = base ∧ r.2.1.lowestAddress = base ∧
      r.2.1.highestAddress.toNat = base.toNat + 16 ∧ r.2.1.segmentCount = 1 ∧
      ∀ a, imageSize ≤ a → built a = image a := by
  intro built r
  have hr : r = _ := load_syntheticAppElf (UInt64.le_iff_toNat_le.mpr hsize) (by omega) status
  rw [hr]
  refine ⟨rfl, rfl, rfl, ?_, rfl, fun a ha => buildSyntheticAppElf_outside ha⟩
  have hsixteen : (16 : UInt64).toNat = 16 := rfl
  show (base + 16).toNat = _
  rw [UInt64.toNat_add, hsixteen]
  omega

theorem appElf_roundTrip_app :
    (loadUserElfImage (some (buildSyntheticAppElf (fun _ => 0xCC) 136 0x400000)) 136 {}).value.1 = true ∧
      buildSyntheticAppElf (fun _ => 0xCC) 136 0x400000 136 = 0xCC :=
  have h := appElf_roundTrip (fun _ => 0xCC) 136 0x400000 {} (by decide) (by decide)
  ⟨h.1, h.2.2.2.2.2 136 (by decide)⟩

end UserElf
end UefiBoot
