import UefiBoot.Lib.Fields
import UefiBoot.User.Elf

/-!
# `User.AppElf` — `BuildSyntheticAppElf`, the image every application is launched from

The image is a header, one program header and room for 16 bytes of code, written field by field into a zeroed
buffer. `load_syntheticAppElf` is what `LoadUserElfImage` makes of it: the segment `[base, base + 16)` with its
start as the entry point.
-/

namespace UefiBoot
namespace UserElf

open Lib (Field Traced)

/-- The header that `BuildSyntheticAppElf` writes, and behind it the program header. -/
def appElfFields (baseAddress : UInt64) : List Field :=
  [⟨0, 1, 0x7F⟩, ⟨1, 1, 0x45⟩, ⟨2, 1, 0x4C⟩, ⟨3, 1, 0x46⟩, ⟨4, 1, kElfClass64.toNat⟩, ⟨5, 1, kElfDataLittleEndian.toNat⟩,
   ⟨16, 2, kElfTypeExecutable.toNat⟩,
   ⟨18, 2, kElfMachineX86_64.toNat⟩,
   ⟨20, 4, kElfVersionCurrent.toNat⟩,
   ⟨24, 8, baseAddress.toNat⟩,
   ⟨32, 8, kElf64HeaderSize.toNat⟩,
   ⟨52, 2, kElf64HeaderSize.toNat⟩,
   ⟨54, 2, kElf64ProgramHeaderSize.toNat⟩,
   ⟨56, 2, 1⟩,
   ⟨64, 4, kElfLoadSegment.toNat⟩,
   ⟨72, 8, kElf64HeaderSize.toNat + kElf64ProgramHeaderSize.toNat⟩,
   ⟨80, 8, baseAddress.toNat⟩,
   ⟨88, 8, baseAddress.toNat⟩,
   ⟨96, 8, 16⟩,
   ⟨104, 8, 16⟩,
   ⟨112, 8, 0x1000⟩]

/-- The size of the buffer that the launcher passes. -/
def kAppImageSize : UInt64 := kElf64HeaderSize.toUInt64 + kElf64ProgramHeaderSize.toUInt64 + 16

/-- `BuildSyntheticAppElf`, on a buffer that is not null. -/
def buildSyntheticAppElf (image : Lib.Bytes) (imageSize baseAddress : UInt64) : Lib.Bytes :=
  if imageSize < kAppImageSize then image
  else (image.fill 0 imageSize.toNat 0).storeFields (appElfFields baseAddress)

variable {image : Lib.Bytes} {imageSize base : UInt64}

/-- Where the fields are does not depend on the base address. -/
theorem appElfFields_layout (base : UInt64) : (appElfFields base).map Field.range =
    [⟨0, 1⟩, ⟨1, 1⟩, ⟨2, 1⟩, ⟨3, 1⟩, ⟨4, 1⟩, ⟨5, 1⟩, ⟨16, 2⟩, ⟨18, 2⟩, ⟨20, 4⟩, ⟨24, 8⟩, ⟨32, 8⟩, ⟨52, 2⟩, ⟨54, 2⟩, ⟨56, 2⟩,
     ⟨64, 4⟩, ⟨72, 8⟩, ⟨80, 8⟩, ⟨88, 8⟩, ⟨96, 8⟩, ⟨104, 8⟩, ⟨112, 8⟩] := rfl

/-- All fields are in the two headers. -/
theorem appElfFields_inside {base : UInt64} {f : Field} (hf : f ∈ appElfFields base) :
    f.start.toNat + f.size ≤ 120 := by
  have hmem : f.range ∈ (appElfFields base).map Field.range := List.mem_map_of_mem hf
  rw [appElfFields_layout base] at hmem
  show f.range.start.toNat + f.range.size ≤ 120
  generalize f.range = r at hmem ⊢
  revert r
  decide

theorem appElfFields_ascending (base : UInt64) : Lib.Bytes.Ascending (appElfFields base) := by
  have hlayout := appElfFields_layout base
  constructor
  · intro f hf
    exact (appElfFields_inside hf).trans (by decide)
  · have hpairs : ((appElfFields base).map Field.range).Pairwise
        fun r s => r.start.toNat + r.size ≤ s.start.toNat := by
      rw [hlayout]
      decide
    have horder := List.pairwise_map.mp hpairs
    exact horder

/-- A field of the image. -/
theorem load_appElf (hsize : kAppImageSize ≤ imageSize) {f : Field} (hf : f ∈ appElfFields base) :
    (buildSyntheticAppElf image imageSize base).load f.start f.size = f.value % 256 ^ f.size := by
  unfold buildSyntheticAppElf
  rw [if_neg (UInt64.not_lt.mpr hsize)]
  exact Lib.Bytes.load_storeFields (appElfFields_ascending base) hf

theorem byte_eq_load (m : Lib.Bytes) (a : UInt64) : m a = UInt8.ofNat (m.load a 1) := by
  have hload : m.load a 1 = (m a).toNat := rfl
  rw [hload, UInt8.ofNat_toNat]

/-- **The header** of the image. -/
theorem header_appElf (hsize : kAppImageSize ≤ imageSize) :
    Elf64Header.ofImage (buildSyntheticAppElf image imageSize base) =
      { ident := ![0x7F, 0x45, 0x4C, 0x46, kElfClass64, kElfDataLittleEndian], type := kElfTypeExecutable,
        machine := kElfMachineX86_64, version := kElfVersionCurrent, entry := base,
        programHeaderOffset := kElf64HeaderSize.toUInt64, headerSize := kElf64HeaderSize,
        programHeaderEntrySize := kElf64ProgramHeaderSize, programHeaderCount := 1 } := by
  have hload := fun f hf => @load_appElf image imageSize base hsize f hf
  have hbase : base.toNat < 256 ^ 8 := base.toNat_lt
  generalize buildSyntheticAppElf image imageSize base = m at hload
  unfold appElfFields at hload
  simp only [List.mem_cons, List.not_mem_nil, or_false, forall_eq_or_imp, forall_eq] at hload
  obtain ⟨h0, h1, h2, h3, h4, h5, htype, hmachine, hversion, hentry, hphoff, hehsize, hphsize, hphnum, -⟩ := hload
  unfold Elf64Header.ofImage Lib.Bytes.load16 Lib.Bytes.load32 Lib.Bytes.load64
  rw [htype, hmachine, hversion, hentry, hphoff, hehsize, hphsize, hphnum, Nat.mod_eq_of_lt hbase,
    UInt64.ofNat_toNat]
  congr 1
  funext i
  refine (byte_eq_load m _).trans ?_
  fin_cases i
  · exact congrArg UInt8.ofNat h0
  · exact congrArg UInt8.ofNat h1
  · exact congrArg UInt8.ofNat h2
  · exact congrArg UInt8.ofNat h3
  · exact congrArg UInt8.ofNat h4
  · exact congrArg UInt8.ofNat h5

/-- **The program header** of the image. -/
theorem program_appElf (hsize : kAppImageSize ≤ imageSize) :
    Elf64ProgramHeader.ofImage (buildSyntheticAppElf image imageSize base) 64 =
      { type := kElfLoadSegment, offset := 120, virtualAddress := base, fileSize := 16, memorySize := 16 } := by
  have hload := fun f hf => @load_appElf image imageSize base hsize f hf
  have hbase : base.toNat < 256 ^ 8 := base.toNat_lt
  generalize buildSyntheticAppElf image imageSize base = m at hload
  unfold appElfFields at hload
  simp only [List.mem_cons, List.not_mem_nil, or_false, forall_eq_or_imp, forall_eq] at hload
  obtain ⟨-, -, -, -, -, -, -, -, -, -, -, -, -, -, htype, hoffset, hvaddr, -, hfile, hmemory, -⟩ := hload
  unfold Elf64ProgramHeader.ofImage Lib.Bytes.load32 Lib.Bytes.load64
  rw [htype]
  show Elf64ProgramHeader.mk _ (UInt64.ofNat (m.load 72 8)) (UInt64.ofNat (m.load 80 8))
    (UInt64.ofNat (m.load 96 8)) (UInt64.ofNat (m.load 104 8)) = _
  rw [hoffset, hvaddr, hfile, hmemory, Nat.mod_eq_of_lt hbase, UInt64.ofNat_toNat]
  rfl

/-- **What the loader makes of the image.** -/
theorem load_syntheticAppElf (hsize : kAppImageSize ≤ imageSize) (hbase : base.toNat + 16 < 2 ^ 64)
    (status : UserspaceStatus) :
    (loadUserElfImage (some (buildSyntheticAppElf image imageSize base)) imageSize status).value =
      (true, { entry := base, lowestAddress := base, highestAddress := base + 16, segmentCount := 1, valid := true },
        { loadedElfCount := status.loadedElfCount + 1 }) := by
  have hheader := @header_appElf image imageSize base hsize
  have hprogram := @program_appElf image imageSize base hsize
  generalize buildSyntheticAppElf image imageSize base = m at hheader hprogram
  have hsize' : 136 ≤ imageSize.toNat := UInt64.le_iff_toNat_le.mp hsize
  have hsixteen : (16 : UInt64).toNat = 16 := rfl
  have hend : (base + 16).toNat = base.toNat + 16 := by
    rw [UInt64.toNat_add]
    omega
  have hge : ¬ imageSize < kElf64HeaderSize.toUInt64 := by
    rw [UInt64.lt_iff_toNat_lt]
    show ¬ imageSize.toNat < 64
    omega
  have hvalid : validateElf64Header (Elf64Header.ofImage m) imageSize = true := by
    have h64 : (64 : UInt64) ≤ imageSize := by
      rw [UInt64.le_iff_toNat_le]
      show 64 ≤ imageSize.toNat
      omega
    have h120 : (120 : UInt64) ≤ imageSize := by
      rw [UInt64.le_iff_toNat_le]
      show 120 ≤ imageSize.toNat
      omega
    rw [hheader]
    unfold validateElf64Header
    simp only [Bool.and_eq_true, decide_eq_true_iff]
    exact ⟨⟨⟨⟨⟨⟨⟨⟨⟨⟨⟨⟨⟨h64, rfl⟩, rfl⟩, rfl⟩, rfl⟩, rfl⟩, rfl⟩, rfl⟩, rfl⟩, rfl⟩, rfl⟩, rfl⟩, by decide⟩, h120⟩
  have hat : (Elf64Header.ofImage m).programAt 0 = 64 := by
    rw [hheader]
    rfl
  have hturn : (loadSegment m imageSize 64 { entry := base }).value =
      some (UserElfImage.addSegment { entry := base } base (base + 16)) := by
    have hspec := (@loadSegment_spec m imageSize 64 { entry := base }).2.2
    rw [hprogram] at hspec
    refine hspec ?_
    rintro ⟨-, hfile | hoffset | hwrap⟩
    · exact absurd hfile (show ¬ (16 : UInt64) > 16 by decide)
    · rw [gt_iff_lt, UInt64.lt_iff_toNat_lt] at hoffset
      have h136 : ((120 : UInt64) + 16).toNat = 136 := rfl
      dsimp only at hoffset
      omega
    · rw [UInt64.le_iff_toNat_le] at hwrap
      dsimp only at hwrap
      omega
  have hloop : (loadSegments m imageSize (.ofImage m) 0 (Elf64Header.ofImage m).programHeaderCount.toNat
      { entry := (Elf64Header.ofImage m).entry }).value =
        (true, UserElfImage.addSegment { entry := base } base (base + 16)) := by
    have hcount : (Elf64Header.ofImage m).programHeaderCount.toNat = 0 + 1 := by
      rw [hheader]
      rfl
    have hentry : (Elf64Header.ofImage m).entry = base := by rw [hheader]
    rw [hcount, hentry]
    unfold loadSegments
    rw [Traced.value_bind, hat, hturn]
    rfl
  have hhigh : base + 16 > (0 : UInt64) := by
    rw [gt_iff_lt, UInt64.lt_iff_toNat_lt, hend]
    exact Nat.lt_of_lt_of_le (by decide) (Nat.le_add_left 16 _)
  have hin : (UserElfImage.addSegment { entry := base } base (base + 16)).inHull = true := by
    unfold UserElfImage.inHull
    simp only [Bool.and_eq_true, decide_eq_true_iff]
    have habove : base < (UserElfImage.addSegment { entry := base } base (base + 16)).highestAddress := by
      unfold UserElfImage.addSegment
      dsimp only
      rw [if_pos hhigh, UInt64.lt_iff_toNat_lt, hend]
      omega
    exact ⟨⟨show (0 : UInt16) + 1 > 0 by decide, UInt64.le_refl base⟩, habove⟩
  unfold loadUserElfImage
  dsimp only
  rw [if_neg hge, Traced.value_bind]
  have hread : (readHeader m).value = .ofImage m := rfl
  rw [hread, hvalid, if_neg (by simp), Traced.value_bind, hloop]
  dsimp only
  rw [if_neg (by simp), Traced.value_pure, hin, if_pos rfl]
  unfold UserElfImage.addSegment
  dsimp only
  rw [if_pos hhigh, if_pos (Or.inl rfl)]
  rfl

end UserElf
end UefiBoot
