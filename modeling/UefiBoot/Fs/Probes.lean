import UefiBoot.Lib.BitFields
import UefiBoot.Lib.Fields
import UefiBoot.Lib.Traced

/-!
# `Fs.Probes` — what the FAT32 and EXT2 probes read

A probe decodes a few little-endian fields of an image and tests them. The image is byte memory from offset 0 on,
and every byte read is logged with its offset, so that "reads only below `size`" is a property of the log.

The writers that the self-tests use store fields, in the sense of `Lib.Fields`, and the readers load them
(`readLe16_value`, `writeLe16_eq`). The fields of a boot sector and of a superblock lie one behind the other;
so they come back as they were written, in whatever order that was (`readBack_writes`), and a probe accepts the image
exactly when the values are valid (`probes_decode`).
-/

namespace UefiBoot
namespace Vfs

open Lib (Bytes Field Traced)
open Lib.Traced (All all_bind all_emit all_pure)

abbrev kFatBootSignature : UInt16 := 0xAA55
abbrev kExt2Magic : UInt16 := 0xEF53

/-! ## Little-endian fields -/

/-- `data[offset]`. -/
def readByte (data : Bytes) (offset : UInt64) : Traced UInt64 UInt8 := do
  Traced.emit offset
  pure (data offset)

/-- `ReadLe16`. -/
def readLe16 (data : Bytes) (offset : UInt64) : Traced UInt64 UInt16 := do
  let byte0 ← readByte data offset
  let byte1 ← readByte data (offset + 1)
  pure (byte0.toUInt16 ||| byte1.toUInt16 <<< 8)

/-- `ReadLe32`. -/
def readLe32 (data : Bytes) (offset : UInt64) : Traced UInt64 UInt32 := do
  let byte0 ← readByte data offset
  let byte1 ← readByte data (offset + 1)
  let byte2 ← readByte data (offset + 2)
  let byte3 ← readByte data (offset + 3)
  pure (byte0.toUInt32 ||| byte1.toUInt32 <<< 8 ||| byte2.toUInt32 <<< 16 ||| byte3.toUInt32 <<< 24)

/-- `data[offset] = value`. -/
def writeByte (data : Bytes) (offset : UInt64) (value : UInt8) : Bytes := Function.update data offset value

/-- `WriteLe16`. -/
def writeLe16 (data : Bytes) (offset : UInt64) (value : UInt16) : Bytes :=
  let data := writeByte data offset (value &&& 0xFF).toUInt8
  writeByte data (offset + 1) (value >>> 8 &&& 0xFF).toUInt8

/-- `WriteLe32`. -/
def writeLe32 (data : Bytes) (offset : UInt64) (value : UInt32) : Bytes :=
  let data := writeByte data offset (value &&& 0xFF).toUInt8
  let data := writeByte data (offset + 1) (value >>> 8 &&& 0xFF).toUInt8
  let data := writeByte data (offset + 2) (value >>> 16 &&& 0xFF).toUInt8
  writeByte data (offset + 3) (value >>> 24 &&& 0xFF).toUInt8

variable {data : Bytes} {offset size : UInt64}

@[simp] theorem readByte_value : (readByte data offset).value = data offset := rfl

@[simp] theorem all_readByte {P : UInt64 → Prop} : All P (readByte data offset) ↔ P offset := by
  simp [readByte]

/-- A byte shifted inside its word does not overflow. -/
theorem toNat_shifted32 (byte : UInt8) {shift : UInt32} (hshift : shift.toNat ≤ 24) :
    (byte.toUInt32 <<< shift).toNat = byte.toNat <<< shift.toNat := by
  have hbyte := byte.toNat_lt
  have hpow : 2 ^ shift.toNat ≤ 2 ^ 24 := Nat.pow_le_pow_right (by decide) hshift
  have hfits : byte.toNat <<< shift.toNat < 2 ^ 32 := by
    rw [Nat.shiftLeft_eq]
    calc byte.toNat * 2 ^ shift.toNat ≤ 255 * 2 ^ 24 := Nat.mul_le_mul (by omega) hpow
      _ < 2 ^ 32 := by decide
  rw [UInt32.toNat_shiftLeft, Nat.mod_eq_of_lt (by omega : shift.toNat < 32)]
  exact Nat.mod_eq_of_lt hfits

/-- The reader loads the number that the two bytes are. -/
@[simp] theorem readLe16_value : (readLe16 data offset).value = data.load16 offset := by
  apply UInt16.toNat.inj
  have h0 : (data offset).toNat < 2 ^ 8 := (data offset).toNat_lt
  have h1 := (data (offset + 1)).toNat_lt
  have hload : data.load offset 2 = (data offset).toNat + 256 * (data (offset + 1)).toNat := by
    simp [Bytes.load]
  calc ((data offset).toUInt16 ||| (data (offset + 1)).toUInt16 <<< 8).toNat
      = (data offset).toNat + (data (offset + 1)).toNat * 2 ^ 8 := Lib.toNat_pair16 _ _
    _ = data.load offset 2 := by omega
    _ = (data.load16 offset).toNat := by
        unfold Bytes.load16
        rw [UInt16.toNat_ofNat', Nat.mod_eq_of_lt (by omega)]

/-- The reader loads the number that the four bytes are. -/
@[simp] theorem readLe32_value : (readLe32 data offset).value = data.load32 offset := by
  apply UInt32.toNat.inj
  have h0 := (data offset).toNat_lt
  have h1 := (data (offset + 1)).toNat_lt
  have h2 := (data (offset + 2)).toNat_lt
  have h3 := (data (offset + 3)).toNat_lt
  have hload : data.load offset 4 = (data offset).toNat + 256 * ((data (offset + 1)).toNat +
      256 * ((data (offset + 2)).toNat + 256 * (data (offset + 3)).toNat)) := by
    simp [Bytes.load, UInt64.add_assoc]
  calc ((data offset).toUInt32 ||| (data (offset + 1)).toUInt32 <<< 8 ||| (data (offset + 2)).toUInt32 <<< 16 |||
        (data (offset + 3)).toUInt32 <<< 24).toNat
      = (data offset).toNat ||| (data (offset + 1)).toNat <<< 8 ||| (data (offset + 2)).toNat <<< 16 |||
        (data (offset + 3)).toNat <<< 24 := by
        rw [UInt32.toNat_or, UInt32.toNat_or, UInt32.toNat_or, toNat_shifted32 _ (by decide),
          toNat_shifted32 _ (by decide), toNat_shifted32 _ (by decide), UInt8.toNat_toUInt32]
        rfl
    _ = data.load offset 4 := by
        -- every byte lies above the ones before it
        have hlow : (data offset).toNat + (data (offset + 1)).toNat * 2 ^ 8 < 2 ^ 16 := by omega
        have hmid : (data offset).toNat + (data (offset + 1)).toNat * 2 ^ 8 + (data (offset + 2)).toNat * 2 ^ 16 <
            2 ^ 24 := by omega
        rw [Lib.or_shiftLeft (by omega : (data offset).toNat < 2 ^ 8), Lib.or_shiftLeft hlow,
          Lib.or_shiftLeft hmid]
        omega
    _ = (data.load32 offset).toNat := by
        unfold Bytes.load32
        rw [UInt32.toNat_ofNat', Nat.mod_eq_of_lt (by omega)]

theorem writeByte_eq (value : UInt8) : writeByte data offset value = data.store offset value.toNat 1 := by
  simp [writeByte, Bytes.store]

/-- The mask and the conversion keep the low byte. -/
theorem maskedByte16 (value : UInt16) : (value &&& 0xFF).toUInt8 = UInt8.ofNat value.toNat := by
  apply UInt8.toNat.inj
  simp [Nat.and_two_pow_sub_one_eq_mod _ 8]

theorem maskedByte32 (value : UInt32) : (value &&& 0xFF).toUInt8 = UInt8.ofNat value.toNat := by
  apply UInt8.toNat.inj
  simp [Nat.and_two_pow_sub_one_eq_mod _ 8]

/-- The writer stores the two bytes of the number. -/
theorem writeLe16_eq (value : UInt16) : writeLe16 data offset value = data.store offset value.toNat 2 := by
  unfold writeLe16 writeByte
  rw [maskedByte16, maskedByte16, UInt16.toNat_shiftRight]
  simp [Bytes.store, Nat.shiftRight_eq_div_pow]

/-- The writer stores the four bytes of the number. -/
theorem writeLe32_eq (value : UInt32) : writeLe32 data offset value = data.store offset value.toNat 4 := by
  unfold writeLe32 writeByte
  rw [maskedByte32, maskedByte32, maskedByte32, maskedByte32, UInt32.toNat_shiftRight, UInt32.toNat_shiftRight,
    UInt32.toNat_shiftRight]
  simp [Bytes.store, Nat.shiftRight_eq_div_pow, Nat.div_div_eq_div_mul, UInt64.add_assoc]

/-! ## The probes -/

/-- `Fat32Probe`; a null pointer is `none`. -/
def fat32Probe (data : Option Bytes) (size : UInt64) : Traced UInt64 Bool :=
  match data with
  | none      => pure false
  | some data =>
      if size < 512 then
        pure false
      else do
        let signature ← readLe16 data 510
        let bytesPerSector ← readLe16 data 11
        let sectorsPerCluster ← readByte data 13
        let reservedSectors ← readLe16 data 14
        let fatCount ← readByte data 16
        let rootEntryCount ← readLe16 data 17
        let fat16Size ← readLe16 data 22
        let fat32Size ← readLe32 data 36
        let rootCluster ← readLe32 data 44
        pure (signature == kFatBootSignature && decide (512 ≤ bytesPerSector) && sectorsPerCluster != 0 &&
          reservedSectors != 0 && fatCount != 0 && rootEntryCount == 0 && fat16Size == 0 && fat32Size != 0 &&
          decide (2 ≤ rootCluster))

abbrev superblock : UInt64 := 1024

/-- `Ext2Probe`. -/
def ext2Probe (data : Option Bytes) (size : UInt64) : Traced UInt64 Bool :=
  match data with
  | none      => pure false
  | some data =>
      if size < 2048 then
        pure false
      else do
        let inodeCount ← readLe32 data (superblock + 0)
        let blockCount ← readLe32 data (superblock + 4)
        let magic ← readLe16 data (superblock + 56)
        pure (magic == kExt2Magic && inodeCount != 0 && blockCount != 0)

/-- The offsets of a reader's bytes lie below a size that its last byte lies below. -/
theorem readLe16_inBounds (h : offset.toNat + 1 < size.toNat) : All (· < size) (readLe16 data offset) := by
  have hsize := size.toNat_lt
  simp only [readLe16, all_bind, all_readByte, all_pure, and_true, UInt64.lt_iff_toNat_lt, UInt64.toNat_add]
  refine ⟨by omega, ?_⟩
  show (offset.toNat + 1) % 2 ^ 64 < size.toNat
  omega

theorem readLe32_inBounds (h : offset.toNat + 3 < size.toNat) : All (· < size) (readLe32 data offset) := by
  have hsize := size.toNat_lt
  simp only [readLe32, all_bind, all_readByte, all_pure, and_true, UInt64.lt_iff_toNat_lt, UInt64.toNat_add]
  refine ⟨by omega, ?_, ?_, ?_⟩
  · show (offset.toNat + 1) % 2 ^ 64 < size.toNat
    omega
  · show (offset.toNat + 2) % 2 ^ 64 < size.toNat
    omega
  · show (offset.toNat + 3) % 2 ^ 64 < size.toNat
    omega

/-- **The FAT32 probe stays in the image**, whatever is in it. -/
theorem fat32Probe_inBounds (data : Option Bytes) (size : UInt64) : All (· < size) (fat32Probe data size) := by
  cases data with
  | none => exact all_pure false
  | some data =>
      unfold fat32Probe
      by_cases hsize : size < 512
      · simp only [if_pos hsize, all_pure]
      · have hlarge : 512 ≤ size.toNat := UInt64.le_iff_toNat_le.mp (UInt64.not_lt.mp hsize)
        have h16 : ∀ offset : UInt64, offset.toNat ≤ 510 → All (· < size) (readLe16 data offset) :=
          fun offset hoff => readLe16_inBounds (by omega)
        have h32 : ∀ offset : UInt64, offset.toNat ≤ 508 → All (· < size) (readLe32 data offset) :=
          fun offset hoff => readLe32_inBounds (by omega)
        have h8 : ∀ offset : UInt64, offset.toNat < 512 → offset < size :=
          fun offset hoff => UInt64.lt_iff_toNat_lt.mpr (by omega)
        simp only [if_neg hsize, all_bind, all_readByte, all_pure, and_true]
        exact ⟨h16 510 (by decide), h16 11 (by decide), h8 13 (by decide), h16 14 (by decide), h8 16 (by decide),
          h16 17 (by decide), h16 22 (by decide), h32 36 (by decide), h32 44 (by decide)⟩

theorem ext2Probe_inBounds (data : Option Bytes) (size : UInt64) : All (· < size) (ext2Probe data size) := by
  cases data with
  | none => exact all_pure false
  | some data =>
      unfold ext2Probe
      by_cases hsize : size < 2048
      · simp only [if_pos hsize, all_pure]
      · have hlarge : 2048 ≤ size.toNat := UInt64.le_iff_toNat_le.mp (UInt64.not_lt.mp hsize)
        have h32 : ∀ offset : UInt64, offset.toNat ≤ 1028 → All (· < size) (readLe32 data offset) :=
          fun offset hoff => readLe32_inBounds (by omega)
        have hmagic : (superblock + 56).toNat + 1 < size.toNat := by
          have hoff : (superblock + 56).toNat = 1080 := by decide
          omega
        simp only [if_neg hsize, all_bind, all_pure, and_true]
        exact ⟨h32 (superblock + 0) (by decide), h32 (superblock + 4) (by decide), readLe16_inBounds hmagic⟩

/-! ## Images written field by field -/

/-- One store of the code that fills an image. -/
inductive Write where
  | byte (offset : UInt64) (value : UInt8)
  | le16 (offset : UInt64) (value : UInt16)
  | le32 (offset : UInt64) (value : UInt32)

namespace Write

def apply (data : Bytes) : Write → Bytes
  | byte offset value => writeByte data offset value
  | le16 offset value => writeLe16 data offset value
  | le32 offset value => writeLe32 data offset value

/-- The stores, one after the other. -/
def applyAll (data : Bytes) (writes : List Write) : Bytes := writes.foldl apply data

/-- The reader that belongs to the store returns the value that was stored. -/
def ReadBack (data : Bytes) : Write → Prop
  | byte offset value => (readByte data offset).value = value
  | le16 offset value => (readLe16 data offset).value = value
  | le32 offset value => (readLe32 data offset).value = value

/-- The bytes a store fills, and the number they become. -/
def field : Write → Field
  | byte offset value => ⟨offset, 1, value.toNat⟩
  | le16 offset value => ⟨offset, 2, value.toNat⟩
  | le32 offset value => ⟨offset, 4, value.toNat⟩

theorem applyAll_eq (data : Bytes) (writes : List Write) :
    applyAll data writes = data.storeFields (writes.map field) := by
  unfold applyAll Bytes.storeFields
  rw [List.foldl_map]
  congr 1
  funext data w
  cases w with
  | byte offset value => exact writeByte_eq value
  | le16 offset value => exact writeLe16_eq value
  | le32 offset value => exact writeLe32_eq value

/-- A store whose field holds its number reads back. -/
theorem readBack_of_load {w : Write} (h : data.load w.field.start w.field.size = w.field.value % 256 ^ w.field.size) :
    w.ReadBack data := by
  cases w with
  | byte offset value =>
      have hlt := value.toNat_lt
      have hload : (data offset).toNat = value.toNat := by
        simpa [field, Bytes.load, Nat.mod_eq_of_lt hlt] using h
      exact UInt8.toNat.inj hload
  | le16 offset value =>
      have hload : data.load offset 2 = value.toNat := h.trans (Nat.mod_eq_of_lt value.toNat_lt)
      show (readLe16 data offset).value = value
      rw [readLe16_value, Bytes.load16, hload, UInt16.ofNat_toNat]
  | le32 offset value =>
      have hload : data.load offset 4 = value.toNat := h.trans (Nat.mod_eq_of_lt value.toNat_lt)
      show (readLe32 data offset).value = value
      rw [readLe32_value, Bytes.load32, hload, UInt32.ofNat_toNat]

/-- **Every value comes back**, in whatever order stores at ascending offsets are made. -/
theorem readBack_writes {layout writes : List Write} (hlayout : Bytes.Ascending (layout.map field))
    (hperm : writes.Perm layout) : ∀ w ∈ writes, w.ReadBack (applyAll data writes) := by
  intro w hw
  have hscattered : Bytes.Scattered (writes.map field) := hlayout.scattered.perm (hperm.map field).symm
  apply readBack_of_load
  rw [applyAll_eq]
  exact hscattered.load (List.mem_map_of_mem hw)

end Write

open Write (ReadBack applyAll)

/-- The fields of a FAT32 boot sector that the probe decodes. -/
structure Fat32Fields where
  bytesPerSector    : UInt16
  sectorsPerCluster : UInt8
  reservedSectors   : UInt16
  fatCount          : UInt8
  rootEntryCount    : UInt16
  fat16Size         : UInt16
  fat32Size         : UInt32
  rootCluster       : UInt32
  signature         : UInt16

namespace Fat32Fields

/-- The stores of `RunFat32ProbeSelfTest`, for any values. -/
def writes (f : Fat32Fields) : List Write :=
  [.le16 11 f.bytesPerSector, .byte 13 f.sectorsPerCluster, .le16 14 f.reservedSectors, .byte 16 f.fatCount,
    .le16 17 f.rootEntryCount, .le16 22 f.fat16Size, .le32 36 f.fat32Size, .le32 44 f.rootCluster,
    .le16 510 f.signature]

/-- What the probe asks of the values. -/
structure Valid (f : Fat32Fields) : Prop where
  signature         : f.signature = kFatBootSignature
  bytesPerSector    : 512 ≤ f.bytesPerSector
  sectorsPerCluster : f.sectorsPerCluster ≠ 0
  reservedSectors   : f.reservedSectors ≠ 0
  fatCount          : f.fatCount ≠ 0
  rootEntryCount    : f.rootEntryCount = 0
  fat16Size         : f.fat16Size = 0
  fat32Size         : f.fat32Size ≠ 0
  rootCluster       : 2 ≤ f.rootCluster

theorem writes_ascending (f : Fat32Fields) : Bytes.Ascending (f.writes.map Write.field) where
  fits  := by simp [writes, Write.field, Field.range, Lib.ByteRange.Fits]
  order := by simp [writes, Write.field, Field.Before]

end Fat32Fields

/-- The fields of an EXT2 superblock that the probe decodes. -/
structure Ext2Fields where
  inodeCount : UInt32
  blockCount : UInt32
  magic      : UInt16

namespace Ext2Fields

/-- The stores of `RunExt2ProbeSelfTest`, for any values. -/
def writes (f : Ext2Fields) : List Write :=
  [.le32 (superblock + 0) f.inodeCount, .le32 (superblock + 4) f.blockCount, .le16 (superblock + 56) f.magic]

structure Valid (f : Ext2Fields) : Prop where
  magic      : f.magic = kExt2Magic
  inodeCount : f.inodeCount ≠ 0
  blockCount : f.blockCount ≠ 0

theorem writes_ascending (f : Ext2Fields) : Bytes.Ascending (f.writes.map Write.field) where
  fits  := by simp [writes, superblock, Write.field, Field.range, Lib.ByteRange.Fits]
  order := by simp [writes, superblock, Write.field, Field.Before]

end Ext2Fields

/-- On an image that reads back as the fields, the probe tests the fields. -/
theorem fat32Probe_iff {f : Fat32Fields} (hsize : 512 ≤ size) (h : ∀ w ∈ f.writes, w.ReadBack data) :
    (fat32Probe (some data) size).value = true ↔ f.Valid := by
  simp only [Fat32Fields.writes, List.forall_mem_cons, ReadBack] at h
  obtain ⟨hbps, hspc, hreserved, hcount, hroot, hfat16, hfat32, hcluster, hsignature, -⟩ := h
  simp only [fat32Probe, if_neg (UInt64.not_lt.mpr hsize), Traced.value_bind, Traced.value_pure, hbps, hspc, hreserved,
    hcount, hroot, hfat16, hfat32, hcluster, hsignature, Bool.and_eq_true, beq_iff_eq, bne_iff_ne, decide_eq_true_eq]
  constructor
  · rintro ⟨⟨⟨⟨⟨⟨⟨⟨h1, h2⟩, h3⟩, h4⟩, h5⟩, h6⟩, h7⟩, h8⟩, h9⟩
    exact ⟨h1, h2, h3, h4, h5, h6, h7, h8, h9⟩
  · rintro ⟨h1, h2, h3, h4, h5, h6, h7, h8, h9⟩
    exact ⟨⟨⟨⟨⟨⟨⟨⟨h1, h2⟩, h3⟩, h4⟩, h5⟩, h6⟩, h7⟩, h8⟩, h9⟩

theorem ext2Probe_iff {f : Ext2Fields} (hsize : 2048 ≤ size) (h : ∀ w ∈ f.writes, w.ReadBack data) :
    (ext2Probe (some data) size).value = true ↔ f.Valid := by
  simp only [Ext2Fields.writes, List.forall_mem_cons, ReadBack] at h
  obtain ⟨hinodes, hblocks, hmagic, -⟩ := h
  simp only [ext2Probe, if_neg (UInt64.not_lt.mpr hsize), Traced.value_bind, Traced.value_pure, hinodes, hblocks, hmagic,
    Bool.and_eq_true, beq_iff_eq, bne_iff_ne]
  constructor
  · rintro ⟨⟨hm, hi⟩, hb⟩
    exact ⟨hm, hi, hb⟩
  · rintro ⟨hm, hi, hb⟩
    exact ⟨⟨hm, hi⟩, hb⟩

/-- **The probes decode what was written.** Every byte they read lies below `size`; and in an image of sufficient
    size, filled field by field in any order, every field reads back as it was written and the probe accepts exactly
    the valid values. -/
theorem probes_decode (size : UInt64) :
    (∀ data, All (· < size) (fat32Probe data size) ∧ All (· < size) (ext2Probe data size)) ∧
      (512 ≤ size → ∀ (data : Bytes) (f : Fat32Fields) (writes : List Write), writes.Perm f.writes →
        (∀ w ∈ writes, w.ReadBack (applyAll data writes)) ∧
          ((fat32Probe (some (applyAll data writes)) size).value = true ↔ f.Valid)) ∧
      (2048 ≤ size → ∀ (data : Bytes) (f : Ext2Fields) (writes : List Write), writes.Perm f.writes →
        (∀ w ∈ writes, w.ReadBack (applyAll data writes)) ∧
          ((ext2Probe (some (applyAll data writes)) size).value = true ↔ f.Valid)) := by
  refine ⟨fun data => ⟨fat32Probe_inBounds data size, ext2Probe_inBounds data size⟩, ?_, ?_⟩
  · intro hsize data f writes hperm
    have hback : ∀ w ∈ writes, w.ReadBack (applyAll data writes) := Write.readBack_writes f.writes_ascending hperm
    exact ⟨hback, fat32Probe_iff hsize fun w hw => hback w (hperm.mem_iff.mpr hw)⟩
  · intro hsize data f writes hperm
    have hback : ∀ w ∈ writes, w.ReadBack (applyAll data writes) := Write.readBack_writes f.writes_ascending hperm
    exact ⟨hback, ext2Probe_iff hsize fun w hw => hback w (hperm.mem_iff.mpr hw)⟩

/-- A boot sector whose signature is missing, written from its end to its start. -/
def unsignedSector : Fat32Fields := ⟨512, 8, 32, 2, 0, 0, 128, 2, 0⟩

theorem probes_decode_unsigned :
    (fat32Probe (some (applyAll (fun _ => 0) unsignedSector.writes.reverse)) 512).value = false := by
  have hprobe := ((probes_decode 512).2.1 (by decide) (fun _ => 0) unsignedSector unsignedSector.writes.reverse
    (List.reverse_perm _)).2
  rw [← Bool.not_eq_true, hprobe]
  intro hvalid
  exact absurd hvalid.signature (by decide)

/-! ## The self-tests -/

/-- `RunFat32ProbeSelfTest`. -/
def runFat32ProbeSelfTest : Bool :=
  let sector := applyAll (fun _ => 0) (Fat32Fields.writes ⟨512, 8, 32, 2, 0, 0, 128, 2, kFatBootSignature⟩)
  (fat32Probe (some sector) 512).value

/-- `RunExt2ProbeSelfTest`. -/
def runExt2ProbeSelfTest : Bool :=
  let image := applyAll (fun _ => 0) (Ext2Fields.writes ⟨128, 1024, kExt2Magic⟩)
  (ext2Probe (some image) 2048).value

theorem probeSelfTests_pass : runFat32ProbeSelfTest = true ∧ runExt2ProbeSelfTest = true := by
  constructor
  · refine (fat32Probe_iff (by decide) (Write.readBack_writes (Fat32Fields.writes_ascending _) (List.Perm.refl _))).mpr ?_
    exact ⟨rfl, by decide, by decide, by decide, by decide, rfl, rfl, by decide, by decide⟩
  · refine (ext2Probe_iff (by decide) (Write.readBack_writes (Ext2Fields.writes_ascending _) (List.Perm.refl _))).mpr ?_
    exact ⟨rfl, by decide, by decide⟩

end Vfs
end UefiBoot
