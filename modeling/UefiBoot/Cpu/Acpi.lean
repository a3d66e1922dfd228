import UefiBoot.Lib.ByteRange
import UefiBoot.Lib.Traced

/-!
# `Cpu.Acpi` — `FindAcpiTable` and the table entries it follows

The firmware leaves a root pointer; behind it is an XSDT with 64-bit entries, or an RSDT with 32-bit ones, each
entry the address of a table. `FindAcpiTable` checks the signature and the checksum of the root table and then
goes through its entries. The number of entries is computed from the `length` field of the table, which is also
the range of the checksum: a `length` below the size of the header passes any check on too short a range, and
the subtraction wraps.

The two loops differ in the width of an entry only (`searchTable`). Every entry that is read is logged with the
table it was taken from; `searchTable_inside_iff` is the exact condition for one table, and
`findAcpiTable_inside_iff` for the function.
-/

namespace UefiBoot
namespace Acpi

open Lib (ByteRange Traced)

/-- `sizeof(RsdpDescriptor)`. -/
def kRsdpSize : UInt32 := 20

/-- `sizeof(RsdpDescriptor20)`. -/
def kRsdp20Size : UInt32 := 36

/-- `sizeof(AcpiSdtHeader)`. -/
def kSdtHeaderSize : UInt64 := 36

/-- `"RSD PTR "`. -/
def rsdpSignature : Fin 8 → UInt8 := ![0x52, 0x53, 0x44, 0x20, 0x50, 0x54, 0x52, 0x20]

/-- `"XSDT"`. -/
def xsdtSignature : Fin 4 → UInt8 := ![0x58, 0x53, 0x44, 0x54]

/-- `"RSDT"`. -/
def rsdtSignature : Fin 4 → UInt8 := ![0x52, 0x53, 0x44, 0x54]

/-- An entry of a root table is read. -/
structure EntryRead where
  table : UInt64
  entry : ByteRange

def memoryEquals (m : Lib.Bytes) (lhs : UInt64) {n : Nat} (rhs : Fin n → UInt8) : Bool :=
  (List.finRange n).all fun i => m (lhs + UInt64.ofNat i) == rhs i

def acpiChecksum (m : Lib.Bytes) (table : UInt64) (length : UInt32) : UInt8 :=
  (List.range length.toNat).foldl (fun sum i => sum + m (table + UInt64.ofNat i)) 0

/-- The `length` field of `AcpiSdtHeader`. -/
def sdtLength (m : Lib.Bytes) (table : UInt64) : UInt32 := m.load32 (table + 4)

/-- The signature is the one looked for, and the whole table sums to zero. -/
def verified (m : Lib.Bytes) (table : UInt64) (signature : Fin 4 → UInt8) : Bool :=
  memoryEquals m table signature && acpiChecksum m table (sdtLength m table) == 0

/-- The number of entries of `width` bytes: the subtraction is one of 64-bit words. -/
def sdtEntries (m : Lib.Bytes) (table width : UInt64) : UInt64 :=
  ((sdtLength m table).toUInt64 - kSdtHeaderSize) / width

/-- Where entry `i` is. -/
def entryAt (table width : UInt64) (i : Nat) : UInt64 := table + kSdtHeaderSize + UInt64.ofNat i * width

/-- The address in entry `i`. -/
def candidateAt (m : Lib.Bytes) (table width : UInt64) (i : Nat) : UInt64 :=
  UInt64.ofNat (m.load (entryAt table width i) width.toNat)

/-- The test on a candidate in both loops. -/
def wanted (m : Lib.Bytes) (signature : Fin 4 → UInt8) (candidate : UInt64) : Bool :=
  candidate != 0 && verified m candidate signature

/-- One turn of either loop. -/
def readEntry (m : Lib.Bytes) (signature : Fin 4 → UInt8) (table width : UInt64) (i : Nat) :
    Traced EntryRead (Option UInt64) := do
  Traced.emit ⟨table, entryAt table width i, width.toNat⟩
  let candidate := candidateAt m table width i
  pure (if wanted m signature candidate then some candidate else none)

/-- The loop over the entries of a root table. -/
def searchTable (m : Lib.Bytes) (signature : Fin 4 → UInt8) (table width : UInt64) :
    Traced EntryRead (Option UInt64) :=
  Traced.search (readEntry m signature table width) 0 (sdtEntries m table width).toNat

/-- The loop over the XSDT. -/
def searchXsdt (m : Lib.Bytes) (signature : Fin 4 → UInt8) (xsdt : UInt64) :
    Traced EntryRead (Option UInt64) := searchTable m signature xsdt 8

/-- The loop over the RSDT. -/
def searchRsdt (m : Lib.Bytes) (signature : Fin 4 → UInt8) (rsdt : UInt64) :
    Traced EntryRead (Option UInt64) := searchTable m signature rsdt 4

def rsdpRevision (m : Lib.Bytes) (rsdp : UInt64) : UInt8 := m (rsdp + 15)
def rsdtAddress (m : Lib.Bytes) (rsdp : UInt64) : UInt64 := (m.load32 (rsdp + 16)).toUInt64
def rsdp20Length (m : Lib.Bytes) (rsdp : UInt64) : UInt32 := m.load32 (rsdp + 20)
def xsdtAddress (m : Lib.Bytes) (rsdp : UInt64) : UInt64 := m.load64 (rsdp + 24)

/-- The root pointer passes its checks. -/
def rsdpValid (m : Lib.Bytes) (rsdp : UInt64) : Bool :=
  rsdp != 0 && memoryEquals m rsdp rsdpSignature && acpiChecksum m rsdp kRsdpSize == 0

/-- The tests before the loop over the XSDT. -/
def xsdtUsable (m : Lib.Bytes) (rsdp : UInt64) : Bool :=
  rsdpRevision m rsdp ≥ 2 &&
  rsdp20Length m rsdp ≥ kRsdp20Size &&
  acpiChecksum m rsdp (rsdp20Length m rsdp) == 0 &&
  xsdtAddress m rsdp != 0 &&
  verified m (xsdtAddress m rsdp) xsdtSignature

/-- The first half of `FindAcpiTable`, for root pointers that have an XSDT. -/
def tryXsdt (m : Lib.Bytes) (rsdp : UInt64) (signature : Fin 4 → UInt8) : Traced EntryRead (Option UInt64) :=
  if xsdtUsable m rsdp then searchXsdt m signature (xsdtAddress m rsdp) else pure none

/-- `FindAcpiTable`; `none` is the null pointer. -/
def findAcpiTable (m : Lib.Bytes) (rsdp : UInt64) (signature : Fin 4 → UInt8) :
    Traced EntryRead (Option UInt64) :=
  if !rsdpValid m rsdp then
    pure none
  else do
    match ← tryXsdt m rsdp signature with
    | some table => pure (some table)
    | none =>
      let rsdt := rsdtAddress m rsdp
      if rsdt = 0 then
        pure none
      else if !verified m rsdt rsdtSignature then
        pure none
      else
        searchRsdt m signature rsdt

/-! ## One table -/

variable {m : Lib.Bytes} {rsdp table width : UInt64} {signature : Fin 4 → UInt8}

/-- The entry lies in its table, and the table is a root table that passed its checks. -/
def EntryRead.Inside (m : Lib.Bytes) (e : EntryRead) : Prop :=
  (verified m e.table xsdtSignature = true ∨ verified m e.table rsdtSignature = true) ∧
  ∀ a ∈ e.entry, a ∈ ByteRange.mk e.table (sdtLength m e.table).toNat

theorem all_readEntry {P : EntryRead → Prop} (i : Nat) :
    (readEntry m signature table width i).All P ↔ P ⟨table, entryAt table width i, width.toNat⟩ := by
  unfold readEntry
  rw [Traced.all_bind, Traced.all_emit]
  exact ⟨fun h => h.1, fun h => ⟨h, Traced.all_pure _⟩⟩

/-- A table at least as long as its header: its entries are the whole words after the header. -/
theorem entry_inside (hwidth : 0 < width.toNat) (hlen : 36 ≤ (sdtLength m table).toNat) {i : Nat}
    (hi : i < (sdtEntries m table width).toNat) {a : UInt64}
    (ha : a ∈ ByteRange.mk (entryAt table width i) width.toNat) :
    a ∈ ByteRange.mk table (sdtLength m table).toNat := by
  have hheader : kSdtHeaderSize.toNat = 36 := rfl
  have hlt := (sdtLength m table).toNat_lt
  have hcount : (sdtEntries m table width).toNat = ((sdtLength m table).toNat - 36) / width.toNat := by
    unfold sdtEntries
    rw [UInt64.toNat_div, UInt64.toNat_sub, UInt32.toNat_toUInt64, hheader]
    congr 1
    omega
  -- the entry ends where the table ends, or before
  have hend : (i + 1) * width.toNat ≤ (sdtLength m table).toNat - 36 := by
    rw [hcount] at hi
    calc (i + 1) * width.toNat ≤ ((sdtLength m table).toNat - 36) / width.toNat * width.toNat :=
          Nat.mul_le_mul_right _ hi
      _ ≤ (sdtLength m table).toNat - 36 := Nat.div_mul_le_self _ _
  rw [Nat.succ_mul] at hend
  obtain ⟨k, hk, -, rfl⟩ := ByteRange.exists_offset ha
  have hk' : k < width.toNat := hk
  have hile : i ≤ i * width.toNat := Nat.le_mul_of_pos_right i hwidth
  have hoff : UInt64.ofNat i * width = UInt64.ofNat (i * width.toNat) := by
    rw [UInt64.ofNat_mul, UInt64.ofNat_toNat]
  show entryAt table width i + UInt64.ofNat k ∈ _
  unfold entryAt
  rw [hoff, UInt64.add_assoc, UInt64.add_assoc, ← UInt64.ofNat_add]
  have hsum : kSdtHeaderSize + UInt64.ofNat (i * width.toNat + k) =
      UInt64.ofNat (36 + (i * width.toNat + k)) := by
    rw [UInt64.ofNat_add 36]
    rfl
  rw [hsum]
  exact @ByteRange.mem_offset ⟨table, _⟩ _ (by show _ < (sdtLength m table).toNat; omega) (by omega)

/-- A table shorter than its header: the first entry is read, and lies past the end. -/
theorem first_entry_outside (hlen : (sdtLength m table).toNat < 36) :
    entryAt table width 0 ∉ ByteRange.mk table (sdtLength m table).toNat := by
  have hheader : kSdtHeaderSize.toNat = 36 := rfl
  have hzero : UInt64.ofNat 0 * width = 0 := UInt64.zero_mul
  unfold entryAt
  rw [ByteRange.mem_iff, hzero, UInt64.add_zero, UInt64.add_comm, UInt64.add_sub_cancel, hheader]
  show ¬ 36 < (sdtLength m table).toNat
  omega

theorem sdtEntries_pos (hwidth : 0 < width.toNat) (hsmall : width.toNat ≤ 8)
    (hlen : (sdtLength m table).toNat < 36) : 0 < (sdtEntries m table width).toNat := by
  have hheader : kSdtHeaderSize.toNat = 36 := rfl
  unfold sdtEntries
  rw [UInt64.toNat_div, UInt64.toNat_sub, UInt32.toNat_toUInt64, hheader]
  apply Nat.div_pos _ hwidth
  omega

/-- **One table.** The loop stays in the table exactly when the table is at least as long as its header. -/
theorem searchTable_inside_iff (hwidth : 0 < width.toNat) (hsmall : width.toNat ≤ 8)
    (hver : verified m table xsdtSignature = true ∨ verified m table rsdtSignature = true) :
    (searchTable m signature table width).All (EntryRead.Inside m) ↔ 36 ≤ (sdtLength m table).toNat := by
  unfold searchTable
  rw [Traced.all_search_iff]
  constructor
  · intro hall
    by_contra hlen
    have hlt : (sdtLength m table).toNat < 36 := Nat.not_le.mp hlen
    have hpos := sdtEntries_pos hwidth hsmall hlt
    have hfirst := (all_readEntry 0).mp (hall 0 (Nat.le_refl 0) (by omega) fun k _ hk => by omega)
    apply @first_entry_outside m table width hlt
    apply hfirst.2
    rw [ByteRange.mem_iff]
    show (_ - entryAt table width 0).toNat < width.toNat
    rw [UInt64.sub_self]
    exact hwidth
  · intro hlen i _ hi _
    rw [all_readEntry]
    exact ⟨hver, fun a ha => entry_inside hwidth hlen (by omega) ha⟩

/-- **What the loop finds**: nothing, exactly when no entry leads to the table wanted. -/
theorem searchTable_eq_none_iff :
    (searchTable m signature table width).value = none ↔
      ∀ i < (sdtEntries m table width).toNat, wanted m signature (candidateAt m table width i) = false := by
  unfold searchTable
  rw [Traced.search_eq_none_iff]
  have hturn : ∀ i, (readEntry m signature table width i).value = none ↔
      wanted m signature (candidateAt m table width i) = false := by
    intro i
    unfold readEntry
    rw [Traced.value_bind, Traced.value_pure]
    cases wanted m signature (candidateAt m table width i) <;> simp
  constructor
  · intro h i hi
    exact (hturn i).mp (h i (Nat.zero_le i) (by omega))
  · intro h i _ hi
    exact (hturn i).mpr (h i (by omega))

/-! ## The whole function -/

/-- Every root-table entry that `FindAcpiTable` reads lies in a root table that passed its checks. -/
def EntriesInside (m : Lib.Bytes) (rsdp : UInt64) (signature : Fin 4 → UInt8) : Prop :=
  (findAcpiTable m rsdp signature).All (EntryRead.Inside m)

/-- No entry of the XSDT leads to the table wanted, or there is no usable XSDT. -/
def XsdtFails (m : Lib.Bytes) (rsdp : UInt64) (signature : Fin 4 → UInt8) : Prop :=
  xsdtUsable m rsdp = true → ∀ i < (sdtEntries m (xsdtAddress m rsdp) 8).toNat,
    wanted m signature (candidateAt m (xsdtAddress m rsdp) 8 i) = false

theorem tryXsdt_inside_iff :
    (tryXsdt m rsdp signature).All (EntryRead.Inside m) ↔
      (xsdtUsable m rsdp = true → 36 ≤ (sdtLength m (xsdtAddress m rsdp)).toNat) := by
  unfold tryXsdt
  cases husable : xsdtUsable m rsdp with
  | false =>
      rw [if_neg (by simp)]
      exact ⟨fun _ h => absurd h (by simp), fun _ => Traced.all_pure _⟩
  | true =>
      have hver : verified m (xsdtAddress m rsdp) xsdtSignature = true := by
        unfold xsdtUsable at husable
        simp only [Bool.and_eq_true] at husable
        exact husable.2
      rw [if_pos rfl]
      unfold searchXsdt
      rw [searchTable_inside_iff (by decide) (by decide) (Or.inl hver)]
      exact ⟨fun h _ => h, fun h => h rfl⟩

theorem tryXsdt_eq_none_iff : (tryXsdt m rsdp signature).value = none ↔ XsdtFails m rsdp signature := by
  unfold tryXsdt XsdtFails
  cases husable : xsdtUsable m rsdp with
  | false =>
      rw [if_neg (by simp)]
      exact ⟨fun _ h => absurd h (by simp), fun _ => rfl⟩
  | true =>
      rw [if_pos rfl]
      unfold searchXsdt
      rw [searchTable_eq_none_iff]
      exact ⟨fun h _ => h, fun h => h rfl⟩

/-- **The exact condition.** The root tables whose entries are looked at are at least as long as their
    header. -/
theorem findAcpiTable_inside_iff (m : Lib.Bytes) (rsdp : UInt64) (signature : Fin 4 → UInt8) :
    EntriesInside m rsdp signature ↔
      (rsdpValid m rsdp = true →
        (xsdtUsable m rsdp = true → 36 ≤ (sdtLength m (xsdtAddress m rsdp)).toNat) ∧
        (XsdtFails m rsdp signature → rsdtAddress m rsdp ≠ 0 →
          verified m (rsdtAddress m rsdp) rsdtSignature = true →
          36 ≤ (sdtLength m (rsdtAddress m rsdp)).toNat)) := by
  unfold EntriesInside findAcpiTable
  cases hrsdp : rsdpValid m rsdp with
  | false =>
      rw [if_pos (by simp)]
      exact ⟨fun _ h => absurd h (by simp), fun _ => Traced.all_pure _⟩
  | true =>
      have hfails := @tryXsdt_eq_none_iff m rsdp signature
      rw [if_neg (by simp), Traced.all_bind, tryXsdt_inside_iff]
      generalize (tryXsdt m rsdp signature).value = found at hfails ⊢
      cases found with
      | some t =>
          -- found in the XSDT: the RSDT is not looked at
          have hnot : ¬ XsdtFails m rsdp signature := fun h => absurd (hfails.mpr h) (by simp)
          exact ⟨fun h _ => ⟨h.1, fun h' => absurd h' hnot⟩, fun h => ⟨(h rfl).1, Traced.all_pure _⟩⟩
      | none =>
          have hyes : XsdtFails m rsdp signature := hfails.mp rfl
          dsimp only
          by_cases hzero : rsdtAddress m rsdp = 0
          · rw [if_pos hzero]
            exact ⟨fun h _ => ⟨h.1, fun _ h' => absurd hzero h'⟩, fun h => ⟨(h rfl).1, Traced.all_pure _⟩⟩
          · rw [if_neg hzero]
            cases hver : verified m (rsdtAddress m rsdp) rsdtSignature with
            | false =>
                rw [if_pos (by simp)]
                exact ⟨fun h _ => ⟨h.1, fun _ _ h' => absurd h' (by simp)⟩,
                  fun h => ⟨(h rfl).1, Traced.all_pure _⟩⟩
            | true =>
                rw [if_neg (by simp)]
                unfold searchRsdt
                rw [searchTable_inside_iff (by decide) (by decide) (Or.inr hver)]
                exact ⟨fun h _ => ⟨h.1, fun _ _ _ => h.2⟩, fun h => ⟨(h rfl).1, (h rfl).2 hyes hzero rfl⟩⟩

/-! ### Tables that break it -/

/-- A valid root pointer at `0x1000`, and at `0x2000` an RSDT whose `length` is zero. -/
def emptyRsdt : Lib.Bytes := fun a =>
  match a.toNat with
  | 0x1000 => 0x52
  | 0x1001 => 0x53
  | 0x1002 => 0x44
  | 0x1003 => 0x20
  | 0x1004 => 0x50
  | 0x1005 => 0x54
  | 0x1006 => 0x52
  | 0x1007 => 0x20
  | 0x1008 => 0xC1
  | 0x1011 => 0x20
  | 0x2000 => 0x52
  | 0x2001 => 0x53
  | 0x2002 => 0x44
  | 0x2003 => 0x54
  | _      => 0

/-- No byte sums to zero, so the table passes its checksum, and its number of entries is `(2 ^ 64 - 36) / 4`. -/
theorem emptyRsdt_escapes : ¬ EntriesInside emptyRsdt 0x1000 ![0x41, 0x50, 0x49, 0x43] := by
  intro h
  have hrsdp : rsdpValid emptyRsdt 0x1000 = true := by decide
  have hver : verified emptyRsdt (rsdtAddress emptyRsdt 0x1000) rsdtSignature = true := by decide
  have hnone : (tryXsdt emptyRsdt 0x1000 ![0x41, 0x50, 0x49, 0x43]).value = none := by
    rw [tryXsdt_eq_none_iff]
    exact fun h => absurd h (by decide)
  unfold EntriesInside findAcpiTable at h
  rw [hrsdp, if_neg (by simp), Traced.all_bind, hnone] at h
  dsimp only at h
  rw [if_neg (by decide), hver, if_neg (by simp)] at h
  unfold searchRsdt at h
  exact absurd ((searchTable_inside_iff (by decide) (by decide) (Or.inr hver)).mp h.2) (by decide)

end Acpi
end UefiBoot
