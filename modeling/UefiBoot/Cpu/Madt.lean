import UefiBoot.Cpu.Acpi
import UefiBoot.Lib.Walk

/-!
# `Cpu.Madt` — `ParseMadt` and the entries of the interrupt controller table

The MADT is a header and, behind it, entries of varying length that each say how long they are. Nothing checks
the entries but the loop itself: it stops at the first entry that is shorter than its own header or that runs
past the end of the table. The cursor is an offset from the start of the table, since the source compares pointers
into one table.

The loop is a `Traced.walk`, so what it does follows from one turn: `behind` is where an entry ends, `readEntry`
counts the entry at the cursor, and `parseMadt_counts` says what has been counted when the walk is over.
-/

namespace UefiBoot
namespace Acpi

open Lib (ByteRange Traced)
open Lib.Walk (Longest)

/-- `sizeof(MadtHeader)`. -/
def kMadtHeaderSize : Nat := 44

/-- `sizeof(MadtEntryHeader)`. -/
def kMadtEntryHeaderSize : Nat := 2

/-- `sizeof(MadtLocalApic)`. -/
def kMadtLocalApicSize : UInt8 := 8

/-- `sizeof(MadtIoApic)`. -/
def kMadtIoApicSize : UInt8 := 12

def kMaxCpuCores : UInt32 := 16
def kMaxIoApics : UInt32 := 4

/-- `"APIC"`. -/
def madtSignature : Fin 4 → UInt8 := ![0x41, 0x50, 0x49, 0x43]

/-- The fields of `CpuStatus` that `ParseMadt` reads or sets. -/
structure CpuStatus where
  ioapicReady             : Bool
  smpReady                : Bool
  multicoreSchedulerReady : Bool
  lapicBase               : UInt64
  cpuCount                : UInt32
  ioapicCount             : UInt32
  deriving DecidableEq, Repr

/-- `n` bytes at an offset of a table. -/
def fieldAt (table : UInt64) (offset n : Nat) : ByteRange := ⟨table + UInt64.ofNat offset, n⟩

def entryType (m : Lib.Bytes) (table : UInt64) (entry : Nat) : UInt8 := m (table + UInt64.ofNat entry)
def entryLength (m : Lib.Bytes) (table : UInt64) (entry : Nat) : UInt8 := m (table + UInt64.ofNat (entry + 1))

/-- `MadtLocalApic::flags`. -/
def localApicFlags (m : Lib.Bytes) (table : UInt64) (entry : Nat) : UInt32 :=
  m.load32 (table + UInt64.ofNat (entry + 4))

/-- `MadtIoApic::io_apic_address`. -/
def ioApicAddress (m : Lib.Bytes) (table : UInt64) (entry : Nat) : UInt32 :=
  m.load32 (table + UInt64.ofNat (entry + 4))

/-- `MadtHeader::local_apic_address`. -/
def localApicAddress (m : Lib.Bytes) (table : UInt64) : UInt32 := m.load32 (table + 36)

/-- The test of the loop and the one that leaves it; otherwise where the next entry is. -/
def nextEntry (m : Lib.Bytes) (table : UInt64) (entry : Nat) : Traced ByteRange (Option Nat) :=
  if (sdtLength m table).toNat < entry + kMadtEntryHeaderSize then
    pure none
  else do
    Traced.emit (fieldAt table (entry + 1) 1)
    if (entryLength m table entry).toNat < kMadtEntryHeaderSize ∨
        (sdtLength m table).toNat < entry + (entryLength m table entry).toNat then
      pure none
    else
      pure (some (entry + (entryLength m table entry).toNat))

/-- What the loop does with a well-formed entry. -/
def readEntryAt (m : Lib.Bytes) (table : UInt64) (st : CpuStatus) (entry : Nat) : Traced ByteRange CpuStatus := do
  Traced.emit (fieldAt table entry 2)
  if entryType m table entry = 0 ∧ entryLength m table entry ≥ kMadtLocalApicSize then do
    Traced.emit (fieldAt table (entry + 4) 4)
    if localApicFlags m table entry &&& 0x3 ≠ 0 ∧ st.cpuCount < kMaxCpuCores then
      pure { st with cpuCount := st.cpuCount + 1 }
    else
      pure st
  else if entryType m table entry = 1 ∧ entryLength m table entry ≥ kMadtIoApicSize then do
    Traced.emit (fieldAt table (entry + 4) 4)
    if ioApicAddress m table entry ≠ 0 ∧ st.ioapicCount < kMaxIoApics then
      pure { st with ioapicCount := st.ioapicCount + 1 }
    else
      pure st
  else
    pure st

/-- The statements behind the loop. -/
def CpuStatus.finish (st : CpuStatus) : CpuStatus :=
  let cpuCount := if st.cpuCount = 0 then 1 else st.cpuCount
  { st with
    cpuCount := cpuCount
    ioapicReady := st.ioapicCount > 0
    smpReady := cpuCount > 0
    multicoreSchedulerReady := cpuCount > 0 }

/-- The address of the local APIC, unless the processor has named one. -/
def takeLapicBase (m : Lib.Bytes) (table : UInt64) (st : CpuStatus) : Traced ByteRange CpuStatus :=
  if st.lapicBase = 0 then do
    Traced.emit (fieldAt table 36 4)
    if localApicAddress m table ≠ 0 then
      pure { st with lapicBase := (localApicAddress m table).toUInt64 }
    else
      pure st
  else
    pure st

/-- Without a usable table there is one processor. -/
def CpuStatus.single (st : CpuStatus) : CpuStatus :=
  { st with cpuCount := 1, smpReady := true, multicoreSchedulerReady := true }

/-- `ParseMadt`, for at most `turns` tests of the loop; `none` when these did not suffice. -/
def parseMadt (m : Lib.Bytes) (rsdp : UInt64) (turns : Nat) (st : CpuStatus) :
    Traced ByteRange (Option CpuStatus) :=
  match (findAcpiTable m rsdp madtSignature).value with
  | none       => pure (some st.single)
  | some table => do
      Traced.emit (fieldAt table 4 4)
      if (sdtLength m table).toNat < kMadtHeaderSize then
        pure (some st.single)
      else do
        let st ← takeLapicBase m table st
        let walked ← Traced.walk (nextEntry m table) (readEntryAt m table) turns kMadtHeaderSize st
        pure (walked.map CpuStatus.finish)

/-! ## The entry list -/

variable {m : Lib.Bytes} {rsdp table : UInt64} {st : CpuStatus} {entry turns : Nat}

/-- Where the entry at an offset ends, when it is well formed: its header and all of it lie in the table, and it
    is as long as its header at least. -/
def behind (m : Lib.Bytes) (table : UInt64) (entry : Nat) : Option Nat :=
  if entry + 2 ≤ (sdtLength m table).toNat ∧ 2 ≤ (entryLength m table entry).toNat ∧
      entry + (entryLength m table entry).toNat ≤ (sdtLength m table).toNat then
    some (entry + (entryLength m table entry).toNat)
  else
    none

/-- A processor that is enabled or can be brought online. -/
def isUsableCpu (m : Lib.Bytes) (table : UInt64) (entry : Nat) : Bool :=
  entryType m table entry == 0 && entryLength m table entry ≥ kMadtLocalApicSize &&
    localApicFlags m table entry &&& 0x3 != 0

/-- An I/O APIC with an address. -/
def isIoApic (m : Lib.Bytes) (table : UInt64) (entry : Nat) : Bool :=
  entryType m table entry == 1 && entryLength m table entry ≥ kMadtIoApicSize && ioApicAddress m table entry != 0

/-- The bytes of the table. -/
def tableRange (m : Lib.Bytes) (table : UInt64) : ByteRange := ⟨table, (sdtLength m table).toNat⟩

/-- A read stays inside the table. -/
def ReadsInside (m : Lib.Bytes) (table : UInt64) (r : ByteRange) : Prop := ∀ a ∈ r, a ∈ tableRange m table

theorem value_nextEntry : (nextEntry m table entry).value = behind m table entry := by
  unfold nextEntry behind kMadtEntryHeaderSize
  by_cases hheader : (sdtLength m table).toNat < entry + 2
  · rw [if_pos hheader, if_neg fun h => by omega]
    rfl
  · rw [if_neg hheader, Traced.value_bind]
    by_cases hbad : (entryLength m table entry).toNat < 2 ∨
        (sdtLength m table).toNat < entry + (entryLength m table entry).toNat
    · rw [if_pos hbad, if_neg fun h => by omega]
      rfl
    · rw [if_neg hbad, if_pos (by omega)]
      rfl

theorem behind_eq_some {next : Nat} (h : behind m table entry = some next) :
    2 ≤ (entryLength m table entry).toNat ∧ next = entry + (entryLength m table entry).toNat ∧
      next ≤ (sdtLength m table).toNat := by
  unfold behind at h
  split at h
  · next hwell =>
      cases h
      exact ⟨hwell.2.1, rfl, hwell.2.2⟩
  · exact absurd h (by simp)

/-- Every entry brings the cursor closer to the end of the table. -/
theorem behind_progress (m : Lib.Bytes) (table : UInt64) (a b : Nat) (h : behind m table a = some b) :
    (sdtLength m table).toNat - b < (sdtLength m table).toNat - a := by
  obtain ⟨hsize, rfl, hle⟩ := behind_eq_some h
  omega

/-! ## Staying inside -/

theorem fieldAt_inside {offset n : Nat} (h : offset + n ≤ (sdtLength m table).toNat) :
    ReadsInside m table (fieldAt table offset n) := by
  have hlt := (sdtLength m table).toNat_lt
  intro a ha
  obtain ⟨k, hk, -, rfl⟩ := ByteRange.exists_offset ha
  have hk' : k < n := hk
  show table + UInt64.ofNat offset + UInt64.ofNat k ∈ _
  rw [UInt64.add_assoc, ← UInt64.ofNat_add]
  exact @ByteRange.mem_offset (tableRange m table) _ (by show _ < (sdtLength m table).toNat; omega) (by omega)

theorem nextEntry_inside (entry : Nat) : (nextEntry m table entry).All (ReadsInside m table) := by
  unfold nextEntry kMadtEntryHeaderSize
  split
  · exact Traced.all_pure none
  · rw [Traced.all_bind, Traced.all_emit]
    refine ⟨fieldAt_inside (by omega), ?_⟩
    split
    · exact Traced.all_pure none
    · exact Traced.all_pure (some _)

/-- The fields of an entry are read only if the entry is long enough to have them. -/
theorem readEntryAt_inside {next : Nat} (h : behind m table entry = some next) :
    (readEntryAt m table st entry).All (ReadsInside m table) := by
  obtain ⟨hsize, rfl, hle⟩ := behind_eq_some h
  unfold readEntryAt
  rw [Traced.all_bind, Traced.all_emit]
  refine ⟨fieldAt_inside (by omega), ?_⟩
  split
  · next hlocal =>
      have hlong : 8 ≤ (entryLength m table entry).toNat := hlocal.2
      rw [Traced.all_bind, Traced.all_emit]
      refine ⟨fieldAt_inside (by omega), ?_⟩
      split <;> exact Traced.all_pure _
  · split
    · next hio =>
        have hlong : 12 ≤ (entryLength m table entry).toNat := hio.2
        rw [Traced.all_bind, Traced.all_emit]
        refine ⟨fieldAt_inside (by omega), ?_⟩
        split <;> exact Traced.all_pure _
    · exact Traced.all_pure st

theorem takeLapicBase_inside (h : 44 ≤ (sdtLength m table).toNat) :
    (takeLapicBase m table st).All (ReadsInside m table) := by
  unfold takeLapicBase
  split
  · rw [Traced.all_bind, Traced.all_emit]
    refine ⟨fieldAt_inside (by omega), ?_⟩
    split <;> exact Traced.all_pure _
  · exact Traced.all_pure st

/-! ## Counting -/

theorem isUsableCpu_iff :
    isUsableCpu m table entry = true ↔
      (entryType m table entry = 0 ∧ entryLength m table entry ≥ kMadtLocalApicSize) ∧
        localApicFlags m table entry &&& 0x3 ≠ 0 := by
  unfold isUsableCpu
  simp only [Bool.and_eq_true, beq_iff_eq, bne_iff_ne, decide_eq_true_eq]

theorem isIoApic_iff :
    isIoApic m table entry = true ↔
      (entryType m table entry = 1 ∧ entryLength m table entry ≥ kMadtIoApicSize) ∧
        ioApicAddress m table entry ≠ 0 := by
  unfold isIoApic
  simp only [Bool.and_eq_true, beq_iff_eq, bne_iff_ne, decide_eq_true_eq]

/-- An entry is of one type only. -/
theorem not_isIoApic_of_type (h : entryType m table entry = 0) : ¬ isIoApic m table entry = true := by
  rw [isIoApic_iff, h]
  exact fun hio => absurd hio.1.1 (by decide)

/-- What one entry adds. -/
theorem value_readEntryAt (st : CpuStatus) (entry : Nat) :
    (readEntryAt m table st entry).value =
      if isUsableCpu m table entry = true ∧ st.cpuCount < kMaxCpuCores then
        { st with cpuCount := st.cpuCount + 1 }
      else if isIoApic m table entry = true ∧ st.ioapicCount < kMaxIoApics then
        { st with ioapicCount := st.ioapicCount + 1 }
      else
        st := by
  unfold readEntryAt
  rw [Traced.value_bind]
  by_cases hlocal : entryType m table entry = 0 ∧ entryLength m table entry ≥ kMadtLocalApicSize
  · have hio : ¬ (isIoApic m table entry = true ∧ st.ioapicCount < kMaxIoApics) :=
      fun h => not_isIoApic_of_type hlocal.1 h.1
    rw [if_pos hlocal, Traced.value_bind, if_neg hio]
    by_cases hcount : localApicFlags m table entry &&& 0x3 ≠ 0 ∧ st.cpuCount < kMaxCpuCores
    · rw [if_pos hcount, if_pos ⟨isUsableCpu_iff.mpr ⟨hlocal, hcount.1⟩, hcount.2⟩]
      rfl
    · rw [if_neg hcount, if_neg fun h => hcount ⟨(isUsableCpu_iff.mp h.1).2, h.2⟩]
      rfl
  · have hcpu : ¬ (isUsableCpu m table entry = true ∧ st.cpuCount < kMaxCpuCores) :=
      fun h => hlocal (isUsableCpu_iff.mp h.1).1
    rw [if_neg hlocal, if_neg hcpu]
    by_cases hio : entryType m table entry = 1 ∧ entryLength m table entry ≥ kMadtIoApicSize
    · rw [if_pos hio, Traced.value_bind]
      by_cases hcount : ioApicAddress m table entry ≠ 0 ∧ st.ioapicCount < kMaxIoApics
      · rw [if_pos hcount, if_pos ⟨isIoApic_iff.mpr ⟨hio, hcount.1⟩, hcount.2⟩]
        rfl
      · rw [if_neg hcount, if_neg fun h => hcount ⟨(isIoApic_iff.mp h.1).2, h.2⟩]
        rfl
    · rw [if_neg hio, if_neg fun h => hio (isIoApic_iff.mp h.1).1]
      rfl

theorem readEntryAt_cpuCount (st : CpuStatus) (entry : Nat) :
    (readEntryAt m table st entry).value.cpuCount.toNat =
      if isUsableCpu m table entry = true ∧ st.cpuCount.toNat < 16 then st.cpuCount.toNat + 1
      else st.cpuCount.toNat := by
  have hcap : st.cpuCount < kMaxCpuCores ↔ st.cpuCount.toNat < 16 := UInt32.lt_iff_toNat_lt
  have hone : (1 : UInt32).toNat = 1 := rfl
  rw [value_readEntryAt]
  by_cases hcpu : isUsableCpu m table entry = true ∧ st.cpuCount < kMaxCpuCores
  · have hlt := hcap.mp hcpu.2
    rw [if_pos hcpu, if_pos ⟨hcpu.1, hlt⟩]
    show (st.cpuCount + 1).toNat = _
    rw [UInt32.toNat_add, hone]
    omega
  · have hcpu' : ¬ (isUsableCpu m table entry = true ∧ st.cpuCount.toNat < 16) :=
      fun h => hcpu ⟨h.1, hcap.mpr h.2⟩
    rw [if_neg hcpu, if_neg hcpu']
    split <;> rfl

theorem readEntryAt_ioapicCount (st : CpuStatus) (entry : Nat) :
    (readEntryAt m table st entry).value.ioapicCount.toNat =
      if isIoApic m table entry = true ∧ st.ioapicCount.toNat < 4 then st.ioapicCount.toNat + 1
      else st.ioapicCount.toNat := by
  have hcap : st.ioapicCount < kMaxIoApics ↔ st.ioapicCount.toNat < 4 := UInt32.lt_iff_toNat_lt
  have hone : (1 : UInt32).toNat = 1 := rfl
  rw [value_readEntryAt]
  by_cases hcpu : isUsableCpu m table entry = true ∧ st.cpuCount < kMaxCpuCores
  · have htype := (isUsableCpu_iff.mp hcpu.1).1.1
    rw [if_pos hcpu, if_neg fun h => not_isIoApic_of_type htype h.1]
  · rw [if_neg hcpu]
    by_cases hio : isIoApic m table entry = true ∧ st.ioapicCount < kMaxIoApics
    · have hlt := hcap.mp hio.2
      rw [if_pos hio, if_pos ⟨hio.1, hlt⟩]
      show (st.ioapicCount + 1).toNat = _
      rw [UInt32.toNat_add, hone]
      omega
    · rw [if_neg hio, if_neg fun h => hio ⟨h.1, hcap.mpr h.2⟩]

theorem takeLapicBase_counts :
    (takeLapicBase m table st).value.cpuCount = st.cpuCount ∧
      (takeLapicBase m table st).value.ioapicCount = st.ioapicCount := by
  unfold takeLapicBase
  split
  · rw [Traced.value_bind]
    split <;> exact ⟨rfl, rfl⟩
  · exact ⟨rfl, rfl⟩

/-- The statements behind the loop leave the number of I/O APICs alone and make the number of processors one at
    least. -/
theorem finish_counts (st : CpuStatus) :
    st.finish.cpuCount.toNat = max 1 st.cpuCount.toNat ∧ st.finish.ioapicCount = st.ioapicCount := by
  refine ⟨?_, rfl⟩
  unfold CpuStatus.finish
  dsimp only
  by_cases hzero : st.cpuCount = 0
  · rw [if_pos hzero, hzero]
    rfl
  · have hne : st.cpuCount.toNat ≠ 0 := fun h => hzero (UInt32.toNat_inj.mp h)
    rw [if_neg hzero]
    omega

/-! ## The whole function -/

/-- Whatever is in the table, and however many turns the loop takes, nothing outside it is read. -/
theorem parseMadt_inside (hfound : (findAcpiTable m rsdp madtSignature).value = some table)
    (hlen : 44 ≤ (sdtLength m table).toNat) (turns : Nat) (st : CpuStatus) :
    (parseMadt m rsdp turns st).All (ReadsInside m table) := by
  unfold parseMadt kMadtHeaderSize
  rw [hfound]
  dsimp only
  rw [Traced.all_bind, Traced.all_emit, if_neg (by omega), Traced.all_bind, Traced.all_bind]
  refine ⟨fieldAt_inside (by omega), takeLapicBase_inside hlen, ?_, Traced.all_pure _⟩
  apply Traced.all_walk nextEntry_inside
  intro a b s hnext
  rw [value_nextEntry] at hnext
  exact readEntryAt_inside hnext

/-- The result, for a loop that had enough turns. -/
theorem parseMadt_value {entries : List Nat} (hfound : (findAcpiTable m rsdp madtSignature).value = some table)
    (hlen : 44 ≤ (sdtLength m table).toNat) (hlong : Longest (behind m table) 44 entries)
    (hturns : entries.length < turns) (st : CpuStatus) :
    (parseMadt m rsdp turns st).value =
      some (entries.foldl (fun s a => (readEntryAt m table s a).value)
        (takeLapicBase m table st).value).finish := by
  have hnext : (fun a => (nextEntry m table a).value) = behind m table := funext fun a => value_nextEntry
  rw [← hnext] at hlong
  unfold parseMadt kMadtHeaderSize
  rw [hfound]
  dsimp only
  rw [Traced.value_bind, if_neg (by omega), Traced.value_bind, Traced.value_bind,
    Traced.value_walk hlong hturns]
  rfl

/-- **The entries are counted.** For a table at least as long as its header, the loop ends, it reads nothing
    outside the table, and from zero counts it ends with the processors and the I/O APICs of the longest
    well-formed list of entries, up to the limits. -/
theorem parseMadt_counts (hfound : (findAcpiTable m rsdp madtSignature).value = some table)
    (hlen : 44 ≤ (sdtLength m table).toNat) (hcpu : st.cpuCount = 0) (hio : st.ioapicCount = 0)
    (hturns : (sdtLength m table).toNat ≤ turns) :
    ∃ entries st', Longest (behind m table) 44 entries ∧
      (parseMadt m rsdp turns st).value = some st' ∧
      (parseMadt m rsdp turns st).All (ReadsInside m table) ∧
      st'.cpuCount.toNat = max 1 (min kMaxCpuCores.toNat (entries.countP (isUsableCpu m table))) ∧
      st'.ioapicCount.toNat = min kMaxIoApics.toNat (entries.countP (isIoApic m table)) := by
  obtain ⟨entries, hlong, hcount⟩ := Lib.Walk.exists_longest _ (behind_progress m table) 44
  obtain ⟨hcpu', hio'⟩ := @takeLapicBase_counts m table st
  rw [hcpu] at hcpu'
  rw [hio] at hio'
  refine ⟨entries, _, hlong, parseMadt_value hfound hlen hlong (by omega) st,
    parseMadt_inside hfound hlen turns st, ?_, ?_⟩
  · rw [(finish_counts _).1, Lib.Walk.foldl_counter (fun s : CpuStatus => s.cpuCount.toNat) _ _ 16
      readEntryAt_cpuCount _ (by rw [hcpu']; decide), hcpu']
    have hzero : (0 : UInt32).toNat = 0 := rfl
    rw [hzero, Nat.zero_add]
    rfl
  · rw [(finish_counts _).2, Lib.Walk.foldl_counter (fun s : CpuStatus => s.ioapicCount.toNat) _ _ 4
      readEntryAt_ioapicCount _ (by rw [hio']; decide), hio']
    have hzero : (0 : UInt32).toNat = 0 := rfl
    rw [hzero, Nat.zero_add]
    rfl

/-- A root pointer at `0x1000`, an RSDT with one entry at `0x2000`, and at `0x3000` a MADT with one processor and
    one I/O APIC. -/
def smallMadt : Lib.Bytes := fun a =>
  match a.toNat with
  | 0x1000 => 0x52
  | 0x1001 => 0x53
  | 0x1002 => 0x44
  | 0x1003 => 0x20
  | 0x1004 => 0x50
  | 0x1005 => 0x54
  | 0x1006 => 0x52
  | 0x1007 => 0x20
  | 0x1008 => 0xC1
  | 0x1011 => 0x20
  | 0x2000 => 0x52
  | 0x2001 => 0x53
  | 0x2002 => 0x44
  | 0x2003 => 0x54
  | 0x2004 => 0x28
  | 0x2009 => 0x6B
  | 0x2025 => 0x30
  | 0x3000 => 0x41
  | 0x3001 => 0x50
  | 0x3002 => 0x49
  | 0x3003 => 0x43
  | 0x3004 => 0x40
  | 0x3009 => 0xCF
  | 0x302D => 0x08
  | 0x3030 => 0x01
  | 0x3034 => 0x01
  | 0x3035 => 0x0C
  | 0x303A => 0xC0
  | 0x303B => 0xFE
  | _      => 0

def smallStatus : CpuStatus := ⟨false, false, false, 0, 0, 0⟩

theorem smallMadt_found : (findAcpiTable smallMadt 0x1000 madtSignature).value = some 0x3000 := by
  decide +kernel

theorem parseMadt_counts_small :
    ∃ entries st', Longest (behind smallMadt 0x3000) 44 entries ∧
      (parseMadt smallMadt 0x1000 64 smallStatus).value = some st' ∧
      (parseMadt smallMadt 0x1000 64 smallStatus).All (ReadsInside smallMadt 0x3000) ∧
      st'.cpuCount.toNat = max 1 (min kMaxCpuCores.toNat (entries.countP (isUsableCpu smallMadt 0x3000))) ∧
      st'.ioapicCount.toNat = min kMaxIoApics.toNat (entries.countP (isIoApic smallMadt 0x3000)) :=
  parseMadt_counts smallMadt_found (by decide) rfl rfl (by decide)

end Acpi
end UefiBoot
