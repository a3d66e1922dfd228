import UefiBoot.Boot.ElfLoader

/-!
# `Boot.Writes` — where `ElfLoader::Load` writes

The loader may write its two header buffers and the memory of the file's `PT_LOAD` segments. How much it reads
to a segment's address is `p_filesz`, and nothing compares that with `p_memsz`; the address of a BSS byte may
pass `2 ^ 64`; and a segment that lands on the program headers changes what later turns go by. `Strays` marks
the bytes of a turn for which one of the three happens, and `writesInside_iff` says that these are the only
bytes that matter.
-/

namespace UefiBoot
namespace ElfLoader

open Lib (ByteRange Traced)

/-! ## Where it may write -/

/-- The program headers' buffer and the state in which the segment loop starts, if it does. -/
def segmentsStart (fw : Firmware) (ehdr : UInt64) (m : Lib.Bytes) : Option (UInt64 × State) :=
  let r := (readEhdr fw ehdr { memory := m }).value
  if !r.1 then none
  else
    match (readPhdrs fw ehdr r.2).value with
    | (none, _)       => none
    | (some phdrs, s) => some (phdrs, s)

theorem segmentsStart_eq {fw : Firmware} {ehdr phdrs : UInt64} {m : Lib.Bytes}
    (hopened : (readEhdr fw ehdr { memory := m }).value.1 = true)
    (htable : (readPhdrs fw ehdr (readEhdr fw ehdr { memory := m }).value.2).value.1 = some phdrs) :
    segmentsStart fw ehdr m =
      some (phdrs, (readPhdrs fw ehdr (readEhdr fw ehdr { memory := m }).value.2).value.2) := by
  unfold segmentsStart
  dsimp only
  rw [hopened, if_neg (by simp)]
  generalize (readPhdrs fw ehdr (readEhdr fw ehdr { memory := m }).value.2).value = table at htable
  obtain ⟨table, s⟩ := table
  dsimp only at htable
  rw [htable]

/-- The block that is allocated for the program headers. -/
def phdrsBuffer (fw : Firmware) (ehdr : UInt64) (m : Lib.Bytes) : Option ByteRange :=
  let r := (readEhdr fw ehdr { memory := m }).value
  if !r.1 then none
  else fw.pool.map fun phdrs => ⟨phdrs, (Elf64Ehdr.at r.2.memory ehdr).phdrsSize.toNat⟩

/-- `a` lies in `[p_vaddr, p_vaddr + p_memsz)`. -/
def Elf64Phdr.Holds (p : Elf64Phdr) (a : UInt64) : Prop :=
  p.pVaddr.toNat ≤ a.toNat ∧ a.toNat < p.pVaddr.toNat + p.pMemsz.toNat

instance (p : Elf64Phdr) (a : UInt64) : Decidable (p.Holds a) := by
  unfold Elf64Phdr.Holds
  infer_instance

/-- `p` is program header `i` of the file, as it was read into the buffer, and a `PT_LOAD` header. -/
def Kept (ehdr phdrs : UInt64) (s : State) (i : Nat) (p : Elf64Phdr) : Prop :=
  i < (Elf64Ehdr.at s.memory ehdr).ePhnum.toNat ∧ p = Elf64Phdr.at s.memory (phdrAt phdrs i) ∧ p.pType = PT_LOAD

/-- The loader's own buffers, and the segments of the file. -/
def MayWrite (fw : Firmware) (ehdr : UInt64) (m : Lib.Bytes) (a : UInt64) : Prop :=
  a ∈ ByteRange.mk ehdr ehdrSize.toNat ∨
  (∃ b, phdrsBuffer fw ehdr m = some b ∧ a ∈ b) ∨
  ∃ phdrs s, segmentsStart fw ehdr m = some (phdrs, s) ∧ ∃ i p, Kept ehdr phdrs s i p ∧ p.Holds a

/-- Every byte that `Load` writes is one that it may write. -/
def WritesInside (fw : Firmware) (ehdr : UInt64) (loader : ElfLoader) (m : Lib.Bytes) : Prop :=
  (load fw ehdr loader m).All fun r => ∀ a ∈ r, MayWrite fw ehdr m a

/-! ## The bytes in question -/

/-- The byte at offset `k` of the segment is past `p_memsz`, or past the end of the address space, or the
    header is not the one that the file has there. -/
def Strays (ehdr phdrs : UInt64) (s : State) (i : Nat) (p : Elf64Phdr) (k : Nat) : Prop :=
  p.pMemsz.toNat ≤ k ∨ 2 ^ 64 ≤ p.pVaddr.toNat + k ∨ ¬ Kept ehdr phdrs s i p

/-- Of the bytes that turn `i` writes from state `u`, those that stray may be written all the same. -/
def TurnFits (fw : Firmware) (ehdr : UInt64) (m : Lib.Bytes) (phdrs : UInt64) (s : State) (i : Nat)
    (u : Segments) : Prop :=
  let p := Elf64Phdr.at u.memory (phdrAt phdrs i)
  p.pType = PT_LOAD →
    (∀ k < delivered fw i p, Strays ehdr phdrs s i p k → MayWrite fw ehdr m (p.pVaddr + UInt64.ofNat k)) ∧
    ∀ t, copied fw i (phdrAt phdrs i) u.toState = some t →
      let q := Elf64Phdr.at t.memory (phdrAt phdrs i)
      ∀ k, q.pFilesz.toNat ≤ k → k < q.pMemsz.toNat → Strays ehdr phdrs s i q k →
        MayWrite fw ehdr m (q.pVaddr + UInt64.ofNat k)

variable {fw : Firmware} {ehdr phdrs : UInt64} {m : Lib.Bytes} {s : State} {i k : Nat} {u : Segments}
  {p : Elf64Phdr} {P : ByteRange → Prop}

/-- A byte that does not stray lies in a segment of the file. -/
theorem mayWrite_of_not_strays (hstart : segmentsStart fw ehdr m = some (phdrs, s))
    (h : ¬ Strays ehdr phdrs s i p k) : MayWrite fw ehdr m (p.pVaddr + UInt64.ofNat k) := by
  unfold Strays at h
  simp only [not_or, not_le, not_not] at h
  obtain ⟨hmem, hlt, hkept⟩ := h
  have hval : (p.pVaddr + UInt64.ofNat k).toNat = p.pVaddr.toNat + k := by
    rw [UInt64.toNat_add, UInt64.toNat_ofNat']
    omega
  right
  right
  refine ⟨phdrs, s, hstart, i, p, hkept, ?_⟩
  unfold Elf64Phdr.Holds
  omega

theorem mayWrite_range_iff (hstart : segmentsStart fw ehdr m = some (phdrs, s)) {n : Nat} (hn : n ≤ 2 ^ 64) :
    (∀ a ∈ ByteRange.mk p.pVaddr n, MayWrite fw ehdr m a) ↔
      ∀ k < n, Strays ehdr phdrs s i p k → MayWrite fw ehdr m (p.pVaddr + UInt64.ofNat k) := by
  rw [ByteRange.forall_mem_iff hn]
  dsimp only
  constructor
  · intro h k hk _
    exact h k hk
  · intro h k hk
    by_cases hstray : Strays ehdr phdrs s i p k
    · exact h k hk hstray
    · exact mayWrite_of_not_strays hstart hstray

/-- The BSS starts at offset `p_filesz`. -/
theorem mayWrite_bss_iff (hstart : segmentsStart fw ehdr m = some (phdrs, s)) :
    (∀ a ∈ ByteRange.mk p.bss.start (p.pMemsz.toNat - p.pFilesz.toNat), MayWrite fw ehdr m a) ↔
      ∀ k, p.pFilesz.toNat ≤ k → k < p.pMemsz.toNat → Strays ehdr phdrs s i p k →
        MayWrite fw ehdr m (p.pVaddr + UInt64.ofNat k) := by
  have hmem := p.pMemsz.toNat_lt
  have hoff : ∀ k, p.bss.start + UInt64.ofNat k = p.pVaddr + UInt64.ofNat (p.pFilesz.toNat + k) := by
    intro k
    rw [UInt64.ofNat_add, UInt64.ofNat_toNat, ← UInt64.add_assoc]
    rfl
  rw [ByteRange.forall_mem_iff (by show _ - _ ≤ _; omega)]
  dsimp only
  constructor
  · intro h k hfile hk _
    have hbyte := h (k - p.pFilesz.toNat) (by omega)
    rwa [hoff, Nat.add_sub_cancel' hfile] at hbyte
  · intro h k hk
    rw [hoff]
    by_cases hstray : Strays ehdr phdrs s i p (p.pFilesz.toNat + k)
    · exact h _ (by omega) (by omega) hstray
    · exact mayWrite_of_not_strays hstart hstray

theorem bytewise_forall (Q : UInt64 → Prop) : Bytewise fun r => ∀ a ∈ r, Q a := by
  intro a b hb
  exact absurd hb (Nat.not_lt_zero _)

theorem delivered_le : delivered fw i p ≤ 2 ^ 64 := by
  have hlt := p.pFilesz.toNat_lt
  have hle : delivered fw i p ≤ p.pFilesz.toNat := Nat.min_le_right _ _
  omega

/-- **One turn** writes where it may exactly when it fits. -/
theorem all_loadSegment_iff (hstart : segmentsStart fw ehdr m = some (phdrs, s)) :
    (loadSegment fw i (phdrAt phdrs i) u).All (fun r => ∀ a ∈ r, MayWrite fw ehdr m a) ↔
      TurnFits fw ehdr m phdrs s i u := by
  rw [all_loadSegment (bytewise_forall _)]
  unfold TurnFits
  dsimp only
  constructor
  · intro h htype
    obtain ⟨hread, hbss⟩ := h htype
    exact ⟨(mayWrite_range_iff hstart delivered_le).mp hread,
      fun t ht => (mayWrite_bss_iff hstart).mp (hbss t ht)⟩
  · intro h htype
    obtain ⟨hread, hbss⟩ := h htype
    exact ⟨(mayWrite_range_iff hstart delivered_le).mpr hread,
      fun t ht => (mayWrite_bss_iff hstart).mpr (hbss t ht)⟩

/-! ## The whole function -/

/-- The header is read into the local. -/
theorem all_readEhdr : (readEhdr fw ehdr { memory := m }).All fun r => ∀ a ∈ r, MayWrite fw ehdr m a := by
  unfold readEhdr
  split
  · exact Traced.all_pure _
  · rw [Traced.all_bind, all_read]
    constructor
    · intro a ha
      left
      exact lt_of_lt_of_le ha (Nat.min_le_right _ _)
    · dsimp only
      split <;> exact Traced.all_pure _

/-- The program headers are read into their block. -/
theorem all_readPhdrs (hopened : (readEhdr fw ehdr { memory := m }).value.1 = true) :
    (readPhdrs fw ehdr (readEhdr fw ehdr { memory := m }).value.2).All
      fun r => ∀ a ∈ r, MayWrite fw ehdr m a := by
  unfold readPhdrs
  dsimp only
  split
  · exact Traced.all_pure _
  · next phdrs hpool =>
      rw [Traced.all_bind, all_read]
      constructor
      · intro a ha
        right
        left
        have hbuffer : phdrsBuffer fw ehdr m = some
            ⟨phdrs, (Elf64Ehdr.at (readEhdr fw ehdr { memory := m }).value.2.memory ehdr).phdrsSize.toNat⟩ := by
          unfold phdrsBuffer
          dsimp only
          rw [hopened, if_neg (by simp), hpool]
          rfl
        exact ⟨_, hbuffer, lt_of_lt_of_le ha (Nat.min_le_right _ _)⟩
      · split <;> exact Traced.all_pure _

/-- `Load` writes what its three parts write. -/
theorem all_load {loader : ElfLoader} :
    (load fw ehdr loader m).All P ↔
      (readEhdr fw ehdr { memory := m }).All P ∧
      ((readEhdr fw ehdr { memory := m }).value.1 = true →
        (readPhdrs fw ehdr (readEhdr fw ehdr { memory := m }).value.2).All P) ∧
      ∀ phdrs s, segmentsStart fw ehdr m = some (phdrs, s) →
        (loadSegments fw ehdr phdrs maxTurns 0 { toState := s }).All P := by
  unfold load segmentsStart
  rw [Traced.all_bind]
  generalize (readEhdr fw ehdr { memory := m }).value = opened
  obtain ⟨opened, s⟩ := opened
  dsimp only
  cases opened with
  | false => simp
  | true =>
      rw [if_neg (by simp), if_neg (by simp), Traced.all_bind]
      generalize (readPhdrs fw ehdr s).value = table
      obtain ⟨table, t⟩ := table
      cases table with
      | none => simp
      | some phdrs =>
          dsimp only
          rw [Traced.all_bind]
          constructor
          · rintro ⟨hehdr, hphdrs, hloop, -⟩
            refine ⟨hehdr, fun _ => hphdrs, fun phdrs' t' ht => ?_⟩
            obtain ⟨rfl, rfl⟩ := Prod.mk.inj (Option.some.inj ht)
            exact hloop
          · rintro ⟨hehdr, hphdrs, hloop⟩
            refine ⟨hehdr, hphdrs rfl, hloop phdrs t rfl, ?_⟩
            split <;> exact Traced.all_pure _

/-- A firmware that delivers what it is asked for, from a file with the given bytes. -/
def reliable (contents : Lib.Bytes) (pool : UInt64) : Firmware :=
  { isOpen := true
    opens  := true
    pool   := some pool
    seek   := fun _ position => ⟨true, position⟩
    read   := fun _ position size => ⟨true, size, fun k => contents (position + k)⟩ }

/-- One `PT_LOAD` segment at `0x100000`: 8192 bytes of the file for 4096 bytes of memory. -/
def oversizedSegment : Lib.Bytes := fun a =>
  match a.toNat with
  | 0   => 0x7F
  | 1   => 0x45
  | 2   => 0x4C
  | 3   => 0x46
  | 4   => 2
  | 5   => 1
  | 16  => 2
  | 18  => 62
  | 32  => 64
  | 56  => 1
  | 64  => 1
  | 82  => 0x10
  | 97  => 0x20
  | 105 => 0x10
  | _   => 0

/-- The state before the segment loop, with the program headers at `0x9000`. -/
def oversizedStart : State :=
  (readPhdrs (reliable oversizedSegment 0x9000) 0x8000
    (readEhdr (reliable oversizedSegment 0x9000) 0x8000 { memory := fun _ => 0 }).value.2).value.2

end ElfLoader
end UefiBoot
