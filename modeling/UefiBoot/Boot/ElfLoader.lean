import UefiBoot.Lib.ByteRange
import UefiBoot.Lib.Traced

/-!
# `Boot.ElfLoader` — `ElfLoader::Load`, which puts the kernel into memory

The loader reads the ELF header into a local, the program headers into a block from the pool, and then each
`PT_LOAD` segment straight to its `p_vaddr`, in the memory that its own buffers are in. The model keeps both
buffers in memory and reads a field there each time the code does, so a segment that lands on them is seen by
the turns that follow.

What the firmware answers is a `Firmware`: where a seek puts the file, how many bytes a read delivers, and
which. Every range of bytes that is written is logged. `all_loadSegments` says which turns of the segment loop
are reached and what they write.
-/

namespace UefiBoot

/-- The members that `Load` sets. -/
structure ElfLoader where
  mKernelBase : UInt64 := 0
  mKernelSize : UInt64 := 0
  mEntryPoint : UInt64 := 0

namespace ElfLoader

open Lib (ByteRange Traced)

def PT_LOAD : UInt32 := 1
def ELF_MAGIC : List UInt8 := [0x7F, 0x45, 0x4C, 0x46]
def EM_X86_64 : UInt16 := 62
def ET_EXEC : UInt16 := 2
def ET_DYN : UInt16 := 3

/-- `sizeof(Elf64_Ehdr)`. -/
def ehdrSize : UInt64 := 64

/-- `sizeof(Elf64_Phdr)`. -/
def phdrSize : UInt64 := 56

/-! ## The headers -/

/-- The fields of `Elf64_Ehdr` that the loader reads; of `e_ident`, the first six bytes. -/
structure Elf64Ehdr where
  eIdent   : List UInt8
  eType    : UInt16
  eMachine : UInt16
  eEntry   : UInt64
  ePhoff   : UInt64
  ePhnum   : UInt16

/-- The header whose first byte is at `a`. -/
def Elf64Ehdr.at (m : Lib.Bytes) (a : UInt64) : Elf64Ehdr :=
  { eIdent   := (List.range 6).map fun i => m (a + UInt64.ofNat i)
    eType    := m.load16 (a + 16)
    eMachine := m.load16 (a + 18)
    eEntry   := m.load64 (a + 24)
    ePhoff   := m.load64 (a + 32)
    ePhnum   := m.load16 (a + 56) }

/-- The fields of `Elf64_Phdr` that the loader uses for more than a message. -/
structure Elf64Phdr where
  pType   : UInt32
  pOffset : UInt64
  pVaddr  : UInt64
  pFilesz : UInt64
  pMemsz  : UInt64
  deriving DecidableEq

/-- The program header whose first byte is at `a`. -/
def Elf64Phdr.at (m : Lib.Bytes) (a : UInt64) : Elf64Phdr :=
  { pType   := m.load32 a
    pOffset := m.load64 (a + 8)
    pVaddr  := m.load64 (a + 16)
    pFilesz := m.load64 (a + 32)
    pMemsz  := m.load64 (a + 40) }

/-- `&phdrs[i]`. -/
def phdrAt (phdrs : UInt64) (i : Nat) : UInt64 := phdrs + UInt64.ofNat i * phdrSize

/-- `ehdr.e_phnum * sizeof(Elf64_Phdr)`. -/
def Elf64Ehdr.phdrsSize (ehdr : Elf64Ehdr) : UInt64 := ehdr.ePhnum.toUInt64 * phdrSize

/-- The checks on the ELF header: magic, `ELFCLASS64`, `ELFDATA2LSB`, machine and type. -/
def Elf64Ehdr.accepted (ehdr : Elf64Ehdr) : Bool :=
  ehdr.eIdent == ELF_MAGIC ++ [2, 1] &&
  ehdr.eMachine == EM_X86_64 &&
  (ehdr.eType == ET_EXEC || ehdr.eType == ET_DYN)

/-! ## The file -/

/-- The places where the loader seeks and then reads. -/
inductive Call where
  | ehdr
  | phdrs
  | segment (i : Nat)
  deriving DecidableEq

/-- What `EFI_FILE_PROTOCOL.SetPosition` does: its status, and where the file is afterwards. -/
structure SeekResult where
  success  : Bool
  position : UInt64

/-- What `EFI_FILE_PROTOCOL.Read` does: its status, the size it returns, and the bytes it delivers. -/
structure ReadResult where
  success : Bool
  count   : UInt64
  data    : Lib.Bytes

/-- The answers of the firmware. A seek is asked for a position; a read for a size, at the position where the
    file is. `pool` is the block that `AllocatePool` returns, if it succeeds. -/
structure Firmware where
  isOpen : Bool
  opens  : Bool
  pool   : Option UInt64
  seek   : Call → UInt64 → SeekResult
  read   : Call → UInt64 → UInt64 → ReadResult

/-- Memory, and the position of the file. -/
structure State where
  memory   : Lib.Bytes
  position : UInt64 := 0

variable (fw : Firmware)

/-- `File::SetPosition`. -/
def File.setPosition (c : Call) (position : UInt64) (s : State) : Bool × State :=
  let r := fw.seek c position
  (r.success, { s with position := r.position })

/-- `File::Read`. The firmware writes the bytes that it reports, and no more than it was asked for. -/
def File.read (c : Call) (buffer size : UInt64) (s : State) : Traced ByteRange (UInt64 × State) := do
  let r := fw.read c s.position size
  let written : ByteRange := ⟨buffer, min r.count.toNat size.toNat⟩
  Traced.emit written
  pure (if r.success then r.count else 0,
    { memory := s.memory.overwrite written r.data, position := s.position + r.count })

/-! ## The loader -/

/-- The start of `Load`, up to the checks on the header; `ehdr` is the address of the local. -/
def readEhdr (ehdr : UInt64) (s : State) : Traced ByteRange (Bool × State) :=
  if !fw.isOpen && !fw.opens then pure (false, s)
  else do
    let (count, s) ← File.read fw .ehdr ehdr ehdrSize (File.setPosition fw .ehdr 0 s).2
    if count ≠ ehdrSize then pure (false, s)
    else pure ((Elf64Ehdr.at s.memory ehdr).accepted, s)

/-- The program headers; `none` is `return false`. -/
def readPhdrs (ehdr : UInt64) (s : State) : Traced ByteRange (Option UInt64 × State) :=
  let size := (Elf64Ehdr.at s.memory ehdr).phdrsSize
  match fw.pool with
  | none       => pure (none, s)
  | some phdrs => do
      let offset := (Elf64Ehdr.at s.memory ehdr).ePhoff
      let (count, s) ← File.read fw .phdrs phdrs size (File.setPosition fw .phdrs offset s).2
      if count ≠ size then pure (none, s) else pure (some phdrs, s)

/-- The locals of the segment loop. -/
structure Segments extends State where
  minAddr : UInt64 := 0xFFFFFFFFFFFFFFFF
  maxAddr : UInt64 := 0

/-- The copy of a segment, with the program header at `phdr`; `false` is `return false`. -/
def readSegment (i : Nat) (phdr : UInt64) (s : State) : Traced ByteRange (Bool × State) :=
  let p := Elf64Phdr.at s.memory phdr
  if p.pFilesz > 0 then do
    let (count, s) ← File.read fw (.segment i) p.pVaddr p.pFilesz (File.setPosition fw (.segment i) p.pOffset s).2
    pure (count == (Elf64Phdr.at s.memory phdr).pFilesz, s)
  else pure (true, s)

/-- The bytes that the BSS loop writes. -/
def Elf64Phdr.bss (p : Elf64Phdr) : ByteRange := ⟨p.pVaddr + p.pFilesz, (p.pMemsz - p.pFilesz).toNat⟩

/-- The BSS of a segment. -/
def zeroBss (phdr : UInt64) (s : State) : Traced ByteRange State :=
  let p := Elf64Phdr.at s.memory phdr
  if p.pMemsz > p.pFilesz then do
    Traced.emit p.bss
    pure { s with memory := s.memory.fill p.bss.start p.bss.size 0 }
  else pure s

/-- The end of a turn: the segment enters the hull. -/
def Segments.enter (s : Segments) (p : Elf64Phdr) : Segments :=
  { s with
    minAddr := if p.pVaddr < s.minAddr then p.pVaddr else s.minAddr
    maxAddr := if p.pVaddr + p.pMemsz > s.maxAddr then p.pVaddr + p.pMemsz else s.maxAddr }

/-- One turn of the segment loop. The status of `AllocatePages` only chooses whether a warning is printed, so
    the call is left out. -/
def loadSegment (i : Nat) (phdr : UInt64) (s : Segments) : Traced ByteRange (Bool × Segments) :=
  if (Elf64Phdr.at s.memory phdr).pType ≠ PT_LOAD then pure (true, s)
  else do
    let (whole, t) ← readSegment fw i phdr s.toState
    if !whole then pure (false, { s with toState := t })
    else do
      let t ← zeroBss phdr t
      pure (true, Segments.enter { s with toState := t } (Elf64Phdr.at t.memory phdr))

/-- The loop, from header `i` on, for at most so many turns. -/
def loadSegments (ehdr phdrs : UInt64) : Nat → Nat → Segments → Traced ByteRange (Bool × Segments)
  | 0,     _, s => pure (true, s)
  | n + 1, i, s =>
    if i < (Elf64Ehdr.at s.memory ehdr).ePhnum.toNat then do
      let (whole, s) ← loadSegment fw i (phdrAt phdrs i) s
      if whole then loadSegments ehdr phdrs n (i + 1) s else pure (false, s)
    else pure (true, s)

/-- More turns than `e_phnum` can ask for. -/
@[irreducible] def maxTurns : Nat := 2 ^ 16

/-- `Load`; the result, the loader's members, and memory. `FreePool` leaves memory as it is. -/
def load (ehdr : UInt64) (loader : ElfLoader) (m : Lib.Bytes) :
    Traced ByteRange (Bool × ElfLoader × Lib.Bytes) := do
  let (opened, s) ← readEhdr fw ehdr { memory := m }
  if !opened then pure (false, loader, s.memory)
  else do
    let loader := { loader with mEntryPoint := (Elf64Ehdr.at s.memory ehdr).eEntry }
    match ← readPhdrs fw ehdr s with
    | (none, s)       => pure (false, loader, s.memory)
    | (some phdrs, s) => do
        let (whole, s) ← loadSegments fw ehdr phdrs maxTurns 0 { toState := s }
        if !whole then pure (false, loader, s.memory)
        else
          pure (true, { loader with mKernelBase := s.minAddr, mKernelSize := s.maxAddr - s.minAddr }, s.memory)

/-! ## What a turn writes -/

variable {fw : Firmware} {P : ByteRange → Prop} {ehdr phdrs phdr buffer size : UInt64} {c : Call} {i n : Nat}
  {s t : State} {r : Segments}

@[simp] theorem value_read :
    (File.read fw c buffer size s).value =
      (if (fw.read c s.position size).success then (fw.read c s.position size).count else 0,
        { memory := s.memory.overwrite ⟨buffer, min (fw.read c s.position size).count.toNat size.toNat⟩
            (fw.read c s.position size).data
          position := s.position + (fw.read c s.position size).count }) := rfl

@[simp] theorem all_read :
    (File.read fw c buffer size s).All P ↔
      P ⟨buffer, min (fw.read c s.position size).count.toNat size.toNat⟩ := by
  unfold File.read
  rw [Traced.all_bind, Traced.all_emit]
  exact ⟨fun h => h.1, fun h => ⟨h, Traced.all_pure _⟩⟩

/-- The answer to the read that turn `i` makes for the header `p`. -/
def segmentRead (fw : Firmware) (i : Nat) (p : Elf64Phdr) : ReadResult :=
  fw.read (.segment i) (fw.seek (.segment i) p.pOffset).position p.pFilesz

/-- The number of bytes that turn `i` gets for the header `p`. -/
def delivered (fw : Firmware) (i : Nat) (p : Elf64Phdr) : Nat :=
  min (segmentRead fw i p).count.toNat p.pFilesz.toNat

/-- No bytes are delivered to a segment that has none in the file. -/
theorem delivered_zero {p : Elf64Phdr} (h : ¬ p.pFilesz > 0) : delivered fw i p = 0 := by
  have hzero : p.pFilesz.toNat = 0 := by
    rw [gt_iff_lt, UInt64.lt_iff_toNat_lt] at h
    exact Nat.eq_zero_of_not_pos h
  unfold delivered
  rw [hzero]
  exact Nat.min_zero _

/-- What is said of every byte of a range, `P`, holds of a range without bytes. -/
def Bytewise (P : ByteRange → Prop) : Prop := ∀ a, P ⟨a, 0⟩

theorem all_readSegment (hP : Bytewise P) :
    (readSegment fw i phdr s).All P ↔
      P ⟨(Elf64Phdr.at s.memory phdr).pVaddr, delivered fw i (Elf64Phdr.at s.memory phdr)⟩ := by
  unfold readSegment
  dsimp only
  by_cases hfile : (Elf64Phdr.at s.memory phdr).pFilesz > 0
  · rw [if_pos hfile, Traced.all_bind, all_read]
    exact ⟨fun h => h.1, fun h => ⟨h, Traced.all_pure _⟩⟩
  · rw [if_neg hfile, delivered_zero hfile]
    exact ⟨fun _ => hP _, fun _ => Traced.all_pure _⟩

theorem all_zeroBss (hP : Bytewise P) :
    (zeroBss phdr s).All P ↔ P ⟨(Elf64Phdr.at s.memory phdr).bss.start,
      (Elf64Phdr.at s.memory phdr).pMemsz.toNat - (Elf64Phdr.at s.memory phdr).pFilesz.toNat⟩ := by
  unfold zeroBss
  dsimp only
  generalize Elf64Phdr.at s.memory phdr = p
  by_cases hbss : p.pMemsz > p.pFilesz
  · have hle := UInt64.le_of_lt hbss
    rw [if_pos hbss, Traced.all_bind, Traced.all_emit, ← UInt64.toNat_sub_of_le _ _ hle]
    exact ⟨fun h => h.1, fun h => ⟨h, Traced.all_pure _⟩⟩
  · rw [gt_iff_lt, UInt64.lt_iff_toNat_lt] at hbss
    rw [if_neg (by rwa [gt_iff_lt, UInt64.lt_iff_toNat_lt]), Nat.sub_eq_zero_of_le (by omega)]
    exact ⟨fun _ => hP _, fun _ => Traced.all_pure _⟩

/-- The state between the copy and the BSS, when the copy was whole. -/
def copied (fw : Firmware) (i : Nat) (phdr : UInt64) (s : State) : Option State :=
  let r := (readSegment fw i phdr s).value
  if r.1 then some r.2 else none

/-- **What one turn writes**: the bytes that the file delivers and, when that is all of them, the BSS of the
    header that the buffer holds then. -/
theorem all_loadSegment (hP : Bytewise P) :
    (loadSegment fw i phdr r).All P ↔
      ((Elf64Phdr.at r.memory phdr).pType = PT_LOAD →
        P ⟨(Elf64Phdr.at r.memory phdr).pVaddr, delivered fw i (Elf64Phdr.at r.memory phdr)⟩ ∧
        ∀ t, copied fw i phdr r.toState = some t → P ⟨(Elf64Phdr.at t.memory phdr).bss.start,
          (Elf64Phdr.at t.memory phdr).pMemsz.toNat - (Elf64Phdr.at t.memory phdr).pFilesz.toNat⟩) := by
  unfold loadSegment copied
  by_cases htype : (Elf64Phdr.at r.memory phdr).pType = PT_LOAD
  · rw [if_neg (not_not_intro htype), Traced.all_bind, all_readSegment hP]
    dsimp only
    generalize (readSegment fw i phdr r.toState).value = copy
    obtain ⟨whole, t⟩ := copy
    cases whole with
    | false =>
        rw [if_pos (by simp), if_neg (by simp)]
        constructor
        · rintro ⟨hread, -⟩ -
          exact ⟨hread, fun t ht => absurd ht (by simp)⟩
        · intro h
          exact ⟨(h htype).1, Traced.all_pure _⟩
    | true =>
        rw [if_neg (by simp), if_pos rfl, Traced.all_bind, all_zeroBss hP]
        constructor
        · rintro ⟨hread, hbss, -⟩ -
          refine ⟨hread, fun t' ht => ?_⟩
          rw [← Option.some.inj ht]
          exact hbss
        · intro h
          exact ⟨(h htype).1, (h htype).2 t rfl, Traced.all_pure _⟩
  · rw [if_pos htype]
    exact ⟨fun _ h => absurd h htype, fun _ => Traced.all_pure _⟩

/-! ## The turns that are reached -/

/-- From turn `i` in state `r`: the state before the turn `k` turns later, if the loop gets there. -/
def reached (fw : Firmware) (ehdr phdrs : UInt64) (i : Nat) (r : Segments) : Nat → Option Segments
  | 0     => if i < (Elf64Ehdr.at r.memory ehdr).ePhnum.toNat then some r else none
  | k + 1 =>
    if i < (Elf64Ehdr.at r.memory ehdr).ePhnum.toNat then
      let turn := (loadSegment fw i (phdrAt phdrs i) r).value
      if turn.1 then reached fw ehdr phdrs (i + 1) turn.2 k else none
    else none

/-- A turn that is reached is one that `e_phnum` asks for. -/
theorem reached_lt {k : Nat} {u : Segments} (h : reached fw ehdr phdrs i r k = some u) :
    i + k < (Elf64Ehdr.at u.memory ehdr).ePhnum.toNat := by
  induction k generalizing i r with
  | zero =>
      unfold reached at h
      split at h
      · next hlt =>
          cases h
          exact hlt
      · exact absurd h (by simp)
  | succ k ih =>
      unfold reached at h
      dsimp only at h
      split at h
      · split at h
        · have hlt := ih h
          omega
        · exact absurd h (by simp)
      · exact absurd h (by simp)

theorem reached_lt_maxTurns {k : Nat} {u : Segments} (h : reached fw ehdr phdrs 0 r k = some u) : k < maxTurns := by
  have hlt := reached_lt h
  have hnum := (Elf64Ehdr.at u.memory ehdr).ePhnum.toNat_lt
  unfold maxTurns
  omega

/-- **What the loop writes.** The turns that are reached write, and nothing else does. -/
theorem all_loadSegments :
    (loadSegments fw ehdr phdrs n i r).All P ↔
      ∀ k < n, ∀ u, reached fw ehdr phdrs i r k = some u →
        (loadSegment fw (i + k) (phdrAt phdrs (i + k)) u).All P := by
  induction n generalizing i r with
  | zero =>
      constructor
      · intro _ k hk
        omega
      · intro _
        exact Traced.all_pure _
  | succ n ih =>
      unfold loadSegments
      by_cases hlt : i < (Elf64Ehdr.at r.memory ehdr).ePhnum.toNat
      · rw [if_pos hlt, Traced.all_bind]
        have hfirst : reached fw ehdr phdrs i r 0 = some r := if_pos hlt
        have hrest : ∀ k, reached fw ehdr phdrs i r (k + 1) =
            if (loadSegment fw i (phdrAt phdrs i) r).value.1 then
              reached fw ehdr phdrs (i + 1) (loadSegment fw i (phdrAt phdrs i) r).value.2 k
            else none := fun k => if_pos hlt
        dsimp only
        cases hwhole : (loadSegment fw i (phdrAt phdrs i) r).value.1 with
        | false =>
            rw [if_neg (by simp)]
            constructor
            · rintro ⟨hturn, -⟩ k hk u hu
              cases k with
              | zero =>
                  rw [hfirst] at hu
                  cases hu
                  exact hturn
              | succ k =>
                  rw [hrest, hwhole] at hu
                  exact absurd hu (by simp)
            · intro hall
              exact ⟨hall 0 (by omega) r hfirst, Traced.all_pure _⟩
        | true =>
            rw [if_pos rfl, ih]
            constructor
            · rintro ⟨hturn, hturns⟩ k hk u hu
              cases k with
              | zero =>
                  rw [hfirst] at hu
                  cases hu
                  exact hturn
              | succ k =>
                  rw [hrest, hwhole, if_pos rfl] at hu
                  have hnext := hturns k (by omega) u hu
                  rwa [Nat.add_right_comm, Nat.add_assoc] at hnext
            · intro hall
              refine ⟨hall 0 (by omega) r hfirst, fun k hk u hu => ?_⟩
              have hnext := hall (k + 1) (by omega) u (by rw [hrest, hwhole, if_pos rfl, hu])
              rwa [Nat.add_right_comm, Nat.add_assoc]
      · rw [if_neg hlt]
        refine ⟨fun _ k _ u hu => ?_, fun _ => Traced.all_pure _⟩
        have hnone : reached fw ehdr phdrs i r k = none := by
          cases k with
          | zero => exact if_neg hlt
          | succ k => exact if_neg hlt
        rw [hnone] at hu
        exact absurd hu (by simp)

end ElfLoader
end UefiBoot
