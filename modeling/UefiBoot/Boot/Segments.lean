import UefiBoot.Boot.Writes

/-!
# `Boot.Segments` — what `ElfLoader::Load` leaves in memory

`place` is what loading a segment means: its bytes of the file, then zeros, at its address. When the firmware
delivers what it is asked for and the segments keep clear of one another and of the loader's buffers, a turn of
the loop is one `place` (`loadSegment_place`). `Loaded` says what holds after so many turns; it is preserved by
a turn (`loaded_succ`) and so holds at the end (`loaded_all`).
-/

namespace UefiBoot
namespace ElfLoader

open Lib (ByteRange Traced)

/-! ## The file -/

/-- The ELF header of the file. -/
def fileEhdr (contents : Lib.Bytes) : Elf64Ehdr := Elf64Ehdr.at contents 0

/-- Program header `i` of the file. -/
def filePhdr (contents : Lib.Bytes) (i : Nat) : Elf64Phdr :=
  Elf64Phdr.at contents (phdrAt (fileEhdr contents).ePhoff i)

/-- `p` is a `PT_LOAD` header of the file, at index `i`. -/
structure IsLoad (contents : Lib.Bytes) (i : Nat) : Prop where
  index : i < (fileEhdr contents).ePhnum.toNat
  type  : (filePhdr contents i).pType = PT_LOAD

/-- The memory of a segment. -/
def Elf64Phdr.range (p : Elf64Phdr) : ByteRange := ⟨p.pVaddr, p.pMemsz.toNat⟩

theorem Elf64Ehdr.at_congr {m m' : Lib.Bytes} {a b : UInt64} (h : m.Same a m' b 64) :
    Elf64Ehdr.at m a = Elf64Ehdr.at m' b := by
  have hident : ((List.range 6).map fun i => m (a + UInt64.ofNat i)) =
      (List.range 6).map fun i => m' (b + UInt64.ofNat i) := by
    apply List.map_congr_left
    intro i hi
    exact h i (lt_trans (List.mem_range.mp hi) (by decide))
  have htype : m.load16 (a + 16) = m'.load16 (b + 16) := h.load16 (by decide)
  have hmachine : m.load16 (a + 18) = m'.load16 (b + 18) := h.load16 (by decide)
  have hentry : m.load64 (a + 24) = m'.load64 (b + 24) := h.load64 (by decide)
  have hphoff : m.load64 (a + 32) = m'.load64 (b + 32) := h.load64 (by decide)
  have hphnum : m.load16 (a + 56) = m'.load16 (b + 56) := h.load16 (by decide)
  unfold Elf64Ehdr.at
  rw [hident, htype, hmachine, hentry, hphoff, hphnum]

theorem Elf64Phdr.at_congr {m m' : Lib.Bytes} {a b : UInt64} (h : m.Same a m' b 56) :
    Elf64Phdr.at m a = Elf64Phdr.at m' b := by
  have hzero : ∀ c : UInt64, c + UInt64.ofNat 0 = c := UInt64.add_zero
  have htype : m.load32 (a + UInt64.ofNat 0) = m'.load32 (b + UInt64.ofNat 0) := h.load32 (by decide)
  have hoffset : m.load64 (a + 8) = m'.load64 (b + 8) := h.load64 (by decide)
  have hvaddr : m.load64 (a + 16) = m'.load64 (b + 16) := h.load64 (by decide)
  have hfilesz : m.load64 (a + 32) = m'.load64 (b + 32) := h.load64 (by decide)
  have hmemsz : m.load64 (a + 40) = m'.load64 (b + 40) := h.load64 (by decide)
  rw [hzero, hzero] at htype
  unfold Elf64Phdr.at
  rw [htype, hoffset, hvaddr, hfilesz, hmemsz]

theorem toNat_phdrsSize (e : Elf64Ehdr) : e.phdrsSize.toNat = e.ePhnum.toNat * 56 := by
  have hnum := e.ePhnum.toNat_lt
  have hsize : phdrSize.toNat = 56 := rfl
  unfold Elf64Ehdr.phdrsSize
  rw [UInt64.toNat_mul, UInt16.toNat_toUInt64, hsize]
  omega

/-- Tables with the same bytes have the same headers. -/
theorem phdr_at_congr {m m' : Lib.Bytes} {a b : UInt64} {e : Elf64Ehdr} {i : Nat}
    (h : m.Same a m' b e.phdrsSize.toNat) (hi : i < e.ePhnum.toNat) :
    Elf64Phdr.at m (phdrAt a i) = Elf64Phdr.at m' (phdrAt b i) := by
  have hstart : ∀ c : UInt64, phdrAt c i = c + UInt64.ofNat (i * 56) := by
    intro c
    rw [UInt64.ofNat_mul]
    rfl
  rw [toNat_phdrsSize] at h
  rw [hstart, hstart]
  exact Elf64Phdr.at_congr (h.part (by omega))

/-! ## The firmware -/

/-- The firmware seeks to `position` and delivers all of the `size` bytes of the file that are there. -/
structure Delivers (fw : Firmware) (contents : Lib.Bytes) (c : Call) (position size : UInt64) : Prop where
  seeks    : fw.seek c position = ⟨true, position⟩
  succeeds : (fw.read c position size).success = true
  count    : (fw.read c position size).count = size
  data     : ∀ k : UInt64, k.toNat < size.toNat → (fw.read c position size).data k = contents (position + k)

/-- Every seek and every read that the loader asks for, for the file with these contents, goes well; the pool
    has room for the program headers, and the file can be opened. -/
structure Reliable (fw : Firmware) (contents : Lib.Bytes) (phdrs : UInt64) : Prop where
  opened   : fw.isOpen = true ∨ fw.opens = true
  pool     : fw.pool = some phdrs
  ehdr     : Delivers fw contents .ehdr 0 ehdrSize
  phdrs    : Delivers fw contents .phdrs (fileEhdr contents).ePhoff (fileEhdr contents).phdrsSize
  segments : ∀ i, IsLoad contents i → (filePhdr contents i).pFilesz > 0 →
    Delivers fw contents (.segment i) (filePhdr contents i).pOffset (filePhdr contents i).pFilesz

/-- The file has a `PT_LOAD` segment; the segments are no longer in the file than in memory, do not wrap, and
    share no byte with one another or with the loader's buffers, which are different objects. -/
structure WellPlaced (contents : Lib.Bytes) (ehdr phdrs : UInt64) : Prop where
  accepted : (fileEhdr contents).accepted = true
  some     : ∃ i, IsLoad contents i
  filesz   : ∀ i, IsLoad contents i → (filePhdr contents i).pFilesz ≤ (filePhdr contents i).pMemsz
  fits     : ∀ i, IsLoad contents i →
    (filePhdr contents i).pVaddr.toNat + (filePhdr contents i).pMemsz.toNat < 2 ^ 64
  apart    : ∀ i j, IsLoad contents i → IsLoad contents j → i ≠ j →
    (filePhdr contents i).range.Apart (filePhdr contents j).range
  missEhdr : ∀ i, IsLoad contents i → (filePhdr contents i).range.Apart ⟨ehdr, ehdrSize.toNat⟩
  missPhdr : ∀ i, IsLoad contents i →
    (filePhdr contents i).range.Apart ⟨phdrs, (fileEhdr contents).phdrsSize.toNat⟩
  buffers  : (ByteRange.mk ehdr ehdrSize.toNat).Apart ⟨phdrs, (fileEhdr contents).phdrsSize.toNat⟩

variable {fw : Firmware} {contents m : Lib.Bytes} {ehdr phdrs phdr : UInt64} {p : Elf64Phdr} {i j n : Nat}
  {a : UInt64} {s : State} {r : Segments}

/-- A read that is delivered. -/
theorem read_delivers {c : Call} {buffer position size : UInt64} (h : Delivers fw contents c position size) :
    ∃ t data, (File.read fw c buffer size (File.setPosition fw c position s).2).value = (size, t) ∧
      t.memory = s.memory.overwrite ⟨buffer, size.toNat⟩ data ∧
      ∀ k : UInt64, k.toNat < size.toNat → data k = contents (position + k) := by
  have hpos : (File.setPosition fw c position s).2 = { s with position := position } := by
    unfold File.setPosition
    rw [h.seeks]
  rw [hpos, value_read, if_pos h.succeeds, h.count, Nat.min_self]
  exact ⟨_, _, rfl, rfl, h.data⟩

/-! ## One segment -/

/-- The bytes of the segment that are in the file. -/
def Elf64Phdr.placeFile (p : Elf64Phdr) (contents m : Lib.Bytes) : Lib.Bytes := fun a =>
  if (a - p.pVaddr).toNat < p.pFilesz.toNat then contents (p.pOffset + (a - p.pVaddr)) else m a

/-- **Loading a segment**: its bytes of the file, then zeros. -/
def Elf64Phdr.place (p : Elf64Phdr) (contents m : Lib.Bytes) : Lib.Bytes := fun a =>
  if (a - p.pVaddr).toNat < p.pFilesz.toNat then contents (p.pOffset + (a - p.pVaddr))
  else if (a - p.pVaddr).toNat < p.pMemsz.toNat then 0
  else m a

theorem Elf64Phdr.place_outside (hle : p.pFilesz ≤ p.pMemsz) (h : a ∉ p.range) : p.place contents m a = m a := by
  have hout : ¬ (a - p.pVaddr).toNat < p.pMemsz.toNat := h
  rw [UInt64.le_iff_toNat_le] at hle
  unfold Elf64Phdr.place
  rw [if_neg (by omega), if_neg hout]

theorem Elf64Phdr.placeFile_outside (hle : p.pFilesz ≤ p.pMemsz) (h : a ∉ p.range) :
    p.placeFile contents m a = m a := by
  have hout : ¬ (a - p.pVaddr).toNat < p.pMemsz.toNat := h
  rw [UInt64.le_iff_toNat_le] at hle
  unfold Elf64Phdr.placeFile
  rw [if_neg (by omega)]

/-- The BSS is the part of the segment past its bytes of the file. -/
theorem Elf64Phdr.bss_size (hle : p.pFilesz ≤ p.pMemsz) : p.bss.size = p.pMemsz.toNat - p.pFilesz.toNat :=
  UInt64.toNat_sub_of_le _ _ hle

theorem Elf64Phdr.bss_offset (hle : p.pFilesz ≤ p.pMemsz) :
    (a - p.bss.start).toNat < p.bss.size ↔
      p.pFilesz.toNat ≤ (a - p.pVaddr).toNat ∧ (a - p.pVaddr).toNat < p.pMemsz.toNat := by
  have hstart : a - p.bss.start = (a - p.pVaddr) - p.pFilesz := by
    unfold Elf64Phdr.bss
    grind
  have hoff := (a - p.pVaddr).toNat_lt
  have hmem := p.pMemsz.toNat_lt
  rw [hstart, p.bss_size hle, UInt64.toNat_sub]
  rw [UInt64.le_iff_toNat_le] at hle
  omega

/-- The BSS loop completes the segment. -/
theorem fill_placeFile (hlt : p.pFilesz < p.pMemsz) :
    (p.placeFile contents m).fill p.bss.start p.bss.size 0 = p.place contents m := by
  funext a
  have hle := UInt64.le_of_lt hlt
  have hin := @Elf64Phdr.bss_offset p a hle
  have hmem := p.pMemsz.toNat_lt
  have hsize := p.bss_size hle
  rw [Lib.Bytes.fill_apply (by omega), Elf64Phdr.place, Elf64Phdr.placeFile]
  by_cases hfile : (a - p.pVaddr).toNat < p.pFilesz.toNat
  · rw [if_neg (by rw [hin]; omega), if_pos hfile, if_pos hfile]
  · rw [if_neg hfile, if_neg hfile]
    by_cases hbss : (a - p.pVaddr).toNat < p.pMemsz.toNat
    · rw [if_pos (hin.mpr ⟨by omega, hbss⟩), if_pos hbss]
    · rw [if_neg fun h => hbss (hin.mp h).2, if_neg hbss]

/-- The header at `phdr` is `p`, and stays `p` whatever is written to the segment. -/
def Stays (m : Lib.Bytes) (phdr : UInt64) (p : Elf64Phdr) : Prop :=
  ∀ m' : Lib.Bytes, (∀ a, a ∉ p.range → m' a = m a) → Elf64Phdr.at m' phdr = p

/-- The copy. -/
theorem readSegment_placeFile (hstays : Stays s.memory phdr p) (hle : p.pFilesz ≤ p.pMemsz)
    (hread : p.pFilesz > 0 → Delivers fw contents (.segment i) p.pOffset p.pFilesz) :
    ∃ t, (readSegment fw i phdr s).value = (true, t) ∧ t.memory = p.placeFile contents s.memory := by
  have hp : Elf64Phdr.at s.memory phdr = p := hstays _ fun _ _ => rfl
  have hafter : Elf64Phdr.at (p.placeFile contents s.memory) phdr = p :=
    hstays _ fun a ha => Elf64Phdr.placeFile_outside hle ha
  unfold readSegment
  dsimp only
  rw [hp]
  by_cases hfile : p.pFilesz > 0
  · obtain ⟨t, data, hvalue, hmemory, hdata⟩ :=
      @read_delivers fw contents s (.segment i) p.pVaddr _ _ (hread hfile)
    have hplace : t.memory = p.placeFile contents s.memory := by
      rw [hmemory]
      funext a
      unfold Elf64Phdr.placeFile
      by_cases hin : (a - p.pVaddr).toNat < p.pFilesz.toNat
      · have hmem : a ∈ ByteRange.mk p.pVaddr p.pFilesz.toNat := hin
        rw [if_pos hin, Lib.Bytes.overwrite_inside hmem]
        exact hdata _ hin
      · have hmem : a ∉ ByteRange.mk p.pVaddr p.pFilesz.toNat := hin
        rw [if_neg hin, Lib.Bytes.overwrite_outside hmem]
    refine ⟨t, ?_, hplace⟩
    rw [if_pos hfile, Traced.value_bind, hvalue]
    dsimp only
    rw [Traced.value_pure, hplace, hafter, beq_self_eq_true]
  · have hzero : p.pFilesz.toNat = 0 := by
      rw [gt_iff_lt, UInt64.lt_iff_toNat_lt] at hfile
      exact Nat.eq_zero_of_not_pos hfile
    refine ⟨s, ?_, ?_⟩
    · rw [if_neg hfile, Traced.value_pure]
    · funext a
      unfold Elf64Phdr.placeFile
      rw [hzero, if_neg (Nat.not_lt_zero _)]

/-- The BSS. -/
theorem zeroBss_place (hcopied : s.memory = p.placeFile contents m) (hp : Elf64Phdr.at s.memory phdr = p) :
    (zeroBss phdr s).value.memory = p.place contents m := by
  unfold zeroBss
  dsimp only
  rw [hp]
  by_cases hlt : p.pFilesz < p.pMemsz
  · rw [if_pos hlt, Traced.value_bind, Traced.value_pure]
    dsimp only
    rw [hcopied, fill_placeFile hlt]
  · rw [if_neg hlt, Traced.value_pure, hcopied]
    rw [UInt64.lt_iff_toNat_lt] at hlt
    funext a
    unfold Elf64Phdr.placeFile Elf64Phdr.place
    by_cases hfile : (a - p.pVaddr).toNat < p.pFilesz.toNat
    · rw [if_pos hfile, if_pos hfile]
    · rw [if_neg hfile, if_neg hfile, if_neg (by omega)]

/-- **One turn** loads the segment and enters it into the hull. -/
theorem loadSegment_place (hstays : Stays r.memory phdr p) (htype : p.pType = PT_LOAD)
    (hle : p.pFilesz ≤ p.pMemsz)
    (hread : p.pFilesz > 0 → Delivers fw contents (.segment i) p.pOffset p.pFilesz) :
    ∃ r', (loadSegment fw i phdr r).value = (true, r') ∧ r'.memory = p.place contents r.memory ∧
      r'.minAddr = (r.enter p).minAddr ∧ r'.maxAddr = (r.enter p).maxAddr := by
  have hp : Elf64Phdr.at r.memory phdr = p := hstays _ fun _ _ => rfl
  obtain ⟨t, hcopy, hcopied⟩ := @readSegment_placeFile fw contents _ _ i r.toState hstays hle hread
  have hafter : Elf64Phdr.at t.memory phdr = p := by
    rw [hcopied]
    exact hstays _ fun a ha => Elf64Phdr.placeFile_outside hle ha
  have hbss : (zeroBss phdr t).value.memory = p.place contents r.memory :=
    @zeroBss_place contents r.memory phdr p t hcopied hafter
  have hplaced : Elf64Phdr.at (zeroBss phdr t).value.memory phdr = p := by
    rw [hbss]
    exact hstays _ fun a ha => Elf64Phdr.place_outside hle ha
  refine ⟨Segments.enter { r with toState := (zeroBss phdr t).value } p, ?_, ?_, ?_, ?_⟩
  · unfold loadSegment
    rw [hp, if_neg (not_not_intro htype), Traced.value_bind, hcopy]
    dsimp only
    rw [if_neg (by simp), Traced.value_bind, Traced.value_pure, hplaced]
  · unfold Segments.enter
    exact hbss
  · unfold Segments.enter
    dsimp only
  · unfold Segments.enter
    dsimp only

/-! ## After so many turns -/

/-- The buffers hold the headers of the file. -/
structure Intact (contents : Lib.Bytes) (ehdr phdrs : UInt64) (m : Lib.Bytes) : Prop where
  ehdr  : m.Same ehdr contents 0 ehdrSize.toNat
  phdrs : m.Same phdrs contents (fileEhdr contents).ePhoff (fileEhdr contents).phdrsSize.toNat

/-- The segment is in memory. -/
structure Elf64Phdr.Present (p : Elf64Phdr) (contents m : Lib.Bytes) : Prop where
  file : ∀ k < p.pFilesz.toNat, m (p.pVaddr + UInt64.ofNat k) = contents (p.pOffset + UInt64.ofNat k)
  bss  : ∀ k, p.pFilesz.toNat ≤ k → k < p.pMemsz.toNat → m (p.pVaddr + UInt64.ofNat k) = 0

/-- The hull of the first `n` headers: what it encloses, and that it encloses no more. -/
structure Hull (contents : Lib.Bytes) (n : Nat) (r : Segments) : Prop where
  lower   : ∀ i < n, IsLoad contents i → r.minAddr.toNat ≤ (filePhdr contents i).pVaddr.toNat
  upper   : ∀ i < n, IsLoad contents i →
    (filePhdr contents i).pVaddr.toNat + (filePhdr contents i).pMemsz.toNat ≤ r.maxAddr.toNat
  lowest  : r.minAddr.toNat = 2 ^ 64 - 1 ∨ ∃ i < n, IsLoad contents i ∧ r.minAddr = (filePhdr contents i).pVaddr
  highest : r.maxAddr.toNat = 0 ∨ ∃ i < n, IsLoad contents i ∧
    r.maxAddr.toNat = (filePhdr contents i).pVaddr.toNat + (filePhdr contents i).pMemsz.toNat

/-- After `n` turns. -/
structure Loaded (contents : Lib.Bytes) (ehdr phdrs : UInt64) (n : Nat) (r : Segments) : Prop where
  intact  : Intact contents ehdr phdrs r.memory
  present : ∀ i < n, IsLoad contents i → (filePhdr contents i).Present contents r.memory
  hull    : Hull contents n r

theorem Elf64Phdr.mem_range {k : Nat} (hk : k < p.pMemsz.toNat) : p.pVaddr + UInt64.ofNat k ∈ p.range :=
  @ByteRange.mem_offset p.range k hk (lt_trans hk p.pMemsz.toNat_lt)

theorem Elf64Phdr.place_present : p.Present contents (p.place contents m) := by
  have hfile := p.pFilesz.toNat_lt
  have hmem := p.pMemsz.toNat_lt
  constructor
  · intro k hk
    have hoff : (p.pVaddr + UInt64.ofNat k - p.pVaddr) = UInt64.ofNat k := by
      rw [UInt64.add_comm, UInt64.add_sub_cancel]
    unfold Elf64Phdr.place
    rw [hoff, if_pos (by rw [UInt64.toNat_ofNat']; omega)]
  · intro k hfilesz hk
    have hoff : (p.pVaddr + UInt64.ofNat k - p.pVaddr).toNat = k := Lib.Bytes.offset_ofNat (by omega)
    unfold Elf64Phdr.place
    rw [hoff, if_neg (by omega), if_pos hk]

/-- A segment stays in memory as long as nothing is written to it. -/
theorem Elf64Phdr.Present.of_eq {m' : Lib.Bytes} (h : p.Present contents m) (hle : p.pFilesz ≤ p.pMemsz)
    (heq : ∀ a ∈ p.range, m' a = m a) : p.Present contents m' := by
  rw [UInt64.le_iff_toNat_le] at hle
  constructor
  · intro k hk
    rw [heq _ (p.mem_range (by omega))]
    exact h.file k hk
  · intro k hfilesz hk
    rw [heq _ (p.mem_range hk)]
    exact h.bss k hfilesz hk

/-- Writes to a segment leave the buffers alone. -/
theorem Intact.of_eq {m' : Lib.Bytes} (h : Intact contents ehdr phdrs m) (hplaced : WellPlaced contents ehdr phdrs)
    (hload : IsLoad contents i) (heq : ∀ a, a ∉ (filePhdr contents i).range → m' a = m a) :
    Intact contents ehdr phdrs m' := by
  have hsize := (fileEhdr contents).phdrsSize.toNat_lt
  exact ⟨h.ehdr.of_apart (by decide) (hplaced.missEhdr i hload) heq,
    h.phdrs.of_apart (by omega) (hplaced.missPhdr i hload) heq⟩

theorem Intact.ehdr_at (h : Intact contents ehdr phdrs m) : Elf64Ehdr.at m ehdr = fileEhdr contents :=
  Elf64Ehdr.at_congr h.ehdr

theorem Intact.phdr_at (h : Intact contents ehdr phdrs m) (hi : i < (fileEhdr contents).ePhnum.toNat) :
    Elf64Phdr.at m (phdrAt phdrs i) = filePhdr contents i := phdr_at_congr h.phdrs hi

/-- A header that is no `PT_LOAD` header does not count. -/
theorem lt_of_not_load (h : ¬ IsLoad contents n) (hi : i < n + 1) (hload : IsLoad contents i) : i < n := by
  rcases Nat.lt_succ_iff_lt_or_eq.mp hi with hlt | rfl
  · exact hlt
  · exact absurd hload h

namespace Hull

theorem congr {r' : Segments} (h : Hull contents n r) (hmin : r'.minAddr = r.minAddr)
    (hmax : r'.maxAddr = r.maxAddr) : Hull contents n r' := by
  obtain ⟨hlower, hupper, hlowest, hhighest⟩ := h
  rw [← hmin] at hlowest
  rw [← hmax] at hhighest
  refine ⟨fun i hi hload => ?_, fun i hi hload => ?_, hlowest, hhighest⟩
  · rw [hmin]
    exact hlower i hi hload
  · rw [hmax]
    exact hupper i hi hload

theorem skip (h : Hull contents n r) (hno : ¬ IsLoad contents n) : Hull contents (n + 1) r :=
  { lower   := fun i hi hload => h.lower i (lt_of_not_load hno hi hload) hload
    upper   := fun i hi hload => h.upper i (lt_of_not_load hno hi hload) hload
    lowest  := h.lowest.imp_right fun ⟨i, hi, hrest⟩ => ⟨i, by omega, hrest⟩
    highest := h.highest.imp_right fun ⟨i, hi, hrest⟩ => ⟨i, by omega, hrest⟩ }

/-- The next segment enters. -/
theorem enter (h : Hull contents n r) (hload : IsLoad contents n)
    (hfits : (filePhdr contents n).pVaddr.toNat + (filePhdr contents n).pMemsz.toNat < 2 ^ 64) :
    Hull contents (n + 1) (r.enter (filePhdr contents n)) := by
  obtain ⟨hlower, hupper, hlowest, hhighest⟩ := h
  unfold Segments.enter
  have hend : ((filePhdr contents n).pVaddr + (filePhdr contents n).pMemsz).toNat =
      (filePhdr contents n).pVaddr.toNat + (filePhdr contents n).pMemsz.toNat := by
    rw [UInt64.toNat_add]
    omega
  constructor
  · intro i hi hloadi
    dsimp only
    rcases Nat.lt_succ_iff_lt_or_eq.mp hi with hlt | rfl
    · have hold := hlower i hlt hloadi
      split
      · next hnew =>
          rw [UInt64.lt_iff_toNat_lt] at hnew
          omega
      · exact hold
    · split
      · exact Nat.le_refl _
      · next hnew =>
          rw [UInt64.lt_iff_toNat_lt] at hnew
          omega
  · intro i hi hloadi
    dsimp only
    rcases Nat.lt_succ_iff_lt_or_eq.mp hi with hlt | rfl
    · have hold := hupper i hlt hloadi
      split
      · next hnew =>
          rw [gt_iff_lt, UInt64.lt_iff_toNat_lt] at hnew
          omega
      · exact hold
    · split
      · rw [hend]
      · next hnew =>
          rw [gt_iff_lt, UInt64.lt_iff_toNat_lt] at hnew
          omega
  · dsimp only
    split
    · exact Or.inr ⟨n, by omega, hload, rfl⟩
    · exact hlowest.imp_right fun ⟨i, hi, hrest⟩ => ⟨i, by omega, hrest⟩
  · dsimp only
    split
    · exact Or.inr ⟨n, by omega, hload, hend⟩
    · exact hhighest.imp_right fun ⟨i, hi, hrest⟩ => ⟨i, by omega, hrest⟩

end Hull

/-- **One turn** keeps `Loaded`. -/
theorem loaded_succ (hplaced : WellPlaced contents ehdr phdrs) (hfw : Reliable fw contents phdrs)
    (h : Loaded contents ehdr phdrs n r) (hn : n < (fileEhdr contents).ePhnum.toNat) :
    ∃ r', (loadSegment fw n (phdrAt phdrs n) r).value = (true, r') ∧ Loaded contents ehdr phdrs (n + 1) r' := by
  by_cases htype : (filePhdr contents n).pType = PT_LOAD
  · have hload : IsLoad contents n := ⟨hn, htype⟩
    have hle := hplaced.filesz n hload
    have hstays : Stays r.memory (phdrAt phdrs n) (filePhdr contents n) := fun m' hm' =>
      (h.intact.of_eq hplaced hload hm').phdr_at hn
    obtain ⟨r', hvalue, hmemory, hmin, hmax⟩ :=
      @loadSegment_place fw contents _ _ n r hstays htype hle (hfw.segments n hload)
    have hout : ∀ a, a ∉ (filePhdr contents n).range → r'.memory a = r.memory a := by
      intro a ha
      rw [hmemory, Elf64Phdr.place_outside hle ha]
    refine ⟨r', hvalue, h.intact.of_eq hplaced hload hout, fun i hi hloadi => ?_, ?_⟩
    · rcases Nat.lt_succ_iff_lt_or_eq.mp hi with hlt | rfl
      · -- an earlier segment shares no byte with this one
        have hapart := hplaced.apart i n hloadi hload (by omega)
        exact (h.present i hlt hloadi).of_eq (hplaced.filesz i hloadi) fun a ha => hout a (hapart a ha)
      · rw [hmemory]
        exact Elf64Phdr.place_present
    · exact (h.hull.enter hload (hplaced.fits n hload)).congr hmin hmax
  · have hno : ¬ IsLoad contents n := fun hload => htype hload.type
    refine ⟨r, ?_, h.intact, fun i hi hload => ?_, h.hull.skip hno⟩
    · unfold loadSegment
      rw [h.intact.phdr_at hn, if_pos htype]
      rfl
    · exact h.present i (lt_of_not_load hno hi hload) hload

/-- **The loop** goes through all the headers. -/
theorem loaded_all (hplaced : WellPlaced contents ehdr phdrs) (hfw : Reliable fw contents phdrs)
    (h : Loaded contents ehdr phdrs i r) (hi : i ≤ (fileEhdr contents).ePhnum.toNat)
    (hn : (fileEhdr contents).ePhnum.toNat ≤ i + n) :
    ∃ r', (loadSegments fw ehdr phdrs n i r).value = (true, r') ∧
      Loaded contents ehdr phdrs (fileEhdr contents).ePhnum.toNat r' := by
  induction n generalizing i r with
  | zero =>
      have heq : i = (fileEhdr contents).ePhnum.toNat := by omega
      rw [heq] at h
      exact ⟨r, rfl, h⟩
  | succ n ih =>
      unfold loadSegments
      rw [h.intact.ehdr_at]
      by_cases hlt : i < (fileEhdr contents).ePhnum.toNat
      · obtain ⟨r', hvalue, hnext⟩ := loaded_succ hplaced hfw h hlt
        rw [if_pos hlt, Traced.value_bind, hvalue]
        exact ih hnext (by omega) (by omega)
      · have heq : i = (fileEhdr contents).ePhnum.toNat := by omega
        rw [if_neg hlt]
        rw [heq] at h
        exact ⟨r, rfl, h⟩

/-! ## The whole function -/

/-- `[lo, hi)` has every byte of every segment. -/
def Covers (contents : Lib.Bytes) (lo hi : Nat) : Prop :=
  ∀ i, IsLoad contents i → ∀ a, (filePhdr contents i).Holds a → lo ≤ a.toNat ∧ a.toNat < hi

/-- `[lo, hi)` encloses `[p_vaddr, p_vaddr + p_memsz)` of every segment, also where that is empty. -/
def Encloses (contents : Lib.Bytes) (lo hi : Nat) : Prop :=
  ∀ i, IsLoad contents i → lo ≤ (filePhdr contents i).pVaddr.toNat ∧
    (filePhdr contents i).pVaddr.toNat + (filePhdr contents i).pMemsz.toNat ≤ hi

/-- The ELF header is read and accepted. -/
theorem readEhdr_delivers (hfw : Reliable fw contents phdrs) (hplaced : WellPlaced contents ehdr phdrs) :
    ∃ s, (readEhdr fw ehdr { memory := m }).value = (true, s) ∧
      s.memory.Same ehdr contents 0 ehdrSize.toNat := by
  obtain ⟨s, data, hvalue, hmemory, hdata⟩ :=
    @read_delivers fw contents { memory := m } .ehdr ehdr _ _ hfw.ehdr
  have hsame : s.memory.Same ehdr contents 0 ehdrSize.toNat := by
    rw [hmemory]
    apply Lib.Bytes.same_overwrite (by decide)
    intro k hk
    have hsize : ehdrSize.toNat = 64 := rfl
    apply hdata
    rw [UInt64.toNat_ofNat']
    omega
  refine ⟨s, ?_, hsame⟩
  have hopen : (!fw.isOpen && !fw.opens) = false := by
    rcases hfw.opened with h | h <;> simp [h]
  have haccepted : (Elf64Ehdr.at contents 0).accepted = true := hplaced.accepted
  unfold readEhdr
  rw [hopen, if_neg (by simp), Traced.value_bind, hvalue]
  dsimp only
  rw [if_neg (not_not_intro rfl), Traced.value_pure, Elf64Ehdr.at_congr hsame, haccepted]

/-- The program headers are read. -/
theorem readPhdrs_delivers (hfw : Reliable fw contents phdrs) (hplaced : WellPlaced contents ehdr phdrs)
    (hs : s.memory.Same ehdr contents 0 ehdrSize.toNat) :
    ∃ t, (readPhdrs fw ehdr s).value = (some phdrs, t) ∧ Intact contents ehdr phdrs t.memory := by
  have hehdr : Elf64Ehdr.at s.memory ehdr = fileEhdr contents := Elf64Ehdr.at_congr hs
  have hsize := (fileEhdr contents).phdrsSize.toNat_lt
  obtain ⟨t, data, hvalue, hmemory, hdata⟩ := @read_delivers fw contents s .phdrs phdrs _ _ hfw.phdrs
  refine ⟨t, ?_, ?_, ?_⟩
  · unfold readPhdrs
    dsimp only
    rw [hehdr, hfw.pool]
    dsimp only
    rw [Traced.value_bind, hvalue]
    dsimp only
    rw [if_neg (not_not_intro rfl)]
    rfl
  · rw [hmemory]
    exact hs.of_apart (by decide) hplaced.buffers.symm fun c hc => Lib.Bytes.overwrite_outside hc
  · rw [hmemory]
    apply Lib.Bytes.same_overwrite (by omega)
    intro k hk
    apply hdata
    rw [UInt64.toNat_ofNat']
    omega

theorem loaded_zero (hs : Intact contents ehdr phdrs s.memory) :
    Loaded contents ehdr phdrs 0 { toState := s } :=
  { intact  := hs
    present := fun i hi => absurd hi (Nat.not_lt_zero i)
    hull    :=
      { lower   := fun i hi => absurd hi (Nat.not_lt_zero i)
        upper   := fun i hi => absurd hi (Nat.not_lt_zero i)
        lowest  := Or.inl rfl
        highest := Or.inl rfl } }

/-- `Load` succeeds, with all the segments loaded. -/
theorem load_loaded (hfw : Reliable fw contents phdrs) (hplaced : WellPlaced contents ehdr phdrs)
    (loader : ElfLoader) (m : Lib.Bytes) :
    ∃ r, Loaded contents ehdr phdrs (fileEhdr contents).ePhnum.toNat r ∧
      (load fw ehdr loader m).value = (true,
        { mKernelBase := r.minAddr, mKernelSize := r.maxAddr - r.minAddr
          mEntryPoint := (fileEhdr contents).eEntry }, r.memory) := by
  obtain ⟨s, hopened, hehdr⟩ := @readEhdr_delivers fw contents m ehdr phdrs hfw hplaced
  obtain ⟨t, htable, hintact⟩ := readPhdrs_delivers hfw hplaced hehdr
  have hturns : (fileEhdr contents).ePhnum.toNat ≤ 0 + maxTurns := by
    have hlt := (fileEhdr contents).ePhnum.toNat_lt
    unfold maxTurns
    omega
  obtain ⟨r, hloop, hloaded⟩ := loaded_all hplaced hfw (loaded_zero hintact) (Nat.zero_le _) hturns
  refine ⟨r, hloaded, ?_⟩
  unfold load
  rw [Traced.value_bind, hopened]
  dsimp only
  rw [if_neg (by simp), Traced.value_bind, htable]
  dsimp only
  rw [Traced.value_bind, hloop]
  dsimp only
  rw [if_neg (by simp), Traced.value_pure, Elf64Ehdr.at_congr hehdr]
  rfl

/-- The hull of all the headers, as the two members have it. -/
theorem Hull.base_size (h : Hull contents (fileEhdr contents).ePhnum.toNat r) (hsome : ∃ i, IsLoad contents i) :
    (r.maxAddr - r.minAddr).toNat = r.maxAddr.toNat - r.minAddr.toNat ∧ r.minAddr.toNat ≤ r.maxAddr.toNat ∧
    (∃ i, IsLoad contents i ∧ r.minAddr = (filePhdr contents i).pVaddr) ∧
    ∃ i, IsLoad contents i ∧
      r.maxAddr.toNat = (filePhdr contents i).pVaddr.toNat + (filePhdr contents i).pMemsz.toNat := by
  obtain ⟨i, hload⟩ := hsome
  have hlower := h.lower i hload.index hload
  have hupper := h.upper i hload.index hload
  have hle : r.minAddr.toNat ≤ r.maxAddr.toNat := by omega
  refine ⟨UInt64.toNat_sub_of_le _ _ (UInt64.le_iff_toNat_le.mpr hle), hle, ?_, ?_⟩
  · rcases h.lowest with htop | ⟨j, -, hloadj, hj⟩
    · -- the first value is one that only a segment at the last address keeps
      have hlt := (filePhdr contents i).pVaddr.toNat_lt
      exact ⟨i, hload, UInt64.toNat_inj.mp (by omega)⟩
    · exact ⟨j, hloadj, hj⟩
  · rcases h.highest with hzero | ⟨j, -, hloadj, hj⟩
    · exact ⟨i, hload, by omega⟩
    · exact ⟨j, hloadj, hj⟩

/-- **Loading the kernel.** Every segment is in memory, the entry point is the file's, and the kernel's base and
    size are those of the smallest interval that encloses the segments, which is the smallest one that has all
    their bytes when none of them is empty. -/
theorem load_places (hfw : Reliable fw contents phdrs) (hplaced : WellPlaced contents ehdr phdrs)
    (loader : ElfLoader) (m : Lib.Bytes) :
    (load fw ehdr loader m).value.1 = true ∧
    (∀ i, IsLoad contents i → (filePhdr contents i).Present contents (load fw ehdr loader m).value.2.2) ∧
    (load fw ehdr loader m).value.2.1.mEntryPoint = (fileEhdr contents).eEntry ∧
    (let base := (load fw ehdr loader m).value.2.1.mKernelBase.toNat
     let size := (load fw ehdr loader m).value.2.1.mKernelSize.toNat
     Encloses contents base (base + size) ∧
     (∀ lo hi, Encloses contents lo hi → lo ≤ base ∧ base + size ≤ hi) ∧
     ((∀ i, IsLoad contents i → 0 < (filePhdr contents i).pMemsz.toNat) →
       Covers contents base (base + size) ∧
       ∀ lo hi, Covers contents lo hi → lo ≤ base ∧ base + size ≤ hi)) := by
  obtain ⟨r, hloaded, hvalue⟩ := load_loaded hfw hplaced loader m
  obtain ⟨hsize, hle, ⟨i, hloadi, hmin⟩, j, hloadj, hmax⟩ := hloaded.hull.base_size hplaced.some
  rw [hvalue]
  dsimp only
  rw [hsize, Nat.add_sub_cancel' hle]
  have hencloses : Encloses contents r.minAddr.toNat r.maxAddr.toNat := fun k hload =>
    ⟨hloaded.hull.lower k hload.index hload, hloaded.hull.upper k hload.index hload⟩
  refine ⟨rfl, fun k hload => hloaded.present k hload.index hload, rfl, hencloses, ?_, ?_⟩
  · intro lo hi h
    have hlo := (h i hloadi).1
    have hhi := (h j hloadj).2
    rw [← hmin] at hlo
    omega
  · intro hnonempty
    refine ⟨fun k hload a ha => ?_, fun lo hi h => ?_⟩
    · obtain ⟨hlow, hhigh⟩ := hencloses k hload
      obtain ⟨hfrom, hto⟩ := ha
      omega
    · -- the first byte of one segment and the last byte of another
      have hi0 := hnonempty i hloadi
      have hj0 := hnonempty j hloadj
      have hfits := hplaced.fits j hloadj
      have hfirst := h i hloadi (filePhdr contents i).pVaddr ⟨Nat.le_refl _, by omega⟩
      have hval : (UInt64.ofNat (r.maxAddr.toNat - 1)).toNat = r.maxAddr.toNat - 1 := by
        rw [UInt64.toNat_ofNat']
        have hlt := r.maxAddr.toNat_lt
        omega
      have hlast := h j hloadj (UInt64.ofNat (r.maxAddr.toNat - 1)) ⟨by omega, by omega⟩
      rw [← hmin] at hfirst
      omega

/-! ### An empty segment -/

/-- Two `PT_LOAD` segments: an empty one at `0x100000`, and one of 16 bytes at `0x200000`, four of them in the
    file. -/
def emptySegment : Lib.Bytes := fun a =>
  match a.toNat with
  | 0   => 0x7F
  | 1   => 0x45
  | 2   => 0x4C
  | 3   => 0x46
  | 4   => 2
  | 5   => 1
  | 16  => 2
  | 18  => 62
  | 32  => 64
  | 56  => 2
  | 64  => 1
  | 82  => 0x10
  | 120 => 1
  | 138 => 0x20
  | 152 => 4
  | 160 => 16
  | _   => 0

theorem reliable_delivers (contents : Lib.Bytes) (pool : UInt64) :
    Reliable (reliable contents pool) contents pool :=
  { opened   := Or.inl rfl
    pool     := rfl
    ehdr     := ⟨rfl, rfl, rfl, fun _ _ => rfl⟩
    phdrs    := ⟨rfl, rfl, rfl, fun _ _ => rfl⟩
    segments := fun _ _ _ => ⟨rfl, rfl, rfl, fun _ _ => rfl⟩ }

theorem emptySegment_phdrs :
    (fileEhdr emptySegment).ePhnum.toNat = 2 ∧ (fileEhdr emptySegment).phdrsSize.toNat = 112 ∧
    filePhdr emptySegment 0 = ⟨PT_LOAD, 0, 0x100000, 0, 0⟩ ∧
    filePhdr emptySegment 1 = ⟨PT_LOAD, 0, 0x200000, 4, 16⟩ := by
  refine ⟨by decide, by decide, by decide +kernel, by decide +kernel⟩

/-- Either of the two headers. -/
theorem emptySegment_cases {i : Nat} (h : IsLoad emptySegment i) : i = 0 ∨ i = 1 := by
  have hlt := h.index
  rw [emptySegment_phdrs.1] at hlt
  omega

theorem emptySegment_wellPlaced : WellPlaced emptySegment 0x8000 0x9000 := by
  obtain ⟨hnum, hsize, hfirst, hsecond⟩ := emptySegment_phdrs
  have hrange : ∀ i, IsLoad emptySegment i → (filePhdr emptySegment i).range.Fits ∧
      0x100000 ≤ (filePhdr emptySegment i).range.start.toNat := by
    intro i h
    rcases emptySegment_cases h with rfl | rfl
    · rw [hfirst]
      exact ⟨by unfold ByteRange.Fits; decide, by decide⟩
    · rw [hsecond]
      exact ⟨by unfold ByteRange.Fits; decide, by decide⟩
  have hbuffer : (ByteRange.mk 0x9000 (fileEhdr emptySegment).phdrsSize.toNat).Fits := by
    rw [hsize]
    unfold ByteRange.Fits
    decide
  refine ⟨by decide, ⟨1, by rw [hnum]; decide, by rw [hsecond]⟩, ?_, ?_, ?_, ?_, ?_, ?_⟩
  · intro i h
    rcases emptySegment_cases h with rfl | rfl
    · rw [hfirst]
      decide
    · rw [hsecond]
      decide
  · intro i h
    rcases emptySegment_cases h with rfl | rfl
    · rw [hfirst]
      decide
    · rw [hsecond]
      decide
  · -- one of the two has no bytes
    have hempty : ∀ a, a ∉ (filePhdr emptySegment 0).range := by
      intro a
      rw [hfirst]
      exact Nat.not_lt_zero _
    intro i j hi hj hne a ha ha'
    rcases emptySegment_cases hi with rfl | rfl
    · exact hempty a ha
    · rcases emptySegment_cases hj with rfl | rfl
      · exact hempty a ha'
      · exact hne rfl
  · intro i h
    obtain ⟨hfits, hlow⟩ := hrange i h
    refine (ByteRange.apart_of_le ?_ hfits ?_).symm
    · unfold ByteRange.Fits
      decide
    · exact le_trans (by decide) hlow
  · intro i h
    obtain ⟨hfits, hlow⟩ := hrange i h
    refine (ByteRange.apart_of_le hbuffer hfits ?_).symm
    rw [hsize]
    exact le_trans (by decide) hlow
  · apply ByteRange.apart_of_le _ hbuffer
    · decide
    · unfold ByteRange.Fits
      decide

/-- The second segment has all the bytes there are, and the kernel's base is the address of the first. -/
theorem emptySegment_hull :
    Reliable (reliable emptySegment 0x9000) emptySegment 0x9000 ∧ WellPlaced emptySegment 0x8000 0x9000 ∧
    Covers emptySegment 0x200000 0x200010 ∧
    (load (reliable emptySegment 0x9000) 0x8000 {} fun _ => 0).value.2.1.mKernelBase = 0x100000 := by
  obtain ⟨-, -, hfirst, hsecond⟩ := emptySegment_phdrs
  refine ⟨reliable_delivers _ _, emptySegment_wellPlaced, ?_, by decide +kernel⟩
  intro i h a ha
  rcases emptySegment_cases h with rfl | rfl
  · rw [hfirst] at ha
    obtain ⟨hfrom, hto⟩ := ha
    dsimp only at hfrom hto
    exact absurd (lt_of_le_of_lt hfrom hto) (by decide)
  · rw [hsecond] at ha
    exact ha

theorem load_places_emptySegment :
    (load (reliable emptySegment 0x9000) 0x8000 {} fun _ => 0).value.1 = true :=
  (load_places (reliable_delivers emptySegment 0x9000) emptySegment_wellPlaced {} fun _ => 0).1

end ElfLoader
end UefiBoot
