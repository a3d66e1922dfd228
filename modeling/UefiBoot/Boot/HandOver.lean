import UefiBoot.Boot.Segments
import UefiBoot.Memory.Frames

/-!
# `Boot.HandOver` — from `ElfLoader::Load` to `PhysicalMemoryManager::Init`

The loader hands the hull of the segments it loaded to the kernel, whose allocator reserves the pages of the
hull. As long as no segment touches the loader's header buffers, every turn of the segment loop sees the
headers of the file, whatever the firmware answers: `Enclosed` says that the hull then has the segments of the
turns so far. `hand_over` composes this with `Init`, and with any run of the allocator afterwards.
-/

namespace UefiBoot
namespace ElfLoader

open Lib (ByteRange Traced)

/-! ## What a turn leaves alone -/

/-- The bytes at `p_vaddr` that loading the segment can change. -/
def Elf64Phdr.extent (p : Elf64Phdr) : ByteRange := ⟨p.pVaddr, max p.pFilesz.toNat p.pMemsz.toNat⟩

variable {fw : Firmware} {m : Lib.Bytes} {ehdr phdrs phdr : UInt64} {p : Elf64Phdr} {i n : Nat}
  {a : UInt64} {s : State} {r : Segments}

theorem readSegment_outside (h : a ∉ (Elf64Phdr.at s.memory phdr).extent) :
    (readSegment fw i phdr s).value.2.memory a = s.memory a := by
  unfold readSegment
  dsimp only
  generalize Elf64Phdr.at s.memory phdr = p at h
  split
  · rw [Traced.value_bind, value_read]
    dsimp only
    rw [Traced.value_pure]
    dsimp only
    have hout : a ∉ ByteRange.mk p.pVaddr (min (segmentRead fw i p).count.toNat p.pFilesz.toNat) := by
      have hmax : ¬ (a - p.pVaddr).toNat < max p.pFilesz.toNat p.pMemsz.toNat := h
      intro hin
      have hlt : (a - p.pVaddr).toNat < min (segmentRead fw i p).count.toNat p.pFilesz.toNat := hin
      omega
    exact Lib.Bytes.overwrite_outside hout
  · rfl

theorem zeroBss_outside (h : a ∉ (Elf64Phdr.at s.memory phdr).extent) :
    (zeroBss phdr s).value.memory a = s.memory a := by
  unfold zeroBss
  dsimp only
  generalize Elf64Phdr.at s.memory phdr = p at h
  split
  · next hbss =>
      have hle := UInt64.le_of_lt hbss
      have hout : ¬ (a - p.pVaddr).toNat < max p.pFilesz.toNat p.pMemsz.toNat := h
      have hmem := p.pMemsz.toNat_lt
      have hsize := p.bss_size hle
      rw [Traced.value_bind, Traced.value_pure]
      dsimp only
      rw [Lib.Bytes.fill_apply (by omega), if_neg]
      rw [p.bss_offset hle]
      omega
  · rfl

/-- **One turn**, whatever the firmware answers: it changes no byte outside the segment, and when it goes
    through, the segment has entered the hull. The header at `phdr` is `p` and stays `p`. -/
theorem loadSegment_enters (htype : p.pType = PT_LOAD)
    (hstays : ∀ m' : Lib.Bytes, (∀ a, a ∉ p.extent → m' a = r.memory a) → Elf64Phdr.at m' phdr = p) :
    (∀ a, a ∉ p.extent → (loadSegment fw i phdr r).value.2.memory a = r.memory a) ∧
    ((loadSegment fw i phdr r).value.1 = true →
      (loadSegment fw i phdr r).value.2.minAddr = (r.enter p).minAddr ∧
      (loadSegment fw i phdr r).value.2.maxAddr = (r.enter p).maxAddr) := by
  have hp : Elf64Phdr.at r.memory phdr = p := hstays _ fun _ _ => rfl
  have hcopied : ∀ a, a ∉ p.extent → (readSegment fw i phdr r.toState).value.2.memory a = r.memory a := by
    intro a ha
    rw [readSegment_outside]
    rwa [hp]
  have hafter := hstays _ hcopied
  have hplaced : ∀ a, a ∉ p.extent →
      (zeroBss phdr (readSegment fw i phdr r.toState).value.2).value.memory a = r.memory a := by
    intro a ha
    rw [zeroBss_outside (by rwa [hafter]), hcopied a ha]
  have hlast := hstays _ hplaced
  unfold loadSegment
  rw [hp, if_neg (not_not_intro htype), Traced.value_bind]
  generalize (readSegment fw i phdr r.toState).value = copy at hcopied hplaced hlast
  obtain ⟨whole, t⟩ := copy
  dsimp only at hcopied hplaced hlast ⊢
  cases whole with
  | false =>
      rw [if_pos (by simp), Traced.value_pure]
      exact ⟨hcopied, fun h => absurd h (by simp)⟩
  | true =>
      rw [if_neg (by simp), Traced.value_bind, Traced.value_pure, hlast]
      unfold Segments.enter
      dsimp only
      exact ⟨hplaced, fun _ => ⟨rfl, rfl⟩⟩

/-! ## The hull, whatever the firmware answers -/

/-- The segments of the file lie below 4 GiB, there is one, and none touches the header buffers, neither with
    its memory nor with its bytes of the file. -/
structure Low (ehdr phdrs : UInt64) (s : State) : Prop where
  some     : ∃ i p, Kept ehdr phdrs s i p
  below    : ∀ i p, Kept ehdr phdrs s i p → p.pVaddr.toNat + p.pMemsz.toNat ≤ 2 ^ 32
  missEhdr : ∀ i p, Kept ehdr phdrs s i p → p.extent.Apart ⟨ehdr, ehdrSize.toNat⟩
  missPhdr : ∀ i p, Kept ehdr phdrs s i p →
    p.extent.Apart ⟨phdrs, (Elf64Ehdr.at s.memory ehdr).phdrsSize.toNat⟩

/-- After `n` turns: the buffers are as they were, and the hull has the segments so far. -/
structure Enclosed (ehdr phdrs : UInt64) (s : State) (n : Nat) (r : Segments) : Prop where
  sameEhdr : r.memory.Same ehdr s.memory ehdr ehdrSize.toNat
  samePhdr : r.memory.Same phdrs s.memory phdrs (Elf64Ehdr.at s.memory ehdr).phdrsSize.toNat
  lower    : ∀ i < n, ∀ p, Kept ehdr phdrs s i p → r.minAddr.toNat ≤ p.pVaddr.toNat
  upper    : ∀ i < n, ∀ p, Kept ehdr phdrs s i p → p.pVaddr.toNat + p.pMemsz.toNat ≤ r.maxAddr.toNat
  below    : r.maxAddr.toNat ≤ 2 ^ 32

variable {loader : ElfLoader}

/-- **One turn** that goes through keeps `Enclosed`. -/
theorem enclosed_succ (hlow : Low ehdr phdrs s) (h : Enclosed ehdr phdrs s n r)
    (hn : n < (Elf64Ehdr.at s.memory ehdr).ePhnum.toNat)
    (hwhole : (loadSegment fw n (phdrAt phdrs n) r).value.1 = true) :
    Enclosed ehdr phdrs s (n + 1) (loadSegment fw n (phdrAt phdrs n) r).value.2 := by
  have hphdr := phdr_at_congr h.samePhdr hn
  generalize hp : Elf64Phdr.at s.memory (phdrAt phdrs n) = p at hphdr
  by_cases htype : p.pType = PT_LOAD
  · have hkept : Kept ehdr phdrs s n p := ⟨hn, hp.symm, htype⟩
    have hbelow := hlow.below n p hkept
    have hsize := (Elf64Ehdr.at s.memory ehdr).phdrsSize.toNat_lt
    have hstays : ∀ m' : Lib.Bytes, (∀ a, a ∉ p.extent → m' a = r.memory a) →
        Elf64Phdr.at m' (phdrAt phdrs n) = p := by
      intro m' hm'
      rw [← hp]
      exact phdr_at_congr (h.samePhdr.of_apart (by omega) (hlow.missPhdr n p hkept) hm') hn
    obtain ⟨hout, henter⟩ := @loadSegment_enters fw _ p n r htype hstays
    obtain ⟨hmin, hmax⟩ := henter hwhole
    generalize (loadSegment fw n (phdrAt phdrs n) r).value.2 = r' at hout hmin hmax
    have hehdr := h.sameEhdr.of_apart (by decide) (hlow.missEhdr n p hkept) hout
    have hphdrs := h.samePhdr.of_apart (by omega) (hlow.missPhdr n p hkept) hout
    have hend : (p.pVaddr + p.pMemsz).toNat = p.pVaddr.toNat + p.pMemsz.toNat := by
      rw [UInt64.toNat_add]
      omega
    have hsame : ∀ q, Kept ehdr phdrs s n q → q = p := fun q hq => by rw [hq.2.1, hp]
    have hmin' : r'.minAddr.toNat ≤ r.minAddr.toNat ∧ r'.minAddr.toNat ≤ p.pVaddr.toNat := by
      rw [hmin]
      unfold Segments.enter
      dsimp only
      split
      · next hnew =>
          rw [UInt64.lt_iff_toNat_lt] at hnew
          omega
      · next hnew =>
          rw [UInt64.lt_iff_toNat_lt] at hnew
          omega
    have hmax' : r.maxAddr.toNat ≤ r'.maxAddr.toNat ∧ p.pVaddr.toNat + p.pMemsz.toNat ≤ r'.maxAddr.toNat ∧
        r'.maxAddr.toNat ≤ 2 ^ 32 := by
      have hold := h.below
      rw [hmax]
      unfold Segments.enter
      dsimp only
      split
      · next hnew =>
          rw [gt_iff_lt, UInt64.lt_iff_toNat_lt] at hnew
          omega
      · next hnew =>
          rw [gt_iff_lt, UInt64.lt_iff_toNat_lt] at hnew
          omega
    refine ⟨hehdr, hphdrs, fun i hi q hq => ?_, fun i hi q hq => ?_, hmax'.2.2⟩
    · rcases Nat.lt_succ_iff_lt_or_eq.mp hi with hlt | rfl
      · exact le_trans hmin'.1 (h.lower i hlt q hq)
      · rw [hsame q hq]
        exact hmin'.2
    · rcases Nat.lt_succ_iff_lt_or_eq.mp hi with hlt | rfl
      · exact le_trans (h.upper i hlt q hq) hmax'.1
      · rw [hsame q hq]
        exact hmax'.2.1
  · -- not a segment
    have hskip : ∀ i < n + 1, ∀ q, Kept ehdr phdrs s i q → i < n := by
      intro i hi q hq
      rcases Nat.lt_succ_iff_lt_or_eq.mp hi with hlt | rfl
      · exact hlt
      · rw [hq.2.1, hp] at hq
        exact absurd hq.2.2 htype
    have hvalue : (loadSegment fw n (phdrAt phdrs n) r).value = (true, r) := by
      unfold loadSegment
      rw [hphdr, if_pos htype]
      rfl
    rw [hvalue]
    exact ⟨h.sameEhdr, h.samePhdr, fun i hi q hq => h.lower i (hskip i hi q hq) q hq,
      fun i hi q hq => h.upper i (hskip i hi q hq) q hq, h.below⟩

/-- **The loop**, when it goes through all the headers. -/
theorem enclosed_all (hlow : Low ehdr phdrs s) (h : Enclosed ehdr phdrs s i r)
    (hi : i ≤ (Elf64Ehdr.at s.memory ehdr).ePhnum.toNat)
    (hn : (Elf64Ehdr.at s.memory ehdr).ePhnum.toNat ≤ i + n)
    (hwhole : (loadSegments fw ehdr phdrs n i r).value.1 = true) :
    Enclosed ehdr phdrs s (Elf64Ehdr.at s.memory ehdr).ePhnum.toNat (loadSegments fw ehdr phdrs n i r).value.2 := by
  induction n generalizing i r with
  | zero =>
      have heq : i = (Elf64Ehdr.at s.memory ehdr).ePhnum.toNat := by omega
      rw [← heq]
      exact h
  | succ n ih =>
      have hehdr : Elf64Ehdr.at r.memory ehdr = Elf64Ehdr.at s.memory ehdr := Elf64Ehdr.at_congr h.sameEhdr
      unfold loadSegments at hwhole ⊢
      rw [hehdr] at hwhole ⊢
      by_cases hlt : i < (Elf64Ehdr.at s.memory ehdr).ePhnum.toNat
      · rw [if_pos hlt, Traced.value_bind] at hwhole ⊢
        cases hturn : (loadSegment fw i (phdrAt phdrs i) r).value.1 with
        | false =>
            dsimp only at hwhole
            rw [hturn, if_neg (by simp)] at hwhole
            exact absurd hwhole (by simp)
        | true =>
            dsimp only at hwhole ⊢
            rw [hturn, if_pos rfl] at hwhole ⊢
            exact ih (enclosed_succ hlow h hlt hturn) (by omega) (by omega) hwhole
      · have heq : i = (Elf64Ehdr.at s.memory ehdr).ePhnum.toNat := by omega
        rw [if_neg hlt]
        rw [← heq]
        exact h

theorem enclosed_zero : Enclosed ehdr phdrs s 0 { toState := s } :=
  { sameEhdr := fun _ _ => rfl
    samePhdr := fun _ _ => rfl
    lower    := fun i hi => absurd hi (Nat.not_lt_zero i)
    upper    := fun i hi => absurd hi (Nat.not_lt_zero i)
    below    := Nat.zero_le _ }

/-- A load that succeeds has gone through the segment loop. -/
theorem load_of_start (hstart : segmentsStart fw ehdr m = some (phdrs, s))
    (hload : (load fw ehdr loader m).value.1 = true) :
    let r := (loadSegments fw ehdr phdrs maxTurns 0 { toState := s }).value
    r.1 = true ∧ (load fw ehdr loader m).value.2.1.mKernelBase = r.2.minAddr ∧
      (load fw ehdr loader m).value.2.1.mKernelSize = r.2.maxAddr - r.2.minAddr := by
  unfold load segmentsStart at *
  rw [Traced.value_bind] at *
  generalize (readEhdr fw ehdr { memory := m }).value = opened at hstart hload ⊢
  obtain ⟨opened, u⟩ := opened
  dsimp only at hstart hload ⊢
  cases opened with
  | false => exact absurd hload (by simp)
  | true =>
      rw [if_neg (by simp)] at hstart hload ⊢
      rw [Traced.value_bind] at hload ⊢
      generalize (readPhdrs fw ehdr u).value = table at hstart hload ⊢
      obtain ⟨table, t⟩ := table
      cases table with
      | none => exact absurd hstart (by simp)
      | some phdrs' =>
          obtain ⟨rfl, rfl⟩ := Prod.mk.inj (Option.some.inj hstart)
          dsimp only at hload ⊢
          rw [Traced.value_bind] at hload ⊢
          generalize (loadSegments fw ehdr phdrs' maxTurns 0 { toState := t }).value = r at hload ⊢
          obtain ⟨whole, r⟩ := r
          dsimp only at hload ⊢
          cases whole with
          | false => exact absurd hload (by simp)
          | true => exact ⟨rfl, rfl, rfl⟩

/-- **What `Load` hands over**: an interval below 4 GiB with every byte of every segment. -/
theorem load_encloses (hstart : segmentsStart fw ehdr m = some (phdrs, s)) (hlow : Low ehdr phdrs s)
    (hload : (load fw ehdr loader m).value.1 = true) :
    let base := (load fw ehdr loader m).value.2.1.mKernelBase.toNat
    let size := (load fw ehdr loader m).value.2.1.mKernelSize.toNat
    base + size ≤ 2 ^ 32 ∧ ∀ i p a, Kept ehdr phdrs s i p → p.Holds a → base ≤ a.toNat ∧ a.toNat < base + size := by
  have hturns : (Elf64Ehdr.at s.memory ehdr).ePhnum.toNat ≤ 0 + maxTurns := by
    have hlt := (Elf64Ehdr.at s.memory ehdr).ePhnum.toNat_lt
    unfold maxTurns
    omega
  obtain ⟨hwhole, hbase, hsize⟩ := load_of_start hstart hload
  have hall := enclosed_all hlow enclosed_zero (Nat.zero_le _) hturns hwhole
  rw [hbase, hsize]
  generalize (loadSegments fw ehdr phdrs maxTurns 0 { toState := s }).value.2 = r at hall
  obtain ⟨i, p, hkept⟩ := hlow.some
  have hlower := hall.lower i hkept.1 p hkept
  have hupper := hall.upper i hkept.1 p hkept
  have hle : r.minAddr.toNat ≤ r.maxAddr.toNat := by omega
  rw [UInt64.toNat_sub_of_le _ _ (UInt64.le_iff_toNat_le.mpr hle)]
  have hbelow := hall.below
  refine ⟨by omega, fun j q a hq ha => ?_⟩
  have hlower' := hall.lower j hq.1 q hq
  have hupper' := hall.upper j hq.1 q hq
  obtain ⟨hfrom, hto⟩ := ha
  omega

/-! ## The kernel's allocator -/

/-- Some byte of some segment is on the page. -/
def SegmentPage (ehdr phdrs : UInt64) (s : State) (page : Nat) : Prop :=
  ∃ i p a, Kept ehdr phdrs s i p ∧ p.Holds a ∧ pageOf a = page

end ElfLoader

namespace PhysicalMemoryManager

/-- The pages that an operation releases. -/
def Op.released : Op → List Nat
  | .freePage address                 => markedPages (address / kPageSize) 1
  | .freeContiguous address pageCount =>
    if address &&& (kPageSize - 1) = 0 ∧ pageCount ≠ 0 then markedPages (address / kPageSize) pageCount else []
  | _                                 => []

variable {t : PhysicalMemoryManager} {page : Nat}

/-- `ReserveRange` takes every page that the range reaches. -/
theorem isPageFree_reserveRange {address byteCount : UInt64} {a : Nat}
    (hfits : address.toNat + byteCount.toNat ≤ 2 ^ 32) (hlo : address.toNat ≤ a)
    (hhi : a < address.toNat + byteCount.toNat) :
    (t.reserveRange address byteCount).isPageFree (a / 4096) = false := by
  have hlimit : kManagedMemoryLimit.toNat = 2 ^ 32 := rfl
  have hpage : kPageSize.toNat = 2 ^ 12 := rfl
  have hzero : (0 : UInt64).toNat = 0 := rfl
  have hN := kManagedPageCount_eq
  have hsum : (address + byteCount).toNat = address.toNat + byteCount.toNat := by
    rw [UInt64.toNat_add]
    omega
  unfold reserveRange
  rw [if_neg]
  · show (t.markPages _ _ false).isPageFree _ = false
    rw [isPageFree_markPages, if_pos]
    have hdown := Lib.toNat_alignDown (v := address) hpage
    have hdownMod := Lib.toNat_alignDown_mod (v := address) hpage
    have hup := Lib.toNat_alignUp_bounds (v := address + byteCount) hpage (by omega)
    have hupMod : (Lib.alignUp (address + byteCount) kPageSize).toNat % kPageSize.toNat = 0 :=
      Lib.toNat_alignDown_mod hpage
    generalize Lib.alignDown address kPageSize = start at hdown hdownMod
    generalize Lib.alignUp (address + byteCount) kPageSize = stop at hup hupMod
    rw [hsum] at hup
    have hlen : (stop - start).toNat = stop.toNat - start.toNat :=
      UInt64.toNat_sub_of_le _ _ (UInt64.le_iff_toNat_le.mpr (by omega))
    have hstop := stop.toNat_lt
    rw [mem_markedPages, UInt64.toNat_add, UInt64.toNat_div, UInt64.toNat_div, hlen, hN]
    rw [hpage] at *
    omega
  · rw [not_or]
    constructor
    · intro hz
      rw [hz, hzero] at hhi
      omega
    · intro hz
      have hz' := UInt64.le_iff_toNat_le.mp hz
      omega

/-- A page that one of the ranges of `Init` reaches is in use after `Init`. -/
theorem isPageFree_init_reserved {image : KernelImage} {boot : BootInfo} {bytes : Lib.Bytes}
    {r : UInt64 × UInt64} (hb : Accepts boot) (hr : r ∈ reservedRanges image boot)
    (hres : ∀ t : PhysicalMemoryManager, (t.reserveRange r.1 r.2).isPageFree page = false) :
    (t.init image boot bytes).2.isPageFree page = false := by
  rw [init_eq hb]
  generalize (descriptors boot bytes).foldl initDescriptor t.allUsed = u
  generalize reservedRanges image boot = ranges at hr
  have hused : ∀ (ranges : List (UInt64 × UInt64)) (v : PhysicalMemoryManager), v.isPageFree page = false →
      (ranges.foldl (fun s r => s.reserveRange r.1 r.2) v).isPageFree page = false := by
    intro ranges
    induction ranges with
    | nil => exact fun _ hv => hv
    | cons q ranges ih => exact fun v hv => ih _ (reserveRange_used hv q.1 q.2)
  induction ranges generalizing u with
  | nil => exact absurd hr (by simp)
  | cons q ranges ih =>
      rw [List.foldl_cons]
      rcases List.mem_cons.mp hr with rfl | hr
      · exact hused ranges _ (hres u)
      · exact ih _ hr

/-- **One operation** leaves a page in use that it does not release. -/
theorem isPageFree_step {op : Op} (hpage : page ∉ op.released) (h : t.isPageFree page = false) :
    (step t op).isPageFree page = false := by
  have halloc : ∀ pageCount alignmentPages, (t.allocateAligned pageCount alignmentPages).2.isPageFree page = false := by
    intro pageCount alignmentPages
    rcases allocateAligned_cases t pageCount alignmentPages with ⟨-, hres⟩ | ⟨first, -, -, -, htakes⟩
    · rw [hres]
      exact h
    · rw [htakes.pages, h, ite_self]
  cases op with
  | allocateAligned pageCount alignmentPages => exact halloc pageCount alignmentPages
  | allocateContiguous pageCount => exact halloc pageCount 1
  | allocatePage => exact halloc 1 1
  | freePage address =>
      have hout : page ∉ markedPages (address / kPageSize) 1 := hpage
      show (t.markPages _ _ true).isPageFree page = false
      rw [isPageFree_markPages, if_neg hout]
      exact h
  | freeContiguous address pageCount =>
      show (t.freeContiguous address pageCount).isPageFree page = false
      unfold Op.released at hpage
      dsimp only at hpage
      unfold freeContiguous
      split
      · next hvalid =>
          rw [if_pos hvalid] at hpage
          show (t.markPages _ _ true).isPageFree page = false
          rw [isPageFree_markPages, if_neg hpage]
          exact h
      · exact h

/-- **Any operations** leave a page in use that none of them releases. -/
theorem isPageFree_run {ops : List Op} (hops : ∀ op ∈ ops, page ∉ op.released)
    (h : t.isPageFree page = false) : (Lib.run step t ops).isPageFree page = false := by
  induction ops generalizing t with
  | nil => exact h
  | cons op ops ih =>
      exact ih (fun op' hop => hops op' (List.mem_cons_of_mem _ hop))
        (isPageFree_step (hops op List.mem_cons_self) h)

end PhysicalMemoryManager

namespace ElfLoader

open Lib (ByteRange)
open PhysicalMemoryManager (smallImage)

variable {fw : Firmware} {m : Lib.Bytes} {ehdr phdrs : UInt64} {s : State} {loader : ElfLoader}

open PhysicalMemoryManager in
/-- **Hand-over.** The pages of the segments are in use after `Init`, and no block that is allocated later has
    one of them, as long as none is released. -/
theorem hand_over (hstart : segmentsStart fw ehdr m = some (phdrs, s)) (hlow : Low ehdr phdrs s)
    (hload : (load fw ehdr loader m).value.1 = true) (pmm : PhysicalMemoryManager) (image : KernelImage)
    (boot : BootInfo) (bytes : Lib.Bytes) (hb : Accepts boot)
    (hbase : boot.kernelBase = (load fw ehdr loader m).value.2.1.mKernelBase)
    (hsize : boot.kernelSize = (load fw ehdr loader m).value.2.1.mKernelSize) :
    (∀ page, SegmentPage ehdr phdrs s page → (pmm.init image boot bytes).2.isPageFree page = false) ∧
    ∀ ops : List Op, (∀ op ∈ ops, ∀ page ∈ op.released, ¬ SegmentPage ehdr phdrs s page) →
      ∀ pageCount alignmentPages first,
        (Lib.run step (pmm.init image boot bytes).2 ops).findBlock pageCount alignmentPages = some first →
        ((Lib.run step (pmm.init image boot bytes).2 ops).allocateAligned pageCount alignmentPages).1 =
          frameOf first ∧
        ∀ page, first ≤ page → page < first + pageCount.toNat → ¬ SegmentPage ehdr phdrs s page := by
  obtain ⟨hbelow, hencloses⟩ := load_encloses hstart hlow hload
  rw [← hbase, ← hsize] at hbelow hencloses
  have hused : ∀ page, SegmentPage ehdr phdrs s page →
      (pmm.init image boot bytes).2.isPageFree page = false := by
    rintro page ⟨i, p, a, hkept, ha, rfl⟩
    obtain ⟨hfrom, hto⟩ := hencloses i p a hkept ha
    apply isPageFree_init_reserved (r := (boot.kernelBase, boot.kernelSize)) hb
    · unfold reservedRanges
      simp
    · intro t
      exact isPageFree_reserveRange hbelow hfrom hto
  refine ⟨hused, fun ops hops pageCount alignmentPages first hfind => ?_⟩
  rcases allocateAligned_cases (Lib.run step (pmm.init image boot bytes).2 ops) pageCount alignmentPages with
    ⟨hnone, -⟩ | ⟨first', hfirst, -, haddr, htakes⟩
  · rw [hnone] at hfind
    exact absurd hfind (by simp)
  · rw [hfind] at hfirst
    obtain rfl := Option.some.inj hfirst
    refine ⟨haddr, fun page hlo hhi hseg => ?_⟩
    have hkeep := isPageFree_run (fun op hop hin => hops op hop page hin hseg) (hused page hseg)
    rw [htakes.free page hlo hhi] at hkeep
    exact absurd hkeep (by simp)

/-! ### A kernel that is handed over, and one that is not -/

/-- The descriptor: sixteen conventional pages at 2 MiB. -/
def highMap : Lib.Bytes :=
  fun a => if a = 0x90000 then 7 else if a = 0x9000A then 0x20 else if a = 0x90018 then 16 else 0

/-- A memory map with that descriptor, and a kernel. -/
def highBoot (base size : UInt64) : BootInfo := ⟨{}, ⟨0x90000, 48, 48⟩, base, size⟩

/-- The allocator before `Init`. -/
def noPages : PhysicalMemoryManager := {}

/-- Page 512 is free after `Init`, unless the kernel's range reaches it. -/
theorem isPageFree_high (pmm : PhysicalMemoryManager) {base size : UInt64}
    (hout : PhysicalMemoryManager.Outside 512 (base, size)) :
    (pmm.init smallImage (highBoot base size) highMap).2.isPageFree 512 = true := by
  have hN := kManagedPageCount_eq
  have hothers : (PhysicalMemoryManager.reservedRanges smallImage (highBoot 0 0)).all
      (fun r => decide (PhysicalMemoryManager.Outside 512 r)) = true := by
    decide +kernel
  have houts : ∀ r ∈ PhysicalMemoryManager.reservedRanges smallImage (highBoot base size),
      PhysicalMemoryManager.Outside 512 r := by
    have hall : ∀ r ∈ PhysicalMemoryManager.reservedRanges smallImage (highBoot 0 0),
        PhysicalMemoryManager.Outside 512 r :=
      fun r hr => of_decide_eq_true (List.all_eq_true.mp hothers r hr)
    unfold PhysicalMemoryManager.reservedRanges at hall ⊢
    simp only [List.forall_mem_cons] at hall ⊢
    exact ⟨hall.1, hout, hall.2.2⟩
  have hdescs : PhysicalMemoryManager.descriptors (highBoot base size) highMap =
      [⟨7, 0x200000, 16⟩] := by
    have hsame : PhysicalMemoryManager.descriptors (highBoot 0 0) highMap =
        [⟨7, 0x200000, 16⟩] := by decide +kernel
    exact hsame
  have haccepts : PhysicalMemoryManager.Accepts (highBoot base size) := by
    constructor
    · show (0x90000 : UInt64) ≠ 0
      decide
    · show kMemoryDescriptorSize ≤ 48
      decide
  rw [PhysicalMemoryManager.isPageFree_init_of_outside haccepts houts, hdescs, List.foldl_cons, List.foldl_nil]
  generalize pmm.allUsed = t
  unfold PhysicalMemoryManager.initDescriptor
  dsimp only
  rw [if_neg (by decide), if_pos (by decide)]
  unfold PhysicalMemoryManager.markRange
  rw [PhysicalMemoryManager.isPageFree_markPages, if_pos]
  rw [PhysicalMemoryManager.mem_markedPages, hN]
  decide

def emptySegmentStart : State :=
  (readPhdrs (reliable emptySegment 0x9000) 0x8000
    (readEhdr (reliable emptySegment 0x9000) 0x8000 { memory := fun _ => 0 }).value.2).value.2

theorem emptySegmentStart_phdrs :
    (Elf64Ehdr.at emptySegmentStart.memory 0x8000).ePhnum.toNat = 2 ∧
    (Elf64Ehdr.at emptySegmentStart.memory 0x8000).phdrsSize.toNat = 112 ∧
    Elf64Phdr.at emptySegmentStart.memory (phdrAt 0x9000 0) = ⟨PT_LOAD, 0, 0x100000, 0, 0⟩ ∧
    Elf64Phdr.at emptySegmentStart.memory (phdrAt 0x9000 1) = ⟨PT_LOAD, 0, 0x200000, 4, 16⟩ := by
  refine ⟨by decide +kernel, by decide +kernel, by decide +kernel, by decide +kernel⟩

theorem emptySegmentStart_low : Low 0x8000 0x9000 emptySegmentStart := by
  obtain ⟨hnum, hsize, hfirst, hsecond⟩ := emptySegmentStart_phdrs
  have hcases : ∀ i p, Kept 0x8000 0x9000 emptySegmentStart i p →
      p = ⟨PT_LOAD, 0, 0x100000, 0, 0⟩ ∨ p = ⟨PT_LOAD, 0, 0x200000, 4, 16⟩ := by
    rintro i p ⟨hi, hp, -⟩
    rw [hnum] at hi
    have hindex : i = 0 ∨ i = 1 := by omega
    rcases hindex with rfl | rfl
    · left
      rw [hp, hfirst]
    · right
      rw [hp, hsecond]
  have hextent : ∀ i p, Kept 0x8000 0x9000 emptySegmentStart i p →
      p.extent.Fits ∧ 0x100000 ≤ p.extent.start.toNat := by
    intro i p h
    rcases hcases i p h with rfl | rfl
    · exact ⟨by unfold ByteRange.Fits; decide, by decide⟩
    · exact ⟨by unfold ByteRange.Fits; decide, by decide⟩
  refine ⟨⟨1, _, by rw [hnum]; decide, hsecond.symm, rfl⟩, fun i p h => ?_, fun i p h => ?_, fun i p h => ?_⟩
  · rcases hcases i p h with rfl | rfl <;> decide
  · obtain ⟨hfits, hlow⟩ := hextent i p h
    refine (ByteRange.apart_of_le ?_ hfits ?_).symm
    · unfold ByteRange.Fits
      decide
    · exact le_trans (by decide) hlow
  · obtain ⟨hfits, hlow⟩ := hextent i p h
    rw [hsize]
    refine (ByteRange.apart_of_le ?_ hfits ?_).symm
    · unfold ByteRange.Fits
      decide
    · exact le_trans (by decide) hlow

theorem hand_over_emptySegment :
    (noPages.init smallImage (highBoot 0x100000 0x100010) highMap).2.isPageFree 512 = false := by
  obtain ⟨hnum, -, -, hsecond⟩ := emptySegmentStart_phdrs
  have hstart : segmentsStart (reliable emptySegment 0x9000) 0x8000 (fun _ => 0) =
      some (0x9000, emptySegmentStart) := segmentsStart_eq (by decide +kernel) (by decide +kernel)
  have hused := (@hand_over _ _ _ _ _ {} hstart emptySegmentStart_low (by decide +kernel) noPages smallImage
    (highBoot 0x100000 0x100010) highMap (by decide) (by decide +kernel) (by decide +kernel)).1
  exact hused 512 ⟨1, _, 0x200000, ⟨by rw [hnum]; decide, hsecond.symm, rfl⟩, by decide, by decide⟩

/-- Two `PT_LOAD` segments: the first, of four zeros, is loaded over the type of the second header. -/
def overwritingKernel : Lib.Bytes := fun a =>
  match a.toNat with
  | 0   => 0x7F
  | 1   => 0x45
  | 2   => 0x4C
  | 3   => 0x46
  | 4   => 2
  | 5   => 1
  | 16  => 2
  | 18  => 62
  | 32  => 64
  | 56  => 2
  | 64  => 1
  | 73  => 2
  | 80  => 0x38
  | 81  => 0x90
  | 96  => 4
  | 104 => 4
  | 120 => 1
  | 138 => 0x20
  | 160 => 16
  | _   => 0

def overwritingStart : State :=
  (readPhdrs (reliable overwritingKernel 0x9000) 0x8000
    (readEhdr (reliable overwritingKernel 0x9000) 0x8000 { memory := fun _ => 0 }).value.2).value.2

/-- A segment is on page 512 in both, and the page is free after `Init`: with the kernel that overwrites its own
    headers, and with the other one when the memory map is rejected. -/
theorem overwritingKernel_page_free :
    ((load (reliable overwritingKernel 0x9000) 0x8000 {} fun _ => 0).value.1 = true ∧
      segmentsStart (reliable overwritingKernel 0x9000) 0x8000 (fun _ => 0) = some (0x9000, overwritingStart) ∧
      SegmentPage 0x8000 0x9000 overwritingStart 512 ∧
      (noPages.init smallImage
        (highBoot (load (reliable overwritingKernel 0x9000) 0x8000 {} fun _ => 0).value.2.1.mKernelBase
          (load (reliable overwritingKernel 0x9000) 0x8000 {} fun _ => 0).value.2.1.mKernelSize)
        highMap).2.isPageFree 512 = true) ∧
    ((load (reliable emptySegment 0x9000) 0x8000 {} fun _ => 0).value.1 = true ∧
      segmentsStart (reliable emptySegment 0x9000) 0x8000 (fun _ => 0) = some (0x9000, emptySegmentStart) ∧
      SegmentPage 0x8000 0x9000 emptySegmentStart 512 ∧
      (noPages.init smallImage ⟨{}, ⟨0x90000, 48, 0⟩,
        (load (reliable emptySegment 0x9000) 0x8000 {} fun _ => 0).value.2.1.mKernelBase,
        (load (reliable emptySegment 0x9000) 0x8000 {} fun _ => 0).value.2.1.mKernelSize⟩
        highMap).2.isPageFree 512 = true) := by
  constructor
  · have hstart : segmentsStart (reliable overwritingKernel 0x9000) 0x8000 (fun _ => 0) =
        some (0x9000, overwritingStart) := segmentsStart_eq (by decide +kernel) (by decide +kernel)
    have hnum : (Elf64Ehdr.at overwritingStart.memory 0x8000).ePhnum.toNat = 2 := by decide +kernel
    have hsecond : Elf64Phdr.at overwritingStart.memory (phdrAt 0x9000 1) = ⟨PT_LOAD, 0, 0x200000, 0, 16⟩ := by
      decide +kernel
    have hbase :
        (load (reliable overwritingKernel 0x9000) 0x8000 {} fun _ => 0).value.2.1.mKernelBase = 0x9038 := by
      decide +kernel
    have hsize : (load (reliable overwritingKernel 0x9000) 0x8000 {} fun _ => 0).value.2.1.mKernelSize = 4 := by
      decide +kernel
    refine ⟨by decide +kernel, hstart, ⟨1, _, 0x200000, ⟨by rw [hnum]; decide, hsecond.symm, rfl⟩, by decide,
      by decide⟩, ?_⟩
    rw [hbase, hsize]
    exact isPageFree_high noPages (by decide)
  · obtain ⟨hnum, -, -, hsecond⟩ := emptySegmentStart_phdrs
    have hstart : segmentsStart (reliable emptySegment 0x9000) 0x8000 (fun _ => 0) =
        some (0x9000, emptySegmentStart) := segmentsStart_eq (by decide +kernel) (by decide +kernel)
    exact ⟨by decide +kernel, hstart, ⟨1, _, 0x200000, ⟨by rw [hnum]; decide, hsecond.symm, rfl⟩, by decide,
      by decide⟩, rfl⟩

end ElfLoader
end UefiBoot
