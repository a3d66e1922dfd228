import Mathlib.Order.Bounds.Basic
import UefiBoot.Boot.HandOver

/-!
# `Boot.LoadSuccess` — what a successful `ElfLoader::Load` stands for

`Load` returns true when the header is accepted and every read delivers as many bytes as it was asked for
(`load_true_iff`). It does not look at what its seeks return, at how many `PT_LOAD` headers there were, at where
the entry point is, or at whether the end of a segment passes `2 ^ 64`. `load_real_iff` says when a kernel that was
loaded is a real one all the same: the seeks, the entry point and the ends of the segments have to be right in the
file and in the firmware's answers, for nothing in the loader makes them so.

A segment may be loaded over the program headers. The header of a turn is then the one that the buffer holds at the
end of the turn, which is the one that enters the hull.
-/

namespace UefiBoot
namespace ElfLoader

open Lib (ByteRange Traced)

variable {fw : Firmware} {ehdr phdrs phdr : UInt64} {m : Lib.Bytes} {loader : ElfLoader} {s : State} {i n : Nat}
  {r : Segments} {p : Elf64Phdr}

/-! ## What a run of the loader did -/

/-- Turn `i + k`, counted from turn `i` in state `r`, loads the segment with the header `p`. -/
def LoadsAt (fw : Firmware) (ehdr phdrs : UInt64) (i : Nat) (r : Segments) (k : Nat) (p : Elf64Phdr) : Prop :=
  ∃ u, reached fw ehdr phdrs i r k = some u ∧ (Elf64Phdr.at u.memory (phdrAt phdrs (i + k))).pType = PT_LOAD ∧
    (loadSegment fw (i + k) (phdrAt phdrs (i + k)) u).value.1 = true ∧
    p = Elf64Phdr.at (loadSegment fw (i + k) (phdrAt phdrs (i + k)) u).value.2.memory (phdrAt phdrs (i + k))

/-- `Load` loads a `PT_LOAD` segment with the header `p`. -/
def Loads (fw : Firmware) (ehdr : UInt64) (m : Lib.Bytes) (p : Elf64Phdr) : Prop :=
  ∃ phdrs s k, segmentsStart fw ehdr m = some (phdrs, s) ∧ LoadsAt fw ehdr phdrs 0 { toState := s } k p

/-- The seeks that `Load` performs. -/
inductive Seeks (fw : Firmware) (ehdr : UInt64) (m : Lib.Bytes) : Call → UInt64 → Prop where
  | ehdr (hopen : fw.isOpen = true ∨ fw.opens = true) : Seeks fw ehdr m .ehdr 0
  | phdrs {block : UInt64} (haccepted : (readEhdr fw ehdr { memory := m }).value.1 = true)
      (hpool : fw.pool = some block) :
      Seeks fw ehdr m .phdrs (Elf64Ehdr.at (readEhdr fw ehdr { memory := m }).value.2.memory ehdr).ePhoff
  | segment {phdrs : UInt64} {s : State} {k : Nat} {u : Segments}
      (hstart : segmentsStart fw ehdr m = some (phdrs, s))
      (hreached : reached fw ehdr phdrs 0 { toState := s } k = some u)
      (htype : (Elf64Phdr.at u.memory (phdrAt phdrs k)).pType = PT_LOAD)
      (hfile : (Elf64Phdr.at u.memory (phdrAt phdrs k)).pFilesz > 0) :
      Seeks fw ehdr m (.segment k) (Elf64Phdr.at u.memory (phdrAt phdrs k)).pOffset

/-- The end of a segment, as an integer. -/
def Elf64Phdr.stop (p : Elf64Phdr) : Nat := p.pVaddr.toNat + p.pMemsz.toNat

/-- **A real kernel**: something was loaded, from where the loader meant to read, the entry point is in it, and base
    and size describe memory up to the end of the highest segment. -/
structure RealKernel (fw : Firmware) (ehdr : UInt64) (m : Lib.Bytes) (loaded : ElfLoader) : Prop where
  some  : ∃ p, Loads fw ehdr m p
  seeks : ∀ c position, Seeks fw ehdr m c position → (fw.seek c position).success = true
  entry : ∃ p, Loads fw ehdr m p ∧ p.Holds loaded.mEntryPoint
  stop  : IsGreatest {e | ∃ p, Loads fw ehdr m p ∧ e = p.stop}
    (loaded.mKernelBase.toNat + loaded.mKernelSize.toNat)
  fits  : loaded.mKernelBase.toNat + loaded.mKernelSize.toNat < 2 ^ 64

/-- The checks of `Load` are passed: the header is accepted, the program headers are read, and every segment that
    the loop comes to is read whole. -/
def Completes (fw : Firmware) (ehdr : UInt64) (m : Lib.Bytes) : Prop :=
  ∃ phdrs s, segmentsStart fw ehdr m = some (phdrs, s) ∧
    ∀ k u, reached fw ehdr phdrs 0 { toState := s } k = some u →
      (loadSegment fw k (phdrAt phdrs k) u).value.1 = true

/-- `e_entry` of the header that `Load` read. -/
def entryOf (fw : Firmware) (ehdr : UInt64) (m : Lib.Bytes) : UInt64 :=
  (Elf64Ehdr.at (readEhdr fw ehdr { memory := m }).value.2.memory ehdr).eEntry

/-! ## The segment loop -/

/-- The turn after the first one is a turn of the rest of the loop. -/
theorem reached_succ {k : Nat} (hlt : i < (Elf64Ehdr.at r.memory ehdr).ePhnum.toNat)
    (hwhole : (loadSegment fw i (phdrAt phdrs i) r).value.1 = true) :
    reached fw ehdr phdrs i r (k + 1) =
      reached fw ehdr phdrs (i + 1) (loadSegment fw i (phdrAt phdrs i) r).value.2 k := by
  show (if i < _ then _ else _) = _
  rw [if_pos hlt]
  dsimp only
  rw [if_pos hwhole]

theorem loadsAt_succ {k : Nat} (hlt : i < (Elf64Ehdr.at r.memory ehdr).ePhnum.toNat)
    (hwhole : (loadSegment fw i (phdrAt phdrs i) r).value.1 = true) :
    LoadsAt fw ehdr phdrs i r (k + 1) p ↔
      LoadsAt fw ehdr phdrs (i + 1) (loadSegment fw i (phdrAt phdrs i) r).value.2 k p := by
  unfold LoadsAt
  rw [reached_succ hlt hwhole, Nat.add_right_comm i 1 k, Nat.add_assoc i k 1]

/-- No turn is reached past the last header. -/
theorem reached_none {k : Nat} (hlast : ¬ i < (Elf64Ehdr.at r.memory ehdr).ePhnum.toNat) :
    reached fw ehdr phdrs i r k = none := by
  cases k with
  | zero => exact if_neg hlast
  | succ k => exact if_neg hlast

/-- The loop goes through when every turn that it reaches is whole. -/
theorem loadSegments_true_iff :
    (loadSegments fw ehdr phdrs n i r).value.1 = true ↔
      ∀ k < n, ∀ u, reached fw ehdr phdrs i r k = some u →
        (loadSegment fw (i + k) (phdrAt phdrs (i + k)) u).value.1 = true := by
  induction n generalizing i r with
  | zero => exact iff_of_true rfl fun k hk => absurd hk (Nat.not_lt_zero k)
  | succ n ih =>
    unfold loadSegments
    by_cases hlt : i < (Elf64Ehdr.at r.memory ehdr).ePhnum.toNat
    · have hfirst : reached fw ehdr phdrs i r 0 = some r := if_pos hlt
      rw [if_pos hlt, Traced.value_bind]
      dsimp only
      by_cases hwhole : (loadSegment fw i (phdrAt phdrs i) r).value.1 = true
      · rw [if_pos hwhole, ih]
        constructor
        · intro hrest k hk u hu
          cases k with
          | zero =>
            cases hfirst.symm.trans hu
            exact hwhole
          | succ k =>
            rw [reached_succ hlt hwhole] at hu
            have hturn := hrest k (by omega) u hu
            rwa [Nat.add_right_comm, Nat.add_assoc] at hturn
        · intro hall k hk u hu
          have hturn := hall (k + 1) (by omega) u ((reached_succ hlt hwhole).trans hu)
          rwa [Nat.add_right_comm, Nat.add_assoc]
      · rw [if_neg hwhole]
        refine iff_of_false (by simp) fun hall => hwhole ?_
        exact hall 0 (Nat.succ_pos n) r hfirst
    · rw [if_neg hlt]
      refine iff_of_true rfl fun k _ u hu => ?_
      rw [reached_none hlt] at hu
      exact absurd hu (by simp)

/-- A whole turn over a `PT_LOAD` header enters the header it ends with into the hull; another changes nothing. -/
theorem loadSegment_hull (hwhole : (loadSegment fw i phdr r).value.1 = true) :
    let r' := (loadSegment fw i phdr r).value.2
    let q := Elf64Phdr.at r'.memory phdr
    ((Elf64Phdr.at r.memory phdr).pType = PT_LOAD ∧
        r'.minAddr = (if q.pVaddr < r.minAddr then q.pVaddr else r.minAddr) ∧
        r'.maxAddr = (if q.pVaddr + q.pMemsz > r.maxAddr then q.pVaddr + q.pMemsz else r.maxAddr)) ∨
      ((Elf64Phdr.at r.memory phdr).pType ≠ PT_LOAD ∧ r' = r) := by
  intro r' q
  by_cases htype : (Elf64Phdr.at r.memory phdr).pType = PT_LOAD
  · left
    have hturn : ∃ t : State, r' = Segments.enter { r with toState := t } (Elf64Phdr.at t.memory phdr) := by
      show ∃ t : State, (loadSegment fw i phdr r).value.2 = _
      unfold loadSegment at hwhole ⊢
      rw [if_neg (not_not_intro htype), Traced.value_bind] at hwhole ⊢
      dsimp only at hwhole ⊢
      by_cases hread : (readSegment fw i phdr r.toState).value.1 = true
      · rw [if_neg (by simp [hread]), Traced.value_bind]
        exact ⟨_, rfl⟩
      · rw [if_pos (by simp [hread])] at hwhole
        exact absurd hwhole (by simp)
    obtain ⟨t, ht⟩ := hturn
    have hmemory : r'.memory = t.memory := by rw [ht]; rfl
    have hq : q = Elf64Phdr.at t.memory phdr := congrArg (Elf64Phdr.at · phdr) hmemory
    rw [hq, ht]
    generalize Elf64Phdr.at t.memory phdr = p
    exact ⟨htype, rfl, rfl⟩
  · right
    refine ⟨htype, ?_⟩
    show (loadSegment fw i phdr r).value.2 = r
    unfold loadSegment
    rw [if_pos htype]
    rfl

/-- **The hull** that the loop computes: no segment starts below it or ends above it, and it ends where it did before
    or with a segment. The ends are those of 64-bit addition. -/
theorem loadSegments_hull (hwhole : (loadSegments fw ehdr phdrs n i r).value.1 = true) :
    let r' := (loadSegments fw ehdr phdrs n i r).value.2
    r'.minAddr.toNat ≤ r.minAddr.toNat ∧ r.maxAddr.toNat ≤ r'.maxAddr.toNat ∧
      (∀ k < n, ∀ p, LoadsAt fw ehdr phdrs i r k p →
        r'.minAddr.toNat ≤ p.pVaddr.toNat ∧ (p.pVaddr + p.pMemsz).toNat ≤ r'.maxAddr.toNat) ∧
      (r'.maxAddr = r.maxAddr ∨ ∃ k < n, ∃ p, LoadsAt fw ehdr phdrs i r k p ∧ r'.maxAddr = p.pVaddr + p.pMemsz) := by
  induction n generalizing i r with
  | zero => exact ⟨Nat.le_refl _, Nat.le_refl _, fun k hk => absurd hk (Nat.not_lt_zero k), Or.inl rfl⟩
  | succ n ih =>
    unfold loadSegments at hwhole ⊢
    by_cases hlt : i < (Elf64Ehdr.at r.memory ehdr).ePhnum.toNat
    · have hfirst : reached fw ehdr phdrs i r 0 = some r := if_pos hlt
      rw [if_pos hlt, Traced.value_bind] at hwhole ⊢
      dsimp only at hwhole ⊢
      by_cases hturn : (loadSegment fw i (phdrAt phdrs i) r).value.1 = true
      · rw [if_pos hturn] at hwhole ⊢
        obtain ⟨hmin, hmax, hbounds, hlast⟩ := ih hwhole
        have hhull := loadSegment_hull hturn
        dsimp only at hhull
        -- what the first turn does to the hull
        have hstep : (loadSegment fw i (phdrAt phdrs i) r).value.2.minAddr.toNat ≤ r.minAddr.toNat ∧
            r.maxAddr.toNat ≤ (loadSegment fw i (phdrAt phdrs i) r).value.2.maxAddr.toNat := by
          rcases hhull with ⟨-, hlo, hhi⟩ | ⟨-, hsame⟩
          · rw [hlo, hhi]
            constructor
            · split
              · rename_i hless
                exact Nat.le_of_lt (UInt64.lt_iff_toNat_lt.mp hless)
              · exact Nat.le_refl _
            · split
              · rename_i hmore
                exact Nat.le_of_lt (UInt64.lt_iff_toNat_lt.mp hmore)
              · exact Nat.le_refl _
          · rw [hsame]
            exact ⟨Nat.le_refl _, Nat.le_refl _⟩
        refine ⟨hmin.trans hstep.1, hstep.2.trans hmax, fun k hk p hp => ?_, ?_⟩
        · cases k with
          | zero =>
            obtain ⟨u, hu, htype, -, rfl⟩ := hp
            cases hfirst.symm.trans hu
            rcases hhull with ⟨-, hlo, hhi⟩ | ⟨hother, -⟩
            · constructor
              · refine hmin.trans ?_
                rw [hlo]
                split
                · exact Nat.le_refl _
                · rename_i hnot
                  exact UInt64.le_iff_toNat_le.mp (UInt64.not_lt.mp hnot)
              · refine le_trans ?_ hmax
                rw [hhi]
                split
                · exact Nat.le_refl _
                · rename_i hnot
                  exact UInt64.le_iff_toNat_le.mp (UInt64.not_lt.mp hnot)
            · exact absurd htype hother
          | succ k => exact hbounds k (by omega) p ((loadsAt_succ hlt hturn).mp hp)
        · rcases hlast with hsame | ⟨k, hk, p, hp, hmaxp⟩
          · rcases hhull with ⟨htype, -, hhi⟩ | ⟨-, hunchanged⟩
            · -- the first turn may be the one that sets the end
              rw [hsame, hhi]
              split
              · exact Or.inr ⟨0, Nat.succ_pos n, _, ⟨r, hfirst, htype, hturn, rfl⟩, rfl⟩
              · exact Or.inl rfl
            · left
              rw [hsame, hunchanged]
          · exact Or.inr ⟨k + 1, by omega, p, (loadsAt_succ hlt hturn).mpr hp, hmaxp⟩
      · rw [if_neg hturn] at hwhole
        exact absurd hwhole (by simp)
    · rw [if_neg hlt]
      refine ⟨Nat.le_refl _, Nat.le_refl _, fun k _ p hp => ?_, Or.inl rfl⟩
      obtain ⟨u, hu, -⟩ := hp
      rw [reached_none hlt] at hu
      exact absurd hu (by simp)

/-! ## `Load` -/

/-- `Load` returns true when the segment loop goes through; the entry point is the one in the header. -/
theorem load_value_true :
    ((load fw ehdr loader m).value.1 = true ↔ ∃ phdrs s, segmentsStart fw ehdr m = some (phdrs, s) ∧
      (loadSegments fw ehdr phdrs maxTurns 0 { toState := s }).value.1 = true) ∧
    ((load fw ehdr loader m).value.1 = true → (load fw ehdr loader m).value.2.1.mEntryPoint = entryOf fw ehdr m) := by
  unfold load segmentsStart entryOf
  rw [Traced.value_bind]
  generalize (readEhdr fw ehdr { memory := m }).value = opened
  obtain ⟨opened, u⟩ := opened
  dsimp only
  cases opened with
  | false =>
    refine ⟨iff_of_false (by simp) ?_, fun h => absurd h (by simp)⟩
    rintro ⟨phdrs, s, hstart, -⟩
    exact absurd hstart (by simp)
  | true =>
    rw [if_neg (by simp), if_neg (by simp), Traced.value_bind]
    generalize (readPhdrs fw ehdr u).value = table
    obtain ⟨table, t⟩ := table
    cases table with
    | none =>
      refine ⟨iff_of_false (by simp) ?_, fun h => absurd h (by simp)⟩
      rintro ⟨phdrs, s, hstart, -⟩
      exact absurd hstart (by simp)
    | some block =>
      dsimp only
      rw [Traced.value_bind]
      have hstart : (∃ phdrs s, some (block, t) = some (phdrs, s) ∧
          (loadSegments fw ehdr phdrs maxTurns 0 { toState := s }).value.1 = true) ↔
          (loadSegments fw ehdr block maxTurns 0 { toState := t }).value.1 = true := by
        constructor
        · rintro ⟨phdrs, s, heq, hwhole⟩
          cases heq
          exact hwhole
        · exact fun hwhole => ⟨block, t, rfl, hwhole⟩
      rw [hstart]
      generalize (loadSegments fw ehdr block maxTurns 0 { toState := t }).value = segments
      obtain ⟨whole, segments⟩ := segments
      dsimp only
      cases whole with
      | false => exact ⟨iff_of_false (by simp) (by simp), fun h => absurd h (by simp)⟩
      | true => exact ⟨iff_of_true rfl rfl, fun _ => rfl⟩

/-- **When `Load` returns true.** -/
theorem load_true_iff : (load fw ehdr loader m).value.1 = true ↔ Completes fw ehdr m := by
  rw [load_value_true.1]
  unfold Completes
  constructor
  · rintro ⟨phdrs, s, hstart, hwhole⟩
    refine ⟨phdrs, s, hstart, fun k u hu => ?_⟩
    have hturn := loadSegments_true_iff.mp hwhole k (reached_lt_maxTurns hu) u hu
    rwa [Nat.zero_add] at hturn
  · rintro ⟨phdrs, s, hstart, hturns⟩
    refine ⟨phdrs, s, hstart, loadSegments_true_iff.mpr fun k _ u hu => ?_⟩
    rw [Nat.zero_add]
    exact hturns k u hu

/-- What a successful `Load` hands over, next to the segments that it loaded. -/
theorem load_hull (hload : (load fw ehdr loader m).value.1 = true) :
    ∃ minAddr maxAddr : UInt64, (load fw ehdr loader m).value.2.1.mKernelBase = minAddr ∧
      (load fw ehdr loader m).value.2.1.mKernelSize = maxAddr - minAddr ∧
      (∀ p, Loads fw ehdr m p →
        minAddr.toNat ≤ p.pVaddr.toNat ∧ (p.pVaddr + p.pMemsz).toNat ≤ maxAddr.toNat) ∧
      (maxAddr = 0 ∨ ∃ p, Loads fw ehdr m p ∧ maxAddr = p.pVaddr + p.pMemsz) := by
  obtain ⟨phdrs, s, hstart, -⟩ := load_value_true.1.mp hload
  obtain ⟨hwhole, hbase, hsize⟩ := load_of_start hstart hload
  obtain ⟨-, -, hbounds, hlast⟩ := loadSegments_hull hwhole
  refine ⟨_, _, hbase, hsize, ?_, ?_⟩
  · rintro p ⟨phdrs', s', k, hstart', hp⟩
    cases hstart.symm.trans hstart'
    obtain ⟨u, hu, -⟩ := id hp
    exact hbounds k (reached_lt_maxTurns hu) p hp
  · rcases hlast with hzero | ⟨k, -, p, hp, hmax⟩
    · exact Or.inl hzero
    · exact Or.inr ⟨p, ⟨phdrs, s, k, hstart, hp⟩, hmax⟩

/-- With no segment that wraps, base and size are real as soon as there is a segment. -/
theorem load_stop (hload : (load fw ehdr loader m).value.1 = true) (hsome : ∃ p, Loads fw ehdr m p)
    (hfits : ∀ p, Loads fw ehdr m p → p.stop < 2 ^ 64) :
    let loaded := (load fw ehdr loader m).value.2.1
    IsGreatest {e | ∃ p, Loads fw ehdr m p ∧ e = p.stop}
      (loaded.mKernelBase.toNat + loaded.mKernelSize.toNat) ∧
    loaded.mKernelBase.toNat + loaded.mKernelSize.toNat < 2 ^ 64 := by
  obtain ⟨minAddr, maxAddr, hbase, hsize, hbounds, hlast⟩ := load_hull hload
  obtain ⟨q, hq⟩ := hsome
  have hend : ∀ p, Loads fw ehdr m p → (p.pVaddr + p.pMemsz).toNat = p.stop := by
    intro p hp
    rw [UInt64.toNat_add]
    exact Nat.mod_eq_of_lt (hfits p hp)
  have hqbounds := hbounds q hq
  rw [hend q hq] at hqbounds
  -- the segment keeps the two ends of the hull in order
  have hle : minAddr.toNat ≤ maxAddr.toNat := by
    unfold Elf64Phdr.stop at hqbounds
    omega
  have hsum : minAddr.toNat + (maxAddr - minAddr).toNat = maxAddr.toNat := by
    rw [UInt64.toNat_sub_of_le _ _ (UInt64.le_iff_toNat_le.mpr hle)]
    omega
  dsimp only
  rw [hbase, hsize, hsum]
  refine ⟨⟨?_, ?_⟩, maxAddr.toNat_lt⟩
  · rcases hlast with hzero | ⟨p, hp, hmax⟩
    · have hnat : maxAddr.toNat = 0 := by rw [hzero]; rfl
      exact ⟨q, hq, by omega⟩
    · exact ⟨p, hp, by rw [hmax, hend p hp]⟩
  · rintro e ⟨p, hp, rfl⟩
    have hp' := (hbounds p hp).2
    rwa [hend p hp] at hp'

/-- **A successful `Load` leaves a real kernel** exactly when the file and the firmware see to what `Load` does not
    check: in every load that completes, each seek succeeds, `e_entry` lies in a segment that was loaded, and no such
    segment ends at `2 ^ 64` or past it. -/
theorem load_real_iff (fw : Firmware) (ehdr : UInt64) (loader : ElfLoader) (m : Lib.Bytes) :
    ((load fw ehdr loader m).value.1 = true → RealKernel fw ehdr m (load fw ehdr loader m).value.2.1) ↔
      (Completes fw ehdr m →
        (∀ c position, Seeks fw ehdr m c position → (fw.seek c position).success = true) ∧
        (∃ p, Loads fw ehdr m p ∧ p.Holds (entryOf fw ehdr m)) ∧
        ∀ p, Loads fw ehdr m p → p.stop < 2 ^ 64) := by
  have htrue : (load fw ehdr loader m).value.1 = true ↔ Completes fw ehdr m := load_true_iff
  rw [← htrue]
  constructor
  · intro hreal hload
    obtain ⟨-, hseeks, hentry, hstop, hfits⟩ := hreal hload
    rw [load_value_true.2 hload] at hentry
    refine ⟨hseeks, hentry, fun p hp => ?_⟩
    exact Nat.lt_of_le_of_lt (hstop.2 ⟨p, hp, rfl⟩) hfits
  · intro hcond hload
    obtain ⟨hseeks, ⟨p, hp, hin⟩, hfits⟩ := hcond hload
    obtain ⟨hstop, hbelow⟩ := load_stop hload ⟨p, hp⟩ hfits
    refine ⟨⟨p, hp⟩, hseeks, ⟨p, hp, ?_⟩, hstop, hbelow⟩
    rw [load_value_true.2 hload]
    exact hin

/-! ## A kernel without segments -/

/-- An accepted header, and one program header that is not `PT_LOAD`. -/
def noSegments : Lib.Bytes := fun a =>
  match a.toNat with
  | 0  => 0x7F
  | 1  => 0x45
  | 2  => 0x4C
  | 3  => 0x46
  | 4  => 2
  | 5  => 1
  | 16 => 2
  | 18 => 62
  | 32 => 64
  | 56 => 1
  | 64 => 4
  | _  => 0

def noSegmentsStart : State :=
  (readPhdrs (reliable noSegments 0x9000) 0x8000
    (readEhdr (reliable noSegments 0x9000) 0x8000 { memory := fun _ => 0 }).value.2).value.2

/-- `Load` returns true, has loaded nothing, and hands over one byte at the top of the address space. -/
theorem noSegments_loads :
    let result := (load (reliable noSegments 0x9000) 0x8000 {} fun _ => 0).value
    result.1 = true ∧ (¬ ∃ p, Loads (reliable noSegments 0x9000) 0x8000 (fun _ => 0) p) ∧
      result.2.1.mKernelBase = 0xFFFFFFFFFFFFFFFF ∧ result.2.1.mKernelSize = 1 := by
  have hstart : segmentsStart (reliable noSegments 0x9000) 0x8000 (fun _ => 0) = some (0x9000, noSegmentsStart) :=
    segmentsStart_eq (by decide +kernel) (by decide +kernel)
  have hnum : (Elf64Ehdr.at noSegmentsStart.memory 0x8000).ePhnum.toNat = 1 := by decide +kernel
  have htype : (Elf64Phdr.at noSegmentsStart.memory (phdrAt 0x9000 0)).pType ≠ PT_LOAD := by decide +kernel
  refine ⟨by decide +kernel, ?_, by decide +kernel, by decide +kernel⟩
  rintro ⟨p, phdrs, s, k, hstart', u, hu, hload, -⟩
  cases hstart.symm.trans hstart'
  rw [Nat.zero_add] at hload
  -- the one header is passed over, and there is no second turn
  have hturn : (loadSegment (reliable noSegments 0x9000) 0 (phdrAt 0x9000 0) { toState := noSegmentsStart }).value =
      (true, { toState := noSegmentsStart }) := by
    unfold loadSegment
    rw [if_pos htype]
    rfl
  cases k with
  | zero =>
    have hfirst : reached (reliable noSegments 0x9000) 0x8000 0x9000 0 { toState := noSegmentsStart } 0
        = some { toState := noSegmentsStart } := if_pos (by rw [hnum]; decide)
    cases hfirst.symm.trans hu
    exact htype hload
  | succ k =>
    rw [reached_succ (by rw [hnum]; decide) (by rw [hturn]), hturn, reached_none (by rw [hnum]; decide)] at hu
    exact absurd hu (by simp)

end ElfLoader
end UefiBoot
