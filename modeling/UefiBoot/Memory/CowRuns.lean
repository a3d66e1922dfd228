import UefiBoot.Lib.Run
import UefiBoot.Memory.CopyOnWrite

/-!
# `Memory.CowRuns` — accounting and isolation of shared frames over whole runs

A run starts from an initialised allocator and an initialised table and mixes the four operations with
allocations by others and with writes of any byte. Next to the table the state counts what the operations
returned: successful allocations, successful clones, releases of tracked frames. `step_cases` says what each
action does in the terms of `Effect`; `Accounted` holds in every state and `Guarantee` of every step.
-/

namespace UefiBoot
namespace CopyOnWriteManager

/-- The table and physical memory, and how often the operations have succeeded. -/
structure Run where
  cow         : CopyOnWriteManager
  phys        : Physical
  allocations : Nat := 0
  clones      : Nat := 0
  releases    : Nat := 0

inductive Action where
  | allocatePage
  | clonePage (physical : UInt64)
  | resolveWrite (physical : UInt64)
  | releasePage (physical : UInt64)
  /-- Somebody else calls `AllocateAligned`. -/
  | otherAllocate (pageCount alignmentPages : UInt64)
  /-- Somebody writes a byte. -/
  | write (address : UInt64) (value : UInt8)
  deriving DecidableEq, Repr

namespace Run

/-- The allocator after its `Init`, and the table after its own. -/
def start (m : CopyOnWriteManager) (pmm : PhysicalMemoryManager) (image : KernelImage) (boot : BootInfo)
    (bytes : Lib.Bytes) : Run :=
  { cow := m.init, phys := { pmm := (pmm.init image boot bytes).2, bytes := bytes } }

def step (s : Run) : Action → Run
  | .allocatePage =>
    { s with
      cow := (s.cow.allocatePage s.phys).2.1
      phys := (s.cow.allocatePage s.phys).2.2
      allocations := if (s.cow.allocatePage s.phys).1 = 0 then s.allocations else s.allocations + 1 }
  | .clonePage physical =>
    { s with
      cow := (s.cow.clonePage physical).2
      clones := if (s.cow.clonePage physical).1 then s.clones + 1 else s.clones }
  | .resolveWrite physical =>
    { s with
      cow := (s.cow.resolveWrite physical s.phys).2.1
      phys := (s.cow.resolveWrite physical s.phys).2.2 }
  | .releasePage physical =>
    { s with
      cow := (s.cow.releasePage physical s.phys).1
      phys := (s.cow.releasePage physical s.phys).2
      releases := if (s.cow.findPage physical).isSome then s.releases + 1 else s.releases }
  | .otherAllocate pageCount alignmentPages =>
    { s with phys := { s.phys with pmm := (s.phys.pmm.allocateAligned pageCount alignmentPages).2 } }
  | .write address value =>
    { s with phys := { s.phys with bytes := Function.update s.phys.bytes address value } }

/-! ## What the claims say -/

/-- **The table's accounts.** Active entries track distinct frames and have an owner each, and the owners are
    those that allocations and clones made and releases have not taken away. -/
structure Accounted (s : Run) : Prop where
  distinct : ∀ i j, (s.cow.mPages i).active = true → (s.cow.mPages j).active = true →
    (s.cow.mPages i).physical = (s.cow.mPages j).physical → i = j
  positive : ∀ i, (s.cow.mPages i).active = true → 1 ≤ (s.cow.mPages i).references
  balance  : s.cow.totalOwners + s.releases = s.allocations + s.clones

/-- **What one step guarantees.** -/
structure Guarantee (s : Run) (a : Action) : Prop where
  /-- A page becomes free exactly when the last reference to its frame is released. -/
  freed : ∀ page, Freed s.phys.pmm (s.step a).phys.pmm page ↔
    ∃ physical i, a = .releasePage physical ∧ s.cow.findPage physical = some i ∧
      (s.cow.mPages i).references = 1 ∧ page = pageOf physical
  /-- A write to a shared frame that succeeds gives another frame with the same bytes. -/
  isolated : ∀ physical, a = .resolveWrite physical → 1 < s.cow.referenceCount physical →
    (s.cow.resolveWrite physical s.phys).1 ≠ 0 →
    (s.cow.resolveWrite physical s.phys).1 ≠ physical ∧ ∀ k < kPageSize.toNat,
      (s.step a).phys.bytes ((s.cow.resolveWrite physical s.phys).1 + UInt64.ofNat k)
        = s.phys.bytes (physical + UInt64.ofNat k) ∧
      (s.step a).phys.bytes (physical + UInt64.ofNat k) = s.phys.bytes (physical + UInt64.ofNat k)
  /-- `ResolveWrite` conserves the owners. -/
  conserved : ∀ physical, a = .resolveWrite physical → (s.step a).cow.totalOwners = s.cow.totalOwners
  /-- A failed `AllocatePage` changes neither the table nor the allocator. -/
  allocateFails : a = .allocatePage → (s.cow.allocatePage s.phys).1 = 0 →
    (s.step a).cow = s.cow ∧ (s.step a).phys.pmm = s.phys.pmm
  /-- Nor does a failed `ResolveWrite`. -/
  resolveFails : ∀ physical, a = .resolveWrite physical → (s.cow.resolveWrite physical s.phys).1 = 0 →
    (s.step a).cow = s.cow ∧ (s.step a).phys.pmm = s.phys.pmm

/-! ## One step -/

/-- The invariant of the run. -/
structure Good (s : Run) : Prop where
  inv     : Inv s.cow s.phys
  balance : s.cow.totalOwners + s.releases = s.allocations + s.clones

variable {s : Run}

/-- An allocation by somebody else takes frames that nobody had. -/
theorem inv_otherAllocate (h : Inv s.cow s.phys) (pageCount alignmentPages : UInt64) :
    Inv s.cow { s.phys with pmm := (s.phys.pmm.allocateAligned pageCount alignmentPages).2 } := by
  refine ⟨h.ready.allocateAligned _ _, ?_, h.positive⟩
  exact frameLedger_others h.sound fun _ ha => PhysicalMemoryManager.taken_allocateAligned ha _ _

theorem not_freed_otherAllocate (pmm : PhysicalMemoryManager) (pageCount alignmentPages : UInt64) (page : Nat) :
    ¬ Freed pmm (pmm.allocateAligned pageCount alignmentPages).2 page := by
  rcases PhysicalMemoryManager.allocateAligned_cases pmm pageCount alignmentPages with
    ⟨-, hres⟩ | ⟨first, -, -, -, htakes⟩
  · rw [hres]
    exact not_freed_self _ page
  · rintro ⟨hused, hfree⟩
    rw [htakes.pages, hused, ite_self] at hfree
    exact absurd hfree (by simp)

/-- **Step lemma.** -/
theorem Good.step (h : Good s) (a : Action) : Good (s.step a) := by
  obtain ⟨hinv, hbalance⟩ := h
  cases a with
  | allocatePage =>
      rcases allocatePage_effect hinv.ready s.cow with hfail | ⟨hnz, heff⟩
      · unfold Run.step
        simp only [hfail, if_true]
        exact ⟨hinv, hbalance⟩
      · have htotal := heff.totalOwners
        change _ + 0 = _ + 1 at htotal
        refine ⟨heff.inv hinv, ?_⟩
        unfold Run.step
        simp only [if_neg hnz]
        omega
  | clonePage physical =>
      rcases clonePage_effect s.cow s.phys physical with hfail | ⟨hok, heff⟩
      · unfold Run.step
        simp only [hfail, Bool.false_eq_true, if_false]
        exact ⟨hinv, hbalance⟩
      · have htotal := heff.totalOwners
        change _ + 0 = _ + 1 at htotal
        refine ⟨heff.inv hinv, ?_⟩
        unfold Run.step
        simp only [if_pos hok]
        omega
  | resolveWrite physical =>
      rcases resolveWrite_effect hinv.ready s.cow physical with hfail | ⟨i, -, -, hsole⟩ | ⟨i, -, -, heff⟩
      · unfold Run.step
        simp only [hfail]
        exact ⟨hinv, hbalance⟩
      · unfold Run.step
        simp only [hsole]
        exact ⟨hinv, hbalance⟩
      · have htotal := heff.totalOwners
        change _ + 0 = _ + 0 at htotal
        refine ⟨heff.inv hinv, ?_⟩
        unfold Run.step
        simp only
        omega
  | releasePage physical =>
      rcases releasePage_effect hinv physical with ⟨hnone, hsame⟩ | ⟨i, hfind, ⟨-, heff⟩ | ⟨-, heff⟩⟩
      · unfold Run.step
        simp only [hsame, hnone, Option.isSome_none, Bool.false_eq_true, if_false]
        exact ⟨hinv, hbalance⟩
      · have htotal := heff.totalOwners
        change _ + 1 = _ + 0 at htotal
        refine ⟨heff.inv hinv, ?_⟩
        unfold Run.step
        simp only [hfind, Option.isSome_some, if_true]
        omega
      · have htotal := heff.totalOwners
        change _ + 1 = _ + 0 at htotal
        refine ⟨heff.inv hinv, ?_⟩
        unfold Run.step
        simp only [hfind, Option.isSome_some, if_true]
        omega
  | otherAllocate pageCount alignmentPages =>
      exact ⟨inv_otherAllocate hinv pageCount alignmentPages, hbalance⟩
  | write address value => exact ⟨⟨hinv.ready, hinv.sound, hinv.positive⟩, hbalance⟩

theorem Good.accounted (h : Good s) : Accounted s := by
  refine ⟨fun i j hi hj heq => ?_, fun i hi => ?_, h.balance⟩
  · have hheld : (s.cow.ledger s.phys).holds j = some (s.cow.mPages i).physical := by
      rw [heq]
      exact frame_active hj
    exact h.inv.sound.unique (frame_active hi) hheld
  · have hne := h.inv.positive i hi
    rw [UInt16.le_iff_toNat_le]
    have h0 : (s.cow.mPages i).references.toNat ≠ 0 := fun hz => hne (UInt16.toNat_inj.mp hz)
    show 1 ≤ (s.cow.mPages i).references.toNat
    omega

/-- The pages that a step frees. -/
theorem Good.freed_iff (h : Good s) (a : Action) (page : Nat) :
    Freed s.phys.pmm (s.step a).phys.pmm page ↔
      ∃ physical i, a = .releasePage physical ∧ s.cow.findPage physical = some i ∧
        (s.cow.mPages i).references = 1 ∧ page = pageOf physical := by
  have hinv := h.inv
  -- an action that frees nothing
  have hnever : ¬ Freed s.phys.pmm (s.step a).phys.pmm page → (∀ physical, a ≠ .releasePage physical) →
      (Freed s.phys.pmm (s.step a).phys.pmm page ↔
        ∃ physical i, a = .releasePage physical ∧ s.cow.findPage physical = some i ∧
          (s.cow.mPages i).references = 1 ∧ page = pageOf physical) := by
    intro hno hne
    refine ⟨fun hf => absurd hf hno, ?_⟩
    rintro ⟨physical, i, ha, -⟩
    exact absurd ha (hne physical)
  cases a with
  | allocatePage =>
      refine hnever ?_ fun _ => by simp
      rcases allocatePage_effect hinv.ready s.cow with hfail | ⟨-, heff⟩
      · unfold Run.step
        simp only [hfail]
        exact not_freed_self _ page
      · show ¬ Freed s.phys.pmm (s.cow.allocatePage s.phys).2.2.pmm page
        rw [heff.freed_iff hinv.sound]
        simp
  | clonePage physical => exact hnever (not_freed_self _ page) fun _ => by simp
  | resolveWrite physical =>
      refine hnever ?_ fun _ => by simp
      rcases resolveWrite_effect hinv.ready s.cow physical with hfail | ⟨i, -, -, hsole⟩ | ⟨i, -, -, heff⟩
      · unfold Run.step
        simp only [hfail]
        exact not_freed_self _ page
      · unfold Run.step
        simp only [hsole]
        exact not_freed_self _ page
      · show ¬ Freed s.phys.pmm (s.cow.resolveWrite physical s.phys).2.2.pmm page
        rw [heff.freed_iff hinv.sound]
        simp
  | releasePage physical =>
      show Freed s.phys.pmm (s.cow.releasePage physical s.phys).2.pmm page ↔ _
      rcases releasePage_effect hinv physical with ⟨hnone, hsame⟩ | ⟨i, hfind, ⟨hshared, heff⟩ | ⟨hlast, heff⟩⟩
      · rw [hsame]
        refine ⟨fun hf => absurd hf (not_freed_self _ page), ?_⟩
        rintro ⟨b, i, hb, hfind, -⟩
        obtain rfl : physical = b := by simpa using hb
        rw [hnone] at hfind
        exact absurd hfind (by simp)
      · rw [heff.freed_iff hinv.sound]
        constructor
        · rintro ⟨b, hb, -⟩
          exact absurd hb (by simp)
        · rintro ⟨b, j, hb, hfind', hlast, -⟩
          obtain rfl : physical = b := by simpa using hb
          rw [hfind] at hfind'
          obtain rfl := Option.some.inj hfind'
          rw [hlast] at hshared
          exact absurd hshared (by decide)
      · rw [heff.freed_iff hinv.sound]
        constructor
        · rintro ⟨b, hb, hpage⟩
          obtain rfl : physical = b := by simpa using hb
          exact ⟨physical, i, rfl, hfind, hlast, hpage⟩
        · rintro ⟨b, j, hb, -, -, hpage⟩
          obtain rfl : physical = b := by simpa using hb
          exact ⟨physical, rfl, hpage⟩
  | otherAllocate pageCount alignmentPages =>
      exact hnever (not_freed_otherAllocate _ _ _ page) fun _ => by simp
  | write address value => exact hnever (not_freed_self _ page) fun _ => by simp

theorem Good.guarantee (h : Good s) (a : Action) : Guarantee s a := by
  have hinv := h.inv
  refine ⟨h.freed_iff a, ?_, ?_, ?_, ?_⟩
  · rintro physical rfl hshared hnz
    show _ ∧ ∀ k < kPageSize.toNat, (s.cow.resolveWrite physical s.phys).2.2.bytes _ = _ ∧
      (s.cow.resolveWrite physical s.phys).2.2.bytes _ = _
    rcases resolveWrite_effect hinv.ready s.cow physical with hfail | ⟨i, hfind, hsole, -⟩ | ⟨i, hfind, -, heff⟩
    · rw [hfail] at hnz
      exact absurd rfl hnz
    · unfold referenceCount at hshared
      rw [hfind] at hshared
      exact absurd hshared (UInt16.not_lt.mpr hsole)
    · have hiso := heff.isolated hinv.sound
      rw [(findPage_some hfind).2] at hiso
      exact hiso
  · rintro physical rfl
    show (s.cow.resolveWrite physical s.phys).2.1.totalOwners = _
    rcases resolveWrite_effect hinv.ready s.cow physical with hfail | ⟨i, -, -, hsole⟩ | ⟨i, -, -, heff⟩
    · rw [hfail]
    · rw [hsole]
    · have htotal := heff.totalOwners
      change _ + 0 = _ + 0 at htotal
      rw [Nat.add_zero, Nat.add_zero] at htotal
      exact htotal
  · rintro rfl hz
    show (s.cow.allocatePage s.phys).2.1 = _ ∧ (s.cow.allocatePage s.phys).2.2.pmm = _
    rcases allocatePage_effect hinv.ready s.cow with hfail | ⟨hnz, -⟩
    · rw [hfail]
      exact ⟨rfl, rfl⟩
    · exact absurd hz hnz
  · rintro physical rfl hz
    show (s.cow.resolveWrite physical s.phys).2.1 = _ ∧ (s.cow.resolveWrite physical s.phys).2.2.pmm = _
    rcases resolveWrite_effect hinv.ready s.cow physical with hfail | ⟨i, -, -, hsole⟩ | ⟨i, -, hnz, -⟩
    · rw [hfail]
      exact ⟨rfl, rfl⟩
    · rw [hsole]
      exact ⟨rfl, rfl⟩
    · exact absurd hz hnz

/-! ## Every run -/

theorem good_start (m : CopyOnWriteManager) (pmm : PhysicalMemoryManager) (image : KernelImage)
    {boot : BootInfo} (bytes : Lib.Bytes) (hb : PhysicalMemoryManager.Accepts boot) :
    Good (start m pmm image boot bytes) := by
  have hready := PhysicalMemoryManager.ready_init pmm image bytes hb
  constructor
  · refine ⟨hready, frameLedger_empty (fun _ => rfl) hready, ?_⟩
    intro i hactive
    exact absurd hactive Bool.false_ne_true
  · have hzero : (start m pmm image boot bytes).cow.totalOwners = 0 := by
      unfold totalOwners
      apply Finset.sum_eq_zero
      intro i _
      rfl
    rw [hzero]
    rfl

/-- **Copy on write.** From the initialised allocator and table, whatever is called in whatever order: the
    accounts balance in every state, and every step gives its guarantee. -/
theorem accounted_and_isolated (m : CopyOnWriteManager) (pmm : PhysicalMemoryManager) (image : KernelImage)
    (boot : BootInfo) (bytes : Lib.Bytes) (hb : PhysicalMemoryManager.Accepts boot) (as : List Action) :
    Lib.Throughout step Accounted (start m pmm image boot bytes) as ∧
    Lib.Along step Guarantee (start m pmm image boot bytes) as := by
  have hstart := good_start m pmm image bytes hb
  constructor
  · apply Lib.Throughout.mono fun _ h => Good.accounted h
    exact Lib.throughout_of_invariant (fun _ a h => h.step a) hstart as
  · exact Lib.along_of_invariant (fun _ a h => h.step a) (fun _ a h => h.guarantee a) hstart as

/-- An allocation, a clone, a split and both releases, with somebody else's allocation in between. -/
theorem accounted_and_isolated_split :
    let boot : BootInfo := ⟨{}, ⟨0x90000, 48, 48⟩, 0x200000, 0x10000⟩
    let image : KernelImage := ⟨0x300000, 0x320000, 0x321000, 0x322000⟩
    let as : List Action :=
      [.allocatePage, .clonePage 0x100000, .otherAllocate 2 1, .resolveWrite 0x100000,
       .releasePage 0x100000, .releasePage 0x103000, .releasePage 0x103000]
    Lib.Throughout step Accounted (start {} {} image boot fun _ => 0) as ∧
    Lib.Along step Guarantee (start {} {} image boot fun _ => 0) as :=
  accounted_and_isolated _ _ _ _ _ (by decide) _

end Run
end CopyOnWriteManager
end UefiBoot
