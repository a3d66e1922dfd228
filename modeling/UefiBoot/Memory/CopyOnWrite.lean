import UefiBoot.Lib.Select
import UefiBoot.Memory.Frames

/-!
# `Memory.CopyOnWrite` — `CopyOnWriteManager`, shared frames with reference counts

An active entry of the table tracks one frame and how many owners share it. `ClonePage` adds an owner,
`ResolveWrite` gives one owner a private copy, `ReleasePage` takes one away and frees the frame with the last.
`Effect` lists everything an operation can do, once; the accounting of the table, the frames the table owns
and the isolation of the copies are each read off that list.
-/

namespace UefiBoot

structure CowPage where
  physical   : UInt64 := 0
  references : UInt16 := 0
  active     : Bool := false
  deriving DecidableEq, Repr

/-- The entry with another count. -/
@[simps] def CowPage.withReferences (page : CowPage) (references : UInt16) : CowPage := { page with references }

/-- The frame an entry tracks. -/
def CowPage.frame (page : CowPage) : Option UInt64 := if page.active then some page.physical else none

/-- How many owners an entry counts. -/
def CowPage.owners (page : CowPage) : Nat := if page.active then page.references.toNat else 0

/-- `mPhysicalMemory` says whether the pointer to the allocator has been set. -/
structure CopyOnWriteManager where
  mPhysicalMemory : Bool := false
  mPages          : Fin kCowTrackedPages → CowPage := fun _ => {}

namespace CopyOnWriteManager

def init (_m : CopyOnWriteManager) : CopyOnWriteManager :=
  { mPhysicalMemory := true, mPages := fun _ => { physical := 0, references := 0, active := false } }

def findFreeSlot (m : CopyOnWriteManager) : Option (Fin kCowTrackedPages) :=
  Lib.firstSlot fun i => !(m.mPages i).active

def findPage (m : CopyOnWriteManager) (physical : UInt64) : Option (Fin kCowTrackedPages) :=
  Lib.firstSlot fun i => (m.mPages i).active && (m.mPages i).physical == physical

/-- Write one entry of the table. -/
@[simps] def setPage (m : CopyOnWriteManager) (i : Fin kCowTrackedPages) (page : CowPage) :
    CopyOnWriteManager := { m with mPages := Function.update m.mPages i page }

def allocatePage (m : CopyOnWriteManager) (p : Physical) : UInt64 × CopyOnWriteManager × Physical :=
  match m.findFreeSlot with
  | none      => (0, m, p)
  | some slot =>
    if !m.mPhysicalMemory then (0, m, p)
    else
      let (physical, p) := p.allocatePage
      if physical = 0 then (0, m, p)
      else
        (physical, m.setPage slot { physical := physical, references := 1, active := true },
          p.clearPage physical)

def clonePage (m : CopyOnWriteManager) (physical : UInt64) : Bool × CopyOnWriteManager :=
  match m.findPage physical with
  | none   => (false, m)
  | some i =>
    let page := m.mPages i
    if page.references = 0xFFFF then (false, m)
    else (true, m.setPage i (page.withReferences (page.references + 1)))

def resolveWrite (m : CopyOnWriteManager) (physical : UInt64) (p : Physical) :
    UInt64 × CopyOnWriteManager × Physical :=
  match m.findPage physical with
  | none   => (0, m, p)
  | some i =>
    let page := m.mPages i
    if page.references ≤ 1 then (physical, m, p)
    else
      match m.findFreeSlot with
      | none             => (0, m, p)
      | some replacement =>
        if !m.mPhysicalMemory then (0, m, p)
        else
          let (newPhysical, p) := p.allocatePage
          if newPhysical = 0 then (0, m, p)
          else
            let m := m.setPage i (page.withReferences (page.references - 1))
            (newPhysical,
              m.setPage replacement { physical := newPhysical, references := 1, active := true },
              p.copyPage newPhysical physical)

def releasePage (m : CopyOnWriteManager) (physical : UInt64) (p : Physical) :
    CopyOnWriteManager × Physical :=
  match m.findPage physical with
  | none   => (m, p)
  | some i =>
    let page := m.mPages i
    if page.references = 0 then (m, p)
    else
      let page := page.withReferences (page.references - 1)
      if page.references = 0 then
        (m.setPage i { page with physical := 0, active := false }, p.freePage page.physical)
      else (m.setPage i page, p)

def referenceCount (m : CopyOnWriteManager) (physical : UInt64) : UInt16 :=
  match m.findPage physical with
  | none   => 0
  | some i => (m.mPages i).references

/-! ## What an operation can do -/

/-- The frames of the table, over the frames the allocator has handed out. -/
def ledger (m : CopyOnWriteManager) (p : Physical) : Lib.Ledger (Fin kCowTrackedPages) UInt64 :=
  frameLedger CowPage.frame m.mPages p.pmm

variable {m m' : CopyOnWriteManager} {p p' : Physical} {physical : UInt64} {i j : Fin kCowTrackedPages}

theorem findFreeSlot_some (h : m.findFreeSlot = some i) : (m.mPages i).active = false := by
  simpa using Lib.firstSlot_true h

theorem findPage_some (h : m.findPage physical = some i) :
    (m.mPages i).active = true ∧ (m.mPages i).physical = physical := by
  simpa using Lib.firstSlot_true h

/-- What an operation did: the frame it obtained or gave back, and the entry whose sharing it split. -/
inductive Change where
  | allocated (a : UInt64)
  | cloned
  | split (i : Fin kCowTrackedPages) (a : UInt64)
  | dropped
  | freed (a : UInt64)
  deriving DecidableEq, Repr

/-- **Everything an operation can do to the table and the allocator**, when it does something. -/
inductive Effect (m : CopyOnWriteManager) (p : Physical) :
    Change → CopyOnWriteManager → Physical → Prop
  | allocated {p' : Physical} (i : Fin kCowTrackedPages) (a : UInt64)
      (hslot : (m.mPages i).active = false) (hgrants : p.pmm.Grants p'.pmm a)
      (hbytes : p'.bytes = p.bytes.fill a kPageSize.toNat 0) :
      Effect m p (.allocated a) (m.setPage i { physical := a, references := 1, active := true }) p'
  | cloned (i : Fin kCowTrackedPages) (hactive : (m.mPages i).active = true)
      (hroom : (m.mPages i).references ≠ 0xFFFF) :
      Effect m p .cloned (m.setPage i ((m.mPages i).withReferences ((m.mPages i).references + 1))) p
  | split {p' : Physical} (i j : Fin kCowTrackedPages) (a : UInt64) (hactive : (m.mPages i).active = true)
      (hshared : 1 < (m.mPages i).references) (hslot : (m.mPages j).active = false)
      (hgrants : p.pmm.Grants p'.pmm a)
      (hbytes : p'.bytes = p.bytes.copy a (m.mPages i).physical kPageSize.toNat) :
      Effect m p (.split i a)
        ((m.setPage i ((m.mPages i).withReferences ((m.mPages i).references - 1))).setPage j
          { physical := a, references := 1, active := true }) p'
  | dropped (i : Fin kCowTrackedPages) (hactive : (m.mPages i).active = true)
      (hshared : 1 < (m.mPages i).references) :
      Effect m p .dropped (m.setPage i ((m.mPages i).withReferences ((m.mPages i).references - 1))) p
  | freed {p' : Physical} (i : Fin kCowTrackedPages) (hactive : (m.mPages i).active = true)
      (hlast : (m.mPages i).references = 1) (hreturns : p.pmm.Returns p'.pmm (m.mPages i).physical)
      (hbytes : p'.bytes = p.bytes) :
      Effect m p (.freed (m.mPages i).physical)
        (m.setPage i { physical := 0, references := 0, active := false }) p'

/-- The table and the allocator fit together: no two entries track one frame, every tracked frame is taken,
    and every active entry has an owner. -/
structure Inv (m : CopyOnWriteManager) (p : Physical) : Prop where
  ready    : p.pmm.Ready
  sound    : (m.ledger p).Sound 0
  positive : ∀ i, (m.mPages i).active = true → (m.mPages i).references ≠ 0

theorem allocatePage_effect (hready : p.pmm.Ready) (m : CopyOnWriteManager) :
    m.allocatePage p = (0, m, p) ∨
    (m.allocatePage p).1 ≠ 0 ∧
      Effect m p (.allocated (m.allocatePage p).1) (m.allocatePage p).2.1 (m.allocatePage p).2.2 := by
  unfold allocatePage
  cases hslot : m.findFreeSlot with
  | none => exact Or.inl rfl
  | some slot =>
      dsimp only
      split
      · exact Or.inl rfl
      · by_cases hz : p.allocatePage.1 = 0
        · rw [if_pos hz, Physical.allocatePage_failed hready hz]
          exact Or.inl rfl
        · rw [if_neg hz]
          exact Or.inr ⟨hz, .allocated slot _ (findFreeSlot_some hslot)
            (Physical.allocatePage_grants hready hz) rfl⟩

theorem clonePage_effect (m : CopyOnWriteManager) (p : Physical) (physical : UInt64) :
    m.clonePage physical = (false, m) ∨
    (m.clonePage physical).1 = true ∧ Effect m p .cloned (m.clonePage physical).2 p := by
  unfold clonePage
  cases hfind : m.findPage physical with
  | none => exact Or.inl rfl
  | some i =>
      dsimp only
      split
      · exact Or.inl rfl
      · rename_i hroom
        exact Or.inr ⟨rfl, .cloned i (findPage_some hfind).1 hroom⟩

theorem resolveWrite_effect (hready : p.pmm.Ready) (m : CopyOnWriteManager) (physical : UInt64) :
    m.resolveWrite physical p = (0, m, p) ∨
    (∃ i, m.findPage physical = some i ∧ (m.mPages i).references ≤ 1 ∧
      m.resolveWrite physical p = (physical, m, p)) ∨
    ∃ i, m.findPage physical = some i ∧ (m.resolveWrite physical p).1 ≠ 0 ∧
      Effect m p (.split i (m.resolveWrite physical p).1) (m.resolveWrite physical p).2.1
        (m.resolveWrite physical p).2.2 := by
  unfold resolveWrite
  cases hfind : m.findPage physical with
  | none => exact Or.inl rfl
  | some i =>
      obtain ⟨hactive, hphys⟩ := findPage_some hfind
      dsimp only
      by_cases hsole : (m.mPages i).references ≤ 1
      · rw [if_pos hsole]
        exact Or.inr (Or.inl ⟨i, rfl, hsole, rfl⟩)
      · rw [if_neg hsole]
        cases hslot : m.findFreeSlot with
        | none => exact Or.inl rfl
        | some replacement =>
            dsimp only
            split
            · exact Or.inl rfl
            · by_cases hz : p.allocatePage.1 = 0
              · rw [if_pos hz, Physical.allocatePage_failed hready hz]
                exact Or.inl rfl
              · rw [if_neg hz]
                refine Or.inr (Or.inr ⟨i, rfl, hz, ?_⟩)
                refine .split i replacement _ hactive (by simpa using hsole) (findFreeSlot_some hslot)
                  (Physical.allocatePage_grants hready hz) ?_
                rw [hphys]
                rfl

theorem releasePage_effect (h : Inv m p) (physical : UInt64) :
    m.findPage physical = none ∧ m.releasePage physical p = (m, p) ∨
    ∃ i, m.findPage physical = some i ∧
      (1 < (m.mPages i).references ∧
          Effect m p .dropped (m.releasePage physical p).1 (m.releasePage physical p).2 ∨
        (m.mPages i).references = 1 ∧
          Effect m p (.freed physical) (m.releasePage physical p).1 (m.releasePage physical p).2) := by
  unfold releasePage
  cases hfind : m.findPage physical with
  | none => exact Or.inl ⟨rfl, rfl⟩
  | some i =>
      obtain ⟨hactive, hphys⟩ := findPage_some hfind
      have hne := h.positive i hactive
      refine Or.inr ⟨i, rfl, ?_⟩
      dsimp only
      rw [if_neg hne]
      by_cases hlast : (m.mPages i).references = 1
      · right
        have hz : (m.mPages i).references - 1 = 0 := by rw [hlast]; rfl
        have hholds : (m.ledger p).holds i = some (m.mPages i).physical := if_pos hactive
        have hreturns := PhysicalMemoryManager.freePage_returns h.ready (h.sound.taken hholds).1
          (h.sound.unheld hholds)
        simp only [CowPage.withReferences_references, CowPage.withReferences_physical, hz, if_true]
        refine ⟨hlast, ?_⟩
        rw [← hphys]
        exact .freed i hactive hlast hreturns rfl
      · left
        have hz : (m.mPages i).references - 1 ≠ 0 := by
          intro hz
          apply hlast
          rw [← UInt16.sub_add_cancel (m.mPages i).references 1, hz]
          rfl
        have hshared : 1 < (m.mPages i).references := by
          rw [UInt16.lt_iff_toNat_lt]
          have h0 : (m.mPages i).references.toNat ≠ 0 := fun h => hne (UInt16.toNat_inj.mp h)
          have h1 : (m.mPages i).references.toNat ≠ 1 := fun h => hlast (UInt16.toNat_inj.mp h)
          show 1 < (m.mPages i).references.toNat
          omega
        simp only [CowPage.withReferences_references, hz, if_false]
        exact ⟨hshared, .dropped i hactive hshared⟩

/-! ## What an effect keeps -/

theorem frame_active {page : CowPage} (h : page.active = true) : page.frame = some page.physical := if_pos h

section Effect

variable {c : Change}

/-- **An effect moves frames as grants and revokes.** -/
theorem Effect.steps (he : Effect m p c m' p') (hs : (m.ledger p).Sound 0) :
    Lib.Ledger.Steps (m.ledger p) (m'.ledger p') := by
  cases he with
  | allocated i a hslot hgrants hbytes => exact frameLedger_grants hgrants rfl
  | cloned i hactive hroom => exact frameLedger_keeps rfl
  | split i j a hactive hshared hslot hgrants hbytes =>
      have hsame : (m.setPage i ((m.mPages i).withReferences ((m.mPages i).references - 1))).ledger p
          = m.ledger p := frameLedger_same rfl
      rw [← hsame]
      exact frameLedger_grants hgrants rfl
  | dropped i hactive hshared => exact frameLedger_keeps rfl
  | freed i hactive hlast hreturns hbytes =>
      exact frameLedger_returns hs hreturns (frame_active hactive) rfl

theorem Effect.ready (he : Effect m p c m' p') (h : p.pmm.Ready) : p'.pmm.Ready := by
  cases he with
  | allocated i a hslot hgrants hbytes => exact hgrants.ready
  | cloned i hactive hroom => exact h
  | split i j a hactive hshared hslot hgrants hbytes => exact hgrants.ready
  | dropped i hactive hshared => exact h
  | freed i hactive hlast hreturns hbytes => exact hreturns.ready

theorem positive_setPage {page : CowPage} (h : ∀ i, (m.mPages i).active = true → (m.mPages i).references ≠ 0)
    (hpage : page.active = true → page.references ≠ 0) (q : Fin kCowTrackedPages) :
    ((m.setPage i page).mPages q).active = true → ((m.setPage i page).mPages q).references ≠ 0 := by
  show (Function.update m.mPages i page q).active = true → (Function.update m.mPages i page q).references ≠ 0
  by_cases hq : q = i
  · rw [hq, Function.update_self]
    exact hpage
  · rw [Function.update_of_ne hq]
    exact h q

/-- A count above one can lose one owner. -/
theorem sub_one_of_shared {r : UInt16} (h : 1 < r) : r - 1 ≠ 0 ∧ (r - 1).toNat + 1 = r.toNat := by
  rw [UInt16.lt_iff_toNat_lt] at h
  have h' : 1 < r.toNat := h
  have hsub : (r - 1).toNat = r.toNat - 1 := by
    rw [UInt16.toNat_sub_of_le]
    · rfl
    · rw [UInt16.le_iff_toNat_le]
      show 1 ≤ r.toNat
      omega
  refine ⟨fun hz => ?_, by omega⟩
  have hval := congrArg UInt16.toNat hz
  have hzero : (0 : UInt16).toNat = 0 := rfl
  omega

/-- A count below `UINT16_MAX` can gain one. -/
theorem add_one_of_room {r : UInt16} (h : r ≠ 0xFFFF) : r + 1 ≠ 0 ∧ (r + 1).toNat = r.toNat + 1 := by
  have hlt := r.toNat_lt
  have hne : r.toNat ≠ 65535 := fun hz => h (UInt16.toNat_inj.mp hz)
  have hadd : (r + 1).toNat = r.toNat + 1 := by
    rw [UInt16.toNat_add]
    show (r.toNat + 1) % 2 ^ 16 = r.toNat + 1
    omega
  refine ⟨fun hz => ?_, hadd⟩
  have hval := congrArg UInt16.toNat hz
  have hzero : (0 : UInt16).toNat = 0 := rfl
  omega

/-- **Step lemma** for the table and the allocator. -/
theorem Effect.inv (he : Effect m p c m' p') (h : Inv m p) : Inv m' p' := by
  refine ⟨he.ready h.ready, (he.steps h.sound).sound h.sound, ?_⟩
  cases he with
  | allocated i a hslot hgrants hbytes =>
      exact positive_setPage h.positive fun _ => show (1 : UInt16) ≠ 0 by decide
  | cloned i hactive hroom =>
      exact positive_setPage h.positive fun _ => (add_one_of_room hroom).1
  | split i j a hactive hshared hslot hgrants hbytes =>
      apply positive_setPage
      · exact positive_setPage h.positive fun _ => (sub_one_of_shared hshared).1
      · exact fun _ => show (1 : UInt16) ≠ 0 by decide
  | dropped i hactive hshared =>
      exact positive_setPage h.positive fun _ => (sub_one_of_shared hshared).1
  | freed i hactive hlast hreturns hbytes =>
      apply positive_setPage h.positive
      intro hactive'
      exact absurd hactive' (by decide)

/-! ## Counting owners -/

/-- The sum of the reference counts of the active entries. -/
def totalOwners (m : CopyOnWriteManager) : Nat := ∑ i, (m.mPages i).owners

theorem totalOwners_setPage (m : CopyOnWriteManager) (i : Fin kCowTrackedPages) (page : CowPage) :
    (m.setPage i page).totalOwners + (m.mPages i).owners = m.totalOwners + page.owners :=
  Lib.sum_update CowPage.owners m.mPages i page

theorem owners_active {page : CowPage} (h : page.active = true) : page.owners = page.references.toNat :=
  if_pos h

theorem owners_withReferences {page : CowPage} (h : page.active = true) (references : UInt16) :
    (page.withReferences references).owners = references.toNat := if_pos h

theorem owners_inactive {page : CowPage} (h : page.active = false) : page.owners = 0 := by
  unfold CowPage.owners
  rw [h]
  rfl

/-- How many owners a change adds and takes away. -/
def Change.gained : Change → Nat
  | .allocated _ | .cloned => 1
  | _ => 0

def Change.lost : Change → Nat
  | .dropped | .freed _ => 1
  | _ => 0

/-- **Owners are conserved.** -/
theorem Effect.totalOwners (he : Effect m p c m' p') :
    m'.totalOwners + c.lost = m.totalOwners + c.gained := by
  cases he with
  | allocated i a hslot hgrants hbytes =>
      have hsum := totalOwners_setPage m i { physical := a, references := 1, active := true }
      rw [owners_inactive hslot, owners_active rfl] at hsum
      exact hsum
  | cloned i hactive hroom =>
      have hsum := totalOwners_setPage m i ((m.mPages i).withReferences ((m.mPages i).references + 1))
      rw [owners_active hactive, owners_withReferences hactive] at hsum
      have hadd := (add_one_of_room hroom).2
      show _ + 0 = _ + 1
      omega
  | split i j a hactive hshared hslot hgrants hbytes =>
      have hij : j ≠ i := by
        rintro rfl
        rw [hactive] at hslot
        exact absurd hslot (by simp)
      have hfirst := totalOwners_setPage m i ((m.mPages i).withReferences ((m.mPages i).references - 1))
      have hsecond := totalOwners_setPage
        (m.setPage i ((m.mPages i).withReferences ((m.mPages i).references - 1))) j
        { physical := a, references := 1, active := true }
      have hkept : ((m.setPage i ((m.mPages i).withReferences ((m.mPages i).references - 1))).mPages j)
          = m.mPages j := Function.update_of_ne hij _ _
      rw [hkept, owners_inactive hslot, owners_active rfl] at hsecond
      rw [owners_active hactive, owners_withReferences hactive] at hfirst
      have hsub := (sub_one_of_shared hshared).2
      have hone : (1 : UInt16).toNat = 1 := rfl
      change _ + 0 = _ + (1 : UInt16).toNat at hsecond
      show _ + 0 = _ + 0
      omega
  | dropped i hactive hshared =>
      have hsum := totalOwners_setPage m i ((m.mPages i).withReferences ((m.mPages i).references - 1))
      rw [owners_active hactive, owners_withReferences hactive] at hsum
      have hsub := (sub_one_of_shared hshared).2
      show _ + 1 = _ + 0
      omega
  | freed i hactive hlast hreturns hbytes =>
      have hsum := totalOwners_setPage m i { physical := 0, references := 0, active := false }
      rw [owners_active hactive, owners_inactive rfl, hlast] at hsum
      exact hsum

/-! ## What an effect does to pages and bytes -/

/-- A page goes from in use to free. -/
def Freed (s t : PhysicalMemoryManager) (page : Nat) : Prop :=
  s.isPageFree page = false ∧ t.isPageFree page = true

theorem not_freed_self (s : PhysicalMemoryManager) (page : Nat) : ¬ Freed s s page := by
  rintro ⟨hused, hfree⟩
  rw [hused] at hfree
  exact absurd hfree (by simp)

theorem not_freed_grants {s t : PhysicalMemoryManager} {a : UInt64} (h : s.Grants t a) (page : Nat) :
    ¬ Freed s t page := by
  rintro ⟨hused, hfree⟩
  rw [h.pages, hused, ite_self] at hfree
  exact absurd hfree (by simp)

/-- An effect frees a page exactly when it gives back that page's frame. -/
theorem Effect.freed_iff (he : Effect m p c m' p') (hs : (m.ledger p).Sound 0) (page : Nat) :
    Freed p.pmm p'.pmm page ↔ ∃ a, c = .freed a ∧ page = pageOf a := by
  cases he with
  | allocated i a hslot hgrants hbytes =>
      refine ⟨fun h => absurd h (not_freed_grants hgrants page), ?_⟩
      rintro ⟨b, hb, -⟩
      exact absurd hb (by simp)
  | cloned i hactive hroom =>
      refine ⟨fun h => absurd h (not_freed_self _ page), ?_⟩
      rintro ⟨b, hb, -⟩
      exact absurd hb (by simp)
  | split i j a hactive hshared hslot hgrants hbytes =>
      refine ⟨fun h => absurd h (not_freed_grants hgrants page), ?_⟩
      rintro ⟨b, hb, -⟩
      exact absurd hb (by simp)
  | dropped i hactive hshared =>
      refine ⟨fun h => absurd h (not_freed_self _ page), ?_⟩
      rintro ⟨b, hb, -⟩
      exact absurd hb (by simp)
  | freed i hactive hlast hreturns hbytes =>
      have htaken := hs.taken (frame_active hactive : (m.ledger p).holds i = _)
      constructor
      · rintro ⟨hused, hfree⟩
        rw [hreturns.pages] at hfree
        split at hfree
        · rename_i hpage
          exact ⟨_, rfl, hpage⟩
        · rw [hused] at hfree
          exact absurd hfree (by simp)
      · rintro ⟨a, ha, rfl⟩
        obtain rfl : (m.mPages i).physical = a := by simpa using ha
        exact ⟨htaken.2, by rw [hreturns.pages, if_pos rfl]⟩

/-- Two frames are disjoint ranges of bytes. -/
theorem frames_disjoint {a b : UInt64} (ha : IsFrame a) (hb : IsFrame b) (hne : a ≠ b) :
    ∀ i < kPageSize.toNat, ∀ j < kPageSize.toNat, a + UInt64.ofNat i ≠ b + UInt64.ofNat j := by
  intro i hi j hj heq
  rw [toNat_kPageSize] at hi hj
  have hN := kManagedPageCount_eq
  have hval := congrArg UInt64.toNat heq
  have hain := ha.2
  have hbin := hb.2
  have hamod := ha.1
  have hbmod := hb.1
  unfold pageOf at hain hbin
  rw [UInt64.toNat_add, UInt64.toNat_add, UInt64.toNat_ofNat', UInt64.toNat_ofNat'] at hval
  apply hne
  apply UInt64.toNat_inj.mp
  omega

/-- **Isolation.** A split copies the shared frame byte for byte into another frame and leaves it alone. -/
theorem Effect.isolated {i : Fin kCowTrackedPages} {a : UInt64} (he : Effect m p (.split i a) m' p')
    (hs : (m.ledger p).Sound 0) :
    a ≠ (m.mPages i).physical ∧ ∀ k < kPageSize.toNat,
      p'.bytes (a + UInt64.ofNat k) = p.bytes ((m.mPages i).physical + UInt64.ofNat k) ∧
      p'.bytes ((m.mPages i).physical + UInt64.ofNat k)
        = p.bytes ((m.mPages i).physical + UInt64.ofNat k) := by
  cases he with
  | split i j a hactive hshared hslot hgrants hbytes =>
      have htaken := hs.taken (frame_active hactive : (m.ledger p).holds i = _)
      have hne : a ≠ (m.mPages i).physical := by
        rintro rfl
        exact hgrants.not_taken htaken
      have hdisj := frames_disjoint hgrants.isFrame htaken.1 hne
      refine ⟨hne, fun k hk => ?_⟩
      have hk64 : k < 2 ^ 64 := by
        rw [toNat_kPageSize] at hk
        omega
      rw [hbytes, Lib.Bytes.copy_apply (by rw [toNat_kPageSize]; omega) hdisj,
        Lib.Bytes.copy_apply (by rw [toNat_kPageSize]; omega) hdisj]
      have hin : (a + UInt64.ofNat k - a).toNat = k := (Lib.Bytes.eq_add_ofNat_iff hk64).mp rfl
      have hoff : a + UInt64.ofNat k - a = UInt64.ofNat k := by
        rw [UInt64.add_comm, UInt64.add_sub_cancel]
      have hout : ¬ ((m.mPages i).physical + UInt64.ofNat k - a).toNat < kPageSize.toNat := by
        intro hlt
        apply hdisj _ hlt k hk
        rw [UInt64.ofNat_toNat, UInt64.add_comm, UInt64.sub_add_cancel]
      rw [if_pos (hin.symm ▸ hk), if_neg hout, hoff]
      exact ⟨rfl, rfl⟩

end Effect

end CopyOnWriteManager
end UefiBoot
