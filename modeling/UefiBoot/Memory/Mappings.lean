import UefiBoot.Lib.ByteRange
import UefiBoot.Memory.PageCache

/-!
# `Memory.Mappings` — `MemoryMappingManager`, ranges of addresses filled page by page

A mapping is a range of addresses with a page array. `Map` opens one at `m_NextAddress`, and fills all its pages at
once unless it is demand-paged; `HandlePageFault` fills one page; `Unmap` gives the pages back. A page of a file
comes from the page cache, with a reference, any other page from the frame allocator.

The three operations are built from three small ones: `openMapping`, `fillPage`, and the release of a page. `Inv` is
what every state satisfies, and each small operation keeps it. It says of the page cache that an entry counts one
reference for each mapping that uses it, so the 16-bit count cannot wrap: there are sixteen mappings.
-/

namespace UefiBoot

/-- `MemoryMappingManager::Mapping`. An index into `pages` is below `kMappingMaxPages` (`Inv.page_lt`). -/
structure Mapping where
  address     : UInt64 := 0
  pageCount   : UInt64 := 0
  fileId      : UInt64 := 0
  writable    : Bool := false
  demandPaged : Bool := false
  active      : Bool := false
  pages       : Nat → UInt64 := fun _ => 0

namespace Mapping

/-- The test of `Find`. -/
def contains (mapping : Mapping) (address : UInt64) : Bool :=
  mapping.active && decide (address ≥ mapping.address) &&
    decide (address < mapping.address + mapping.pageCount * kPageSize)

/-- `pages[page] = physical`. -/
@[simps] def setPage (mapping : Mapping) (page : Nat) (physical : UInt64) : Mapping :=
  { mapping with pages := Function.update mapping.pages page physical }

/-- `(address - mapping->address) / kPageSize`. -/
def pageIndex (mapping : Mapping) (address : UInt64) : Nat := ((address - mapping.address) / kPageSize).toNat

end Mapping

structure MemoryMappingManager where
  mNextAddress : UInt64 := 0
  mMappings    : Fin kMemoryMappingCount → Mapping := fun _ => {}

namespace MemoryMappingManager

def init (m : MemoryMappingManager) : MemoryMappingManager :=
  { mNextAddress := 0x40000000, mMappings := fun i => { m.mMappings i with active := false } }

/-- Write one mapping of the table. -/
@[simps] def setMapping (m : MemoryMappingManager) (i : Fin kMemoryMappingCount) (mapping : Mapping) :
    MemoryMappingManager :=
  { m with mMappings := Function.update m.mMappings i mapping }

theorem setMapping_apply (m : MemoryMappingManager) (i q : Fin kMemoryMappingCount) (mapping : Mapping) :
    (m.setMapping i mapping).mMappings q = if q = i then mapping else m.mMappings q := Function.update_apply ..

def find (m : MemoryMappingManager) (address : UInt64) : Option (Fin kMemoryMappingCount) :=
  Lib.firstSlot fun i => (m.mMappings i).contains address

/-- The loop of `Map`, up to the slot it takes. -/
def findInactive (m : MemoryMappingManager) : Option (Fin kMemoryMappingCount) :=
  Lib.firstSlot fun i => !(m.mMappings i).active

/-- What `Map` writes into its slot. -/
def openMapping (m : MemoryMappingManager) (i : Fin kMemoryMappingCount) (pages fileId : UInt64)
    (writable demandPaged : Bool) : MemoryMappingManager :=
  { m.setMapping i
      { address := m.mNextAddress, pageCount := pages, fileId, writable, demandPaged, active := true } with
    mNextAddress := m.mNextAddress + pages * kPageSize }

end MemoryMappingManager

/-- The manager with what its two pointers lead to: the page cache and the allocator with physical memory. -/
structure Mapped where
  maps  : MemoryMappingManager
  cache : PageCache
  phys  : Physical

namespace Mapped

def materialize (s : Mapped) (mapping : Mapping) (page : Nat) : UInt64 × Mapped :=
  if mapping.fileId ≠ 0 then
    let answer := s.cache.acquire mapping.fileId (UInt64.ofNat page) s.phys
    (answer.1, { s with cache := answer.2.1, phys := answer.2.2 })
  else
    let answer := s.phys.allocatePage
    (answer.1, { s with phys := if answer.1 ≠ 0 then answer.2.clearPage answer.1 else answer.2 })

/-- `mapping.pages[page] = Materialize(mapping, page)`. -/
def fillPage (s : Mapped) (i : Fin kMemoryMappingCount) (page : Nat) : Mapped :=
  let mapping := s.maps.mMappings i
  let answer := s.materialize mapping page
  { answer.2 with maps := answer.2.maps.setMapping i (mapping.setPage page answer.1) }

/-- One turn of the loop of `Unmap`. -/
def releasePage (mapping : Mapping) (s : PageCache × Physical) (page : Nat) : PageCache × Physical :=
  if mapping.pages page = 0 then s
  else if mapping.fileId ≠ 0 then ((s.1.release (mapping.pages page)).2, s.2)
  else (s.1, s.2.freePage (mapping.pages page))

def unmap (s : Mapped) (address : UInt64) : Bool × Mapped :=
  match s.maps.find address with
  | none   => (false, s)
  | some i =>
    let mapping := s.maps.mMappings i
    if mapping.address ≠ address then (false, s)
    else
      let (cache, phys) := (List.range mapping.pageCount.toNat).foldl (releasePage mapping) (s.cache, s.phys)
      (true, { maps := s.maps.setMapping i { mapping with active := false }, cache, phys })

/-- The loop of `Map` over `pages`: whether it filled them all. -/
def fillLoop (s : Mapped) (i : Fin kMemoryMappingCount) : List Nat → Bool × Mapped
  | []            => (true, s)
  | page :: pages =>
    let s := s.fillPage i page
    if (s.maps.mMappings i).pages page = 0 then (false, s) else s.fillLoop i pages

/-- The answer is the address of the mapping, or 0. -/
def map (s : Mapped) (fileId length : UInt64) (writable demandPaged : Bool) : UInt64 × Mapped :=
  let pages := (length + kPageSize - 1) / kPageSize
  if pages = 0 ∨ pages.toNat > kMappingMaxPages then (0, s)
  else
    match s.maps.findInactive with
    | none   => (0, s)
    | some i =>
      let address := s.maps.mNextAddress
      let s := { s with maps := s.maps.openMapping i pages fileId writable demandPaged }
      if demandPaged then (address, s)
      else
        let (filled, s) := s.fillLoop i (List.range pages.toNat)
        if filled then (address, s) else (0, (s.unmap address).2)

def handlePageFault (s : Mapped) (address : UInt64) (write : Bool) : UInt64 × Mapped :=
  match s.maps.find address with
  | none   => (0, s)
  | some i =>
    if write && !(s.maps.mMappings i).writable then (0, s)
    else
      let page := (s.maps.mMappings i).pageIndex address
      let s := if (s.maps.mMappings i).pages page = 0 then s.fillPage i page else s
      let physical := (s.maps.mMappings i).pages page
      (physical,
        if write && (s.maps.mMappings i).fileId != 0 then { s with cache := s.cache.markDirty physical } else s)

end Mapped

/-! ## What a state satisfies -/

namespace Mapping

/-- The frame of an anonymous page. -/
def frame (mapping : Mapping) (page : Nat) : Option UInt64 :=
  if mapping.active = true ∧ mapping.fileId = 0 ∧ mapping.pages page ≠ 0 then some (mapping.pages page) else none

/-- The mapping has a reference to this page of this file. -/
def Uses (mapping : Mapping) (fileId pageOffset : UInt64) : Prop :=
  mapping.active = true ∧ mapping.fileId = fileId ∧ fileId ≠ 0 ∧ mapping.pages pageOffset.toNat ≠ 0

instance (mapping : Mapping) (fileId pageOffset : UInt64) : Decidable (mapping.Uses fileId pageOffset) := by
  unfold Uses
  infer_instance

/-- The number of bytes of a mapping. -/
def size (mapping : Mapping) : Nat := mapping.pageCount.toNat * 4096

/-- The addresses of a mapping. -/
def range (mapping : Mapping) : Lib.ByteRange := ⟨mapping.address, mapping.size⟩

/-- A mapping below the next address, of one to sixteen pages, with nothing past its last page. -/
structure Placed (mapping : Mapping) (next : UInt64) : Prop where
  aligned : mapping.address.toNat % 4096 = 0
  count   : 0 < mapping.pageCount.toNat ∧ mapping.pageCount.toNat ≤ kMappingMaxPages
  below   : mapping.address.toNat + mapping.size ≤ next.toNat
  past    : ∀ page, mapping.pageCount.toNat ≤ page → mapping.pages page = 0

/-- One ends before the other starts. -/
def Clear (mapping other : Mapping) : Prop :=
  mapping.address.toNat + mapping.size ≤ other.address.toNat ∨ other.address.toNat + other.size ≤ mapping.address.toNat

end Mapping

namespace MemoryMappingManager

/-- Which frame an anonymous page of a mapping holds. -/
def holds (m : MemoryMappingManager) (q : Fin kMemoryMappingCount × Nat) : Option UInt64 :=
  (m.mMappings q.1).frame q.2

/-- The number of mappings with a reference to this page of this file. -/
def references (m : MemoryMappingManager) (fileId pageOffset : UInt64) : Nat :=
  ∑ i, if (m.mMappings i).Uses fileId pageOffset then 1 else 0

theorem references_le (m : MemoryMappingManager) (fileId pageOffset : UInt64) :
    m.references fileId pageOffset ≤ kMemoryMappingCount := by
  unfold references
  rw [← Finset.card_filter]
  exact (Finset.card_filter_le _ _).trans (by simp)

/-- A mapping with a reference is counted. -/
theorem references_pos {m : MemoryMappingManager} {i : Fin kMemoryMappingCount} {fileId pageOffset : UInt64}
    (h : (m.mMappings i).Uses fileId pageOffset) : 0 < m.references fileId pageOffset := by
  unfold references
  rw [← Finset.card_filter, Finset.card_pos]
  exact ⟨i, Finset.mem_filter.mpr ⟨Finset.mem_univ i, h⟩⟩

theorem references_zero {m : MemoryMappingManager} {fileId pageOffset : UInt64}
    (h : ∀ i, ¬ (m.mMappings i).Uses fileId pageOffset) : m.references fileId pageOffset = 0 := by
  unfold references
  exact Finset.sum_eq_zero fun i _ => if_neg (h i)

/-- Writing a mapping changes the count by the difference at that mapping. -/
theorem references_setMapping (m : MemoryMappingManager) (i : Fin kMemoryMappingCount) (mapping : Mapping)
    (fileId pageOffset : UInt64) :
    (m.setMapping i mapping).references fileId pageOffset +
        (if (m.mMappings i).Uses fileId pageOffset then 1 else 0) =
      m.references fileId pageOffset + (if mapping.Uses fileId pageOffset then 1 else 0) :=
  Lib.sum_update (fun mapping : Mapping => if mapping.Uses fileId pageOffset then 1 else 0) m.mMappings i mapping

/-- **Where the mappings lie.** -/
structure Layout (m : MemoryMappingManager) : Prop where
  next   : m.mNextAddress.toNat % 4096 = 0
  placed : ∀ i, (m.mMappings i).active = true → (m.mMappings i).Placed m.mNextAddress
  clear  : ∀ i j, (m.mMappings i).active = true → (m.mMappings j).active = true → i ≠ j →
    (m.mMappings i).Clear (m.mMappings j)

end MemoryMappingManager

namespace Mapped

/-- **The mappings, the cache and the allocator fit together.** -/
structure Inv (s : Mapped) : Prop where
  ready    : s.phys.pmm.Ready
  /-- No frame has two holders among the anonymous pages and the cache entries. -/
  sound    : (Lib.Ledger.mk (Sum.elim s.maps.holds fun e => (s.cache.mEntries e).frame) s.phys.pmm.Taken).Sound 0
  keys     : s.cache.KeysDistinct
  layout   : s.maps.Layout
  /-- A page of a file is the frame of the entry that caches it. -/
  cached   : ∀ i fileId pageOffset, (s.maps.mMappings i).Uses fileId pageOffset →
    ∃ e, (s.cache.mEntries e).Caches fileId pageOffset ∧
      (s.cache.mEntries e).physical = (s.maps.mMappings i).pages pageOffset.toNat
  /-- An entry counts its mappings. -/
  counted  : ∀ e, (s.cache.mEntries e).active = true → (s.cache.mEntries e).references.toNat =
    s.maps.references (s.cache.mEntries e).fileId (s.cache.mEntries e).pageOffset

end Mapped

/-! ### Addresses -/

namespace MemoryMappingManager

variable {m : MemoryMappingManager} {i j : Fin kMemoryMappingCount} {page : Nat} {address : UInt64}

/-- A mapping of the layout does not wrap. -/
theorem Layout.contains_iff (h : m.Layout) (hactive : (m.mMappings i).active = true) :
    (m.mMappings i).contains address = true ↔
      (m.mMappings i).address.toNat ≤ address.toNat ∧
      address.toNat < (m.mMappings i).address.toNat + (m.mMappings i).size := by
  obtain ⟨-, ⟨-, hcount⟩, hbelow, -⟩ := h.placed i hactive
  have hlt := m.mNextAddress.toNat_lt
  unfold Mapping.size at hbelow ⊢
  have hend : ((m.mMappings i).address + (m.mMappings i).pageCount * kPageSize).toNat =
      (m.mMappings i).address.toNat + (m.mMappings i).pageCount.toNat * 4096 := by
    rw [UInt64.toNat_add, UInt64.toNat_mul, toNat_kPageSize]
    omega
  unfold Mapping.contains
  rw [hactive, Bool.true_and, Bool.and_eq_true, decide_eq_true_iff, decide_eq_true_iff, ge_iff_le,
    UInt64.le_iff_toNat_le, UInt64.lt_iff_toNat_lt, hend]

theorem active_of_contains {mapping : Mapping} (h : mapping.contains address = true) : mapping.active = true := by
  unfold Mapping.contains at h
  rw [Bool.and_eq_true, Bool.and_eq_true] at h
  exact h.1.1

/-- **`Find`** finds the mapping that contains the address; there is one at most. -/
theorem Layout.find_iff (h : m.Layout) :
    m.find address = some i ↔ (m.mMappings i).active = true ∧
      (m.mMappings i).address.toNat ≤ address.toNat ∧
      address.toNat < (m.mMappings i).address.toNat + (m.mMappings i).size := by
  constructor
  · intro hfind
    have hcontains := Lib.firstSlot_true hfind
    have hactive := active_of_contains hcontains
    exact ⟨hactive, (h.contains_iff hactive).mp hcontains⟩
  · rintro ⟨hi, hin⟩
    apply Lib.firstSlot_unique
    · exact (h.contains_iff hi).mpr hin
    · intro q hq
      have hactive := active_of_contains hq
      by_contra hne
      have hinq := (h.contains_iff hactive).mp hq
      rcases h.clear q i hactive hi hne with hle | hle
      · omega
      · omega

/-- The page index of an address that a mapping contains. -/
theorem Layout.pageIndex_eq (h : m.Layout) (hfind : m.find address = some i) :
    (m.mMappings i).pageIndex address = (address.toNat - (m.mMappings i).address.toNat) / 4096 := by
  obtain ⟨-, hlo, -⟩ := h.find_iff.mp hfind
  unfold Mapping.pageIndex
  rw [UInt64.toNat_div, toNat_kPageSize, UInt64.toNat_sub_of_le _ _ (UInt64.le_iff_toNat_le.mpr hlo)]

/-- **An index stays inside the mapping.** -/
theorem Layout.page_lt (h : m.Layout) (hfind : m.find address = some i) :
    (m.mMappings i).pageIndex address < (m.mMappings i).pageCount.toNat ∧
    (m.mMappings i).pageCount.toNat ≤ kMappingMaxPages := by
  obtain ⟨hactive, hlo, hhi⟩ := h.find_iff.mp hfind
  refine ⟨?_, (h.placed i hactive).count.2⟩
  rw [h.pageIndex_eq hfind]
  unfold Mapping.size at hhi
  omega

/-- A mapping is found by its own address. -/
theorem Layout.find_address (h : m.Layout) (hactive : (m.mMappings i).active = true) :
    m.find (m.mMappings i).address = some i := by
  obtain ⟨-, ⟨hcount, -⟩, -, -⟩ := h.placed i hactive
  refine h.find_iff.mpr ⟨hactive, Nat.le_refl _, ?_⟩
  unfold Mapping.size
  omega

/-- Another page array, with nothing past the last page, and perhaps a mapping that ends. -/
theorem Layout.setMapping (h : m.Layout) {mapping : Mapping} (haddress : mapping.address = (m.mMappings i).address)
    (hcount : mapping.pageCount = (m.mMappings i).pageCount)
    (hactive : mapping.active = true → (m.mMappings i).active = true)
    (hpast : mapping.active = true → ∀ page, mapping.pageCount.toNat ≤ page → mapping.pages page = 0) :
    (m.setMapping i mapping).Layout := by
  have hsize : mapping.size = (m.mMappings i).size := by
    unfold Mapping.size
    rw [hcount]
  -- every mapping that is active now was active in the same place
  have hold : ∀ q, ((m.setMapping i mapping).mMappings q).active = true → (m.mMappings q).active = true ∧
      ((m.setMapping i mapping).mMappings q).address = (m.mMappings q).address ∧
      ((m.setMapping i mapping).mMappings q).size = (m.mMappings q).size := by
    intro q hq
    rw [setMapping_apply] at hq ⊢
    by_cases hqi : q = i
    · rw [if_pos hqi] at hq ⊢
      rw [hqi]
      exact ⟨hactive hq, haddress, hsize⟩
    · rw [if_neg hqi] at hq ⊢
      exact ⟨hq, rfl, rfl⟩
  refine ⟨h.next, fun q hq => ?_, fun q r hq hr hne => ?_⟩
  · rw [setMapping_apply] at hq ⊢
    by_cases hqi : q = i
    · rw [if_pos hqi] at hq ⊢
      obtain ⟨hal, hpages, hbelow, -⟩ := h.placed i (hactive hq)
      refine ⟨?_, ?_, ?_, hpast hq⟩
      · rw [haddress]
        exact hal
      · rw [hcount]
        exact hpages
      · rw [haddress, hsize]
        exact hbelow
    · rw [if_neg hqi] at hq ⊢
      exact h.placed q hq
  · obtain ⟨hqa, hqaddr, hqsize⟩ := hold q hq
    obtain ⟨hra, hraddr, hrsize⟩ := hold r hr
    unfold Mapping.Clear
    rw [hqaddr, hqsize, hraddr, hrsize]
    exact h.clear q r hqa hra hne

/-- **`Map`** opens a mapping behind all others. -/
theorem Layout.openMapping (h : m.Layout) (i : Fin kMemoryMappingCount) {pages : UInt64}
    (hpages : 0 < pages.toNat ∧ pages.toNat ≤ kMappingMaxPages)
    (hwrap : m.mNextAddress.toNat + pages.toNat * 4096 < 2 ^ 64) (fileId : UInt64) (writable demandPaged : Bool) :
    (m.openMapping i pages fileId writable demandPaged).Layout := by
  have hnext : (m.openMapping i pages fileId writable demandPaged).mNextAddress.toNat =
      m.mNextAddress.toNat + pages.toNat * 4096 := by
    show (m.mNextAddress + pages * kPageSize).toNat = _
    rw [UInt64.toNat_add, UInt64.toNat_mul, toNat_kPageSize]
    omega
  have hnew : (m.openMapping i pages fileId writable demandPaged).mMappings i =
      { address := m.mNextAddress, pageCount := pages, fileId, writable, demandPaged, active := true } :=
    Function.update_self ..
  have hother : ∀ q, q ≠ i → (m.openMapping i pages fileId writable demandPaged).mMappings q = m.mMappings q :=
    fun q hq => Function.update_of_ne hq ..
  have hal := h.next
  generalize m.openMapping i pages fileId writable demandPaged = m' at hnext hnew hother
  refine ⟨by omega, fun q hq => ?_, fun q r hq hr hne => ?_⟩
  · by_cases hqi : q = i
    · rw [hqi, hnew]
      exact ⟨hal, hpages, Nat.le_of_eq hnext.symm, fun _ _ => rfl⟩
    · rw [hother q hqi] at hq ⊢
      obtain ⟨haligned, hcount, hbelow, hpast⟩ := h.placed q hq
      exact ⟨haligned, hcount, by omega, hpast⟩
  · by_cases hqi : q = i
    · rw [hqi] at hne
      rw [hother r (Ne.symm hne)] at hr
      rw [hqi, hnew, hother r (Ne.symm hne)]
      exact Or.inr (h.placed r hr).below
    · rw [hother q hqi] at hq ⊢
      by_cases hri : r = i
      · rw [hri, hnew]
        exact Or.inl (h.placed q hq).below
      · rw [hother r hri] at hr ⊢
        exact h.clear q r hq hr hne

end MemoryMappingManager
end UefiBoot
