import UefiBoot.Lib.Select
import UefiBoot.Memory.Frames

/-!
# `Memory.PageCache` — `PageCache`, frames that hold pages of files

An entry is found by its key, the file and the page offset. `Acquire` counts a reference on a hit and fills a
free entry on a miss, `Release` takes a reference away, and `Evict` frees the frame of an entry whose count
is zero. The count is a 16-bit word that `Acquire` increments without a test. As for the other managers,
`Effect` lists once what an operation can do.
-/

namespace UefiBoot

/-- `PageCache::Entry`. -/
structure CacheEntry where
  fileId     : UInt64 := 0
  pageOffset : UInt64 := 0
  physical   : UInt64 := 0
  references : UInt16 := 0
  dirty      : Bool := false
  active     : Bool := false
  deriving DecidableEq, Repr

namespace CacheEntry

/-- The entry with another count. -/
@[simps] def withReferences (entry : CacheEntry) (references : UInt16) : CacheEntry :=
  { entry with references }

/-- The frame of an entry. -/
def frame (entry : CacheEntry) : Option UInt64 := if entry.active then some entry.physical else none

/-- The entry is active and caches this page of this file. -/
def Caches (entry : CacheEntry) (fileId pageOffset : UInt64) : Prop :=
  entry.active = true ∧ entry.fileId = fileId ∧ entry.pageOffset = pageOffset

instance (entry : CacheEntry) (fileId pageOffset : UInt64) : Decidable (entry.Caches fileId pageOffset) := by
  unfold Caches
  infer_instance

theorem frame_active {entry : CacheEntry} (h : entry.active = true) : entry.frame = some entry.physical :=
  if_pos h

end CacheEntry

structure PageCache where
  mPhysicalMemory : Bool := false
  mEntries        : Fin kPageCacheEntryCount → CacheEntry := fun _ => {}

namespace PageCache

def init (_c : PageCache) : PageCache := { mPhysicalMemory := true, mEntries := fun _ => {} }

/-- Write one entry of the table. -/
@[simps] def setEntry (c : PageCache) (i : Fin kPageCacheEntryCount) (entry : CacheEntry) : PageCache :=
  { c with mEntries := Function.update c.mEntries i entry }

theorem setEntry_apply (c : PageCache) (i q : Fin kPageCacheEntryCount) (entry : CacheEntry) :
    (c.setEntry i entry).mEntries q = if q = i then entry else c.mEntries q := Function.update_apply ..

/-- The first loop of `Acquire`. -/
def findEntry (c : PageCache) (fileId pageOffset : UInt64) : Option (Fin kPageCacheEntryCount) :=
  Lib.firstSlot fun i => decide ((c.mEntries i).Caches fileId pageOffset)

/-- The second loop of `Acquire`. -/
def findFreeEntry (c : PageCache) : Option (Fin kPageCacheEntryCount) :=
  Lib.firstSlot fun i => !(c.mEntries i).active

def acquire (c : PageCache) (fileId pageOffset : UInt64) (p : Physical) : UInt64 × PageCache × Physical :=
  match c.findEntry fileId pageOffset with
  | some i =>
    let entry := c.mEntries i
    (entry.physical, c.setEntry i (entry.withReferences (entry.references + 1)), p)
  | none   =>
    match c.findFreeEntry with
    | none   => (0, c, p)
    | some i =>
      let (physical, p) := if c.mPhysicalMemory then p.allocatePage else (0, p)
      if physical = 0 then (0, c, p)
      else
        (physical,
          c.setEntry i { fileId, pageOffset, physical, references := 1, dirty := false, active := true },
          p.clearPage physical)

def markDirty (c : PageCache) (physical : UInt64) : PageCache :=
  { c with
    mEntries := fun i =>
      let entry := c.mEntries i
      if entry.active && entry.physical == physical then { entry with dirty := true } else entry }

/-- The loop of `Release`. -/
def findReferenced (c : PageCache) (physical : UInt64) : Option (Fin kPageCacheEntryCount) :=
  Lib.firstSlot fun i =>
    (c.mEntries i).active && (c.mEntries i).physical == physical && (c.mEntries i).references != 0

def release (c : PageCache) (physical : UInt64) : Bool × PageCache :=
  match c.findReferenced physical with
  | none   => (false, c)
  | some i =>
    let entry := c.mEntries i
    (true, c.setEntry i (entry.withReferences (entry.references - 1)))

/-- The loop of `Evict`. -/
def findEvictable (c : PageCache) (fileId pageOffset : UInt64) : Option (Fin kPageCacheEntryCount) :=
  Lib.firstSlot fun i =>
    decide ((c.mEntries i).Caches fileId pageOffset) && (c.mEntries i).references == 0

def evict (c : PageCache) (fileId pageOffset : UInt64) (p : Physical) : Bool × PageCache × Physical :=
  match c.findEvictable fileId pageOffset with
  | none   => (false, c, p)
  | some i => (true, c.setEntry i {}, p.freePage (c.mEntries i).physical)

/-! ## Lookups -/

variable {c c' : PageCache} {p p' : Physical} {fileId pageOffset physical : UInt64}
  {i j : Fin kPageCacheEntryCount}

theorem findEntry_some (h : c.findEntry fileId pageOffset = some i) :
    (c.mEntries i).Caches fileId pageOffset := by
  simpa using Lib.firstSlot_true h

theorem findEntry_none (h : c.findEntry fileId pageOffset = none) (i : Fin kPageCacheEntryCount) :
    ¬ (c.mEntries i).Caches fileId pageOffset := by
  simpa using Lib.firstSlot_eq_none_iff.mp h i

theorem findFreeEntry_some (h : c.findFreeEntry = some i) : (c.mEntries i).active = false := by
  simpa using Lib.firstSlot_true h

theorem findReferenced_some (h : c.findReferenced physical = some i) :
    (c.mEntries i).active = true ∧ (c.mEntries i).physical = physical ∧ (c.mEntries i).references ≠ 0 := by
  have := Lib.firstSlot_true h
  simp only [Bool.and_eq_true, beq_iff_eq, bne_iff_ne] at this
  exact ⟨this.1.1, this.1.2, this.2⟩

theorem findReferenced_none (h : c.findReferenced physical = none) (i : Fin kPageCacheEntryCount)
    (hactive : (c.mEntries i).active = true) (hphys : (c.mEntries i).physical = physical) :
    (c.mEntries i).references = 0 := by
  have := Lib.firstSlot_eq_none_iff.mp h i
  simpa [hactive, hphys] using this

theorem findEvictable_some (h : c.findEvictable fileId pageOffset = some i) :
    (c.mEntries i).Caches fileId pageOffset ∧ (c.mEntries i).references = 0 := by
  simpa using Lib.firstSlot_true h

theorem findEvictable_isSome (hkey : (c.mEntries i).Caches fileId pageOffset)
    (hzero : (c.mEntries i).references = 0) : ∃ j, c.findEvictable fileId pageOffset = some j := by
  apply Lib.exists_firstSlot (i := i)
  simp [hkey, hzero]

/-! ## What an operation can do -/

/-- The frames of the entries, over the frames the allocator has handed out. -/
def ledger (c : PageCache) (p : Physical) : Lib.Ledger (Fin kPageCacheEntryCount) UInt64 :=
  frameLedger CacheEntry.frame c.mEntries p.pmm

/-- At most one active entry caches a page of a file. -/
def KeysDistinct (c : PageCache) : Prop :=
  ∀ i j fileId pageOffset, (c.mEntries i).Caches fileId pageOffset → (c.mEntries j).Caches fileId pageOffset →
    i = j

/-- The table and the allocator fit together. -/
structure Inv (c : PageCache) (p : Physical) : Prop where
  ready    : p.pmm.Ready
  sound    : (c.ledger p).Sound 0
  distinct : c.KeysDistinct

/-- What an operation did, and to which entry. -/
inductive Change where
  | hit (i : Fin kPageCacheEntryCount)
  | filled (i : Fin kPageCacheEntryCount) (fileId pageOffset a : UInt64)
  | marked
  | released (i : Fin kPageCacheEntryCount)
  | evicted (i : Fin kPageCacheEntryCount)
  deriving DecidableEq, Repr

/-- **Everything an operation can do to the cache and the allocator**, when it does something. -/
inductive Effect (c : PageCache) (p : Physical) : Change → PageCache → Physical → Prop
  | hit (i : Fin kPageCacheEntryCount) (hactive : (c.mEntries i).active = true) :
      Effect c p (.hit i)
        (c.setEntry i ((c.mEntries i).withReferences ((c.mEntries i).references + 1))) p
  | filled {p' : Physical} (i : Fin kPageCacheEntryCount) (fileId pageOffset a : UInt64)
      (hslot : (c.mEntries i).active = false) (hnew : ∀ j, ¬ (c.mEntries j).Caches fileId pageOffset)
      (hgrants : p.pmm.Grants p'.pmm a) (hbytes : p'.bytes = p.bytes.fill a kPageSize.toNat 0) :
      Effect c p (.filled i fileId pageOffset a)
        (c.setEntry i ⟨fileId, pageOffset, a, 1, false, true⟩) p'
  | marked (physical : UInt64) : Effect c p .marked (c.markDirty physical) p
  | released (i : Fin kPageCacheEntryCount) (hactive : (c.mEntries i).active = true)
      (hreferenced : (c.mEntries i).references ≠ 0) :
      Effect c p (.released i)
        (c.setEntry i ((c.mEntries i).withReferences ((c.mEntries i).references - 1))) p
  | evicted {p' : Physical} (i : Fin kPageCacheEntryCount) (hactive : (c.mEntries i).active = true)
      (hzero : (c.mEntries i).references = 0) (hreturns : p.pmm.Returns p'.pmm (c.mEntries i).physical)
      (hbytes : p'.bytes = p.bytes) :
      Effect c p (.evicted i) (c.setEntry i {}) p'

theorem acquire_effect (hready : p.pmm.Ready) (c : PageCache) (fileId pageOffset : UInt64) :
    c.findEntry fileId pageOffset = none ∧ c.acquire fileId pageOffset p = (0, c, p) ∨
    (∃ i, c.findEntry fileId pageOffset = some i ∧
      c.acquire fileId pageOffset p = ((c.mEntries i).physical,
        c.setEntry i ((c.mEntries i).withReferences ((c.mEntries i).references + 1)), p)) ∨
    ∃ i, c.findEntry fileId pageOffset = none ∧ (c.acquire fileId pageOffset p).1 ≠ 0 ∧
      Effect c p (.filled i fileId pageOffset (c.acquire fileId pageOffset p).1)
        (c.acquire fileId pageOffset p).2.1 (c.acquire fileId pageOffset p).2.2 := by
  unfold acquire
  cases hfind : c.findEntry fileId pageOffset with
  | some i => exact Or.inr (Or.inl ⟨i, rfl, rfl⟩)
  | none =>
      cases hslot : c.findFreeEntry with
      | none => exact Or.inl ⟨rfl, rfl⟩
      | some i =>
          dsimp only
          cases c.mPhysicalMemory with
          | false => exact Or.inl ⟨rfl, rfl⟩
          | true =>
              simp only [if_true]
              by_cases hz : p.allocatePage.1 = 0
              · rw [if_pos hz, Physical.allocatePage_failed hready hz]
                exact Or.inl ⟨trivial, rfl⟩
              · rw [if_neg hz]
                refine Or.inr (Or.inr ⟨i, trivial, hz, ?_⟩)
                exact .filled i fileId pageOffset _ (findFreeEntry_some hslot) (findEntry_none hfind)
                  (Physical.allocatePage_grants hready hz) rfl

theorem release_effect (c : PageCache) (p : Physical) (physical : UInt64) :
    c.findReferenced physical = none ∧ c.release physical = (false, c) ∨
    ∃ i, c.findReferenced physical = some i ∧ (c.release physical).1 = true ∧
      Effect c p (.released i) (c.release physical).2 p := by
  unfold release
  cases hfind : c.findReferenced physical with
  | none => exact Or.inl ⟨rfl, rfl⟩
  | some i =>
      obtain ⟨hactive, -, hne⟩ := findReferenced_some hfind
      exact Or.inr ⟨i, rfl, rfl, .released i hactive hne⟩

theorem evict_effect (h : Inv c p) (fileId pageOffset : UInt64) :
    c.findEvictable fileId pageOffset = none ∧ c.evict fileId pageOffset p = (false, c, p) ∨
    ∃ i, c.findEvictable fileId pageOffset = some i ∧ (c.evict fileId pageOffset p).1 = true ∧
      Effect c p (.evicted i) (c.evict fileId pageOffset p).2.1 (c.evict fileId pageOffset p).2.2 := by
  unfold evict
  cases hfind : c.findEvictable fileId pageOffset with
  | none => exact Or.inl ⟨rfl, rfl⟩
  | some i =>
      obtain ⟨⟨hactive, -, -⟩, hzero⟩ := findEvictable_some hfind
      have hholds : (c.ledger p).holds i = some (c.mEntries i).physical := CacheEntry.frame_active hactive
      have hreturns := PhysicalMemoryManager.freePage_returns h.ready (h.sound.taken hholds).1
        (h.sound.unheld hholds)
      exact Or.inr ⟨i, rfl, rfl, .evicted i hactive hzero hreturns rfl⟩

/-! ## What an effect keeps -/

/-- Marking dirty changes no other field. -/
theorem markDirty_entry (c : PageCache) (physical : UInt64) (i : Fin kPageCacheEntryCount) :
    ((c.markDirty physical).mEntries i).fileId = (c.mEntries i).fileId ∧
    ((c.markDirty physical).mEntries i).pageOffset = (c.mEntries i).pageOffset ∧
    ((c.markDirty physical).mEntries i).physical = (c.mEntries i).physical ∧
    ((c.markDirty physical).mEntries i).references = (c.mEntries i).references ∧
    ((c.markDirty physical).mEntries i).active = (c.mEntries i).active := by
  unfold markDirty
  dsimp only
  split <;> exact ⟨rfl, rfl, rfl, rfl, rfl⟩

theorem ledger_markDirty (c : PageCache) (p : Physical) (physical : UInt64) :
    (c.markDirty physical).ledger p = c.ledger p := by
  have hframe : (fun i => ((c.markDirty physical).mEntries i).frame) = fun i => (c.mEntries i).frame := by
    funext i
    obtain ⟨-, -, hphys, -, hactive⟩ := markDirty_entry c physical i
    unfold CacheEntry.frame
    rw [hphys, hactive]
  unfold ledger frameLedger
  rw [hframe]

section Effect

variable {change : Change}

theorem Effect.ready (he : Effect c p change c' p') (h : p.pmm.Ready) : p'.pmm.Ready := by
  cases he with
  | hit i hactive => exact h
  | filled i fileId pageOffset a hslot hnew hgrants hbytes => exact hgrants.ready
  | marked physical => exact h
  | released i hactive hne => exact h
  | evicted i hactive hzero hreturns hbytes => exact hreturns.ready

/-- **An effect moves frames as grants and revokes.** -/
theorem Effect.steps (he : Effect c p change c' p') (hs : (c.ledger p).Sound 0) :
    Lib.Ledger.Steps (c.ledger p) (c'.ledger p') := by
  cases he with
  | hit i hactive => exact frameLedger_keeps rfl
  | filled i fileId pageOffset a hslot hnew hgrants hbytes => exact frameLedger_grants hgrants rfl
  | marked physical => rw [ledger_markDirty]
  | released i hactive hne => exact frameLedger_keeps rfl
  | evicted i hactive hzero hreturns hbytes =>
      exact frameLedger_returns hs hreturns (CacheEntry.frame_active hactive) rfl

/-- Which page of which file an entry caches after an effect. -/
theorem Effect.caches (he : Effect c p change c' p') (q : Fin kPageCacheEntryCount) (f o : UInt64) :
    (c'.mEntries q).Caches f o ↔
      (∃ a, change = .filled q f o a) ∨ change ≠ .evicted q ∧ (c.mEntries q).Caches f o := by
  have hcount : ∀ i r, ((c.setEntry i ((c.mEntries i).withReferences r)).mEntries q).Caches f o ↔
      (c.mEntries q).Caches f o := by
    intro i r
    show (Function.update c.mEntries i _ q).Caches f o ↔ _
    by_cases hq : q = i
    · rw [hq, Function.update_self]
      rfl
    · rw [Function.update_of_ne hq]
  cases he with
  | hit i hactive =>
      rw [hcount]
      simp
  | filled i fileId pageOffset a hslot hnew hgrants hbytes =>
      show (Function.update c.mEntries i _ q).Caches f o ↔ _
      by_cases hq : q = i
      · rw [hq, Function.update_self]
        have hold : ¬ (c.mEntries i).Caches f o := fun h => by
          rw [h.1] at hslot
          exact absurd hslot (by simp)
        unfold CacheEntry.Caches at hold ⊢
        simp only [true_and, Change.filled.injEq]
        constructor
        · rintro ⟨rfl, rfl⟩
          exact Or.inl ⟨a, rfl, rfl, rfl⟩
        · rintro (⟨b, rfl, rfl, -⟩ | ⟨-, h⟩)
          · exact ⟨rfl, rfl⟩
          · exact absurd h hold
      · rw [Function.update_of_ne hq]
        simp [Ne.symm hq]
  | marked physical =>
      obtain ⟨hfile, hoff, -, -, hactive⟩ := markDirty_entry c physical q
      unfold CacheEntry.Caches
      rw [hfile, hoff, hactive]
      simp
  | released i hactive hne =>
      rw [hcount]
      simp
  | evicted i hactive hzero hreturns hbytes =>
      show (Function.update c.mEntries i _ q).Caches f o ↔ _
      by_cases hq : q = i
      · rw [hq, Function.update_self]
        simp [CacheEntry.Caches]
      · rw [Function.update_of_ne hq]
        simp [Ne.symm hq]

theorem Effect.distinct (he : Effect c p change c' p') (h : c.KeysDistinct) : c'.KeysDistinct := by
  intro i j f o hi hj
  rw [he.caches] at hi hj
  -- a page that was just cached was cached by no entry before
  have hfresh : ∀ k a, change = .filled k f o a → ∀ q, ¬ (c.mEntries q).Caches f o := by
    rintro k a rfl
    cases he with
    | filled k f o a hslot hnew hgrants hbytes => exact hnew
  rcases hi with ⟨a, hi⟩ | ⟨-, hi⟩
  · rcases hj with ⟨b, hj⟩ | ⟨-, hj⟩
    · rw [hi] at hj
      exact (Change.filled.inj hj).1
    · exact absurd hj (hfresh i a hi j)
  · rcases hj with ⟨b, hj⟩ | ⟨-, hj⟩
    · exact absurd hi (hfresh j b hj i)
    · exact h i j f o hi hj

/-- **Step lemma.** -/
theorem Effect.inv (he : Effect c p change c' p') (h : Inv c p) : Inv c' p' :=
  ⟨he.ready h.ready, (he.steps h.sound).sound h.sound, he.distinct h.distinct⟩

end Effect

theorem inv_init (c : PageCache) {p : Physical} (h : p.pmm.Ready) : Inv c.init p := by
  refine ⟨h, frameLedger_empty (fun _ => rfl) h, ?_⟩
  intro i j f o hi
  exact absurd hi.1 Bool.false_ne_true

/-- A lookup by key finds the one entry that caches the page. -/
theorem Inv.findEntry_eq (h : Inv c p) (hkey : (c.mEntries i).Caches fileId pageOffset) :
    c.findEntry fileId pageOffset = some i := by
  apply Lib.firstSlot_unique
  · simpa using hkey
  · intro j hj
    exact h.distinct j i fileId pageOffset (by simpa using hj) hkey

/-- Two active entries with one frame are the same entry. -/
theorem Inv.physical_inj (h : Inv c p) (hi : (c.mEntries i).active = true)
    (hj : (c.mEntries j).active = true) (heq : (c.mEntries i).physical = (c.mEntries j).physical) : i = j := by
  have hheld : (c.ledger p).holds j = some (c.mEntries i).physical := by
    rw [heq]
    exact CacheEntry.frame_active hj
  exact h.sound.unique (CacheEntry.frame_active hi : (c.ledger p).holds i = _) hheld

end PageCache
end UefiBoot
