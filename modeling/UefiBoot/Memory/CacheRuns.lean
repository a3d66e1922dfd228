import UefiBoot.Lib.Run
import UefiBoot.Memory.PageCache

/-!
# `Memory.CacheRuns` — when the page cache may free a frame

A run mixes `Acquire`, `Release`, `MarkDirty` and `Evict` in any order; a `Release` is made only for a frame
that some earlier `Acquire` returned and that has not been released since. Beside the cache the state keeps
what the callers know: how many `Acquire`s of each frame are outstanding, and which frame the last `Acquire`
of each page returned.

The 16-bit count of an entry is the number of outstanding `Acquire`s as long as it does not wrap.
`refSafe_iff` says that this is the whole story: the cache is safe in every state of a run exactly when no
`Acquire` hits an entry whose count is `UINT16_MAX`.
-/

namespace UefiBoot
namespace PageCache

/-- The cache, physical memory, and what the callers know. -/
structure Run where
  cache       : PageCache
  phys        : Physical
  outstanding : UInt64 → Nat := fun _ => 0
  lent        : UInt64 × UInt64 → Option UInt64 := fun _ => none

inductive Action where
  | acquire (fileId pageOffset : UInt64)
  | release (physical : UInt64)
  | markDirty (physical : UInt64)
  | evict (fileId pageOffset : UInt64)
  deriving DecidableEq, Repr

namespace Run

/-- The allocator after its `Init`, and the cache after its own. -/
def start (c : PageCache) (pmm : PhysicalMemoryManager) (image : KernelImage) (boot : BootInfo)
    (bytes : Lib.Bytes) : Run :=
  { cache := c.init, phys := { pmm := (pmm.init image boot bytes).2, bytes := bytes } }

@[simp] theorem start_cache (c : PageCache) (pmm : PhysicalMemoryManager) (image : KernelImage) (boot : BootInfo)
    (bytes : Lib.Bytes) : (start c pmm image boot bytes).cache = c.init := rfl

@[simp] theorem start_pmm (c : PageCache) (pmm : PhysicalMemoryManager) (image : KernelImage) (boot : BootInfo)
    (bytes : Lib.Bytes) : (start c pmm image boot bytes).phys.pmm = (pmm.init image boot bytes).2 := rfl

/-- One call. A `Release` without an outstanding `Acquire` of the frame is not made. -/
def step (s : Run) : Action → Run
  | .acquire fileId pageOffset =>
    let physical := (s.cache.acquire fileId pageOffset s.phys).1
    { cache := (s.cache.acquire fileId pageOffset s.phys).2.1
      phys := (s.cache.acquire fileId pageOffset s.phys).2.2
      outstanding := if physical = 0 then s.outstanding
        else Function.update s.outstanding physical (s.outstanding physical + 1)
      lent := if physical = 0 then s.lent
        else Function.update s.lent (fileId, pageOffset) (some physical) }
  | .release physical =>
    if s.outstanding physical = 0 then s
    else
      { s with
        cache := (s.cache.release physical).2
        outstanding := Function.update s.outstanding physical (s.outstanding physical - 1) }
  | .markDirty physical => { s with cache := s.cache.markDirty physical }
  | .evict fileId pageOffset =>
    { s with
      cache := (s.cache.evict fileId pageOffset s.phys).2.1
      phys := (s.cache.evict fileId pageOffset s.phys).2.2
      lent := if (s.cache.evict fileId pageOffset s.phys).1
        then Function.update s.lent (fileId, pageOffset) none else s.lent }

/-- **Reference safety.** One entry for each page; while a page is cached, an `Acquire` of it returns the
    frame that earlier ones returned; and the frame that an `Evict` would free has no outstanding `Acquire`. -/
structure RefSafe (s : Run) : Prop where
  distinct : s.cache.KeysDistinct
  same     : ∀ fileId pageOffset a, s.lent (fileId, pageOffset) = some a →
    (s.cache.acquire fileId pageOffset s.phys).1 = a
  evict    : ∀ fileId pageOffset i, s.cache.findEvictable fileId pageOffset = some i →
    s.outstanding (s.cache.mEntries i).physical = 0

/-- The count of the entry that an `Acquire` hits has room for one more. -/
def NoOverflow (s : Run) : Action → Prop
  | .acquire fileId pageOffset => ∀ i, s.cache.findEntry fileId pageOffset = some i →
      (s.cache.mEntries i).references ≠ 0xFFFF
  | _ => True

/-! ## The invariant of runs without overflow -/

/-- The counts are the outstanding `Acquire`s, and what was lent is still cached. -/
structure Counted (s : Run) : Prop where
  inv     : Inv s.cache s.phys
  count   : ∀ i, (s.cache.mEntries i).active = true →
    (s.cache.mEntries i).references.toNat = s.outstanding (s.cache.mEntries i).physical
  covered : ∀ a, s.outstanding a ≠ 0 → ∃ i, (s.cache.mEntries i).active = true ∧ (s.cache.mEntries i).physical = a
  cached  : ∀ key a, s.lent key = some a →
    ∃ i, (s.cache.mEntries i).Caches key.1 key.2 ∧ (s.cache.mEntries i).physical = a

variable {s : Run}

theorem step_release {physical : UInt64} (h : s.outstanding physical ≠ 0) :
    s.step (.release physical) =
      { s with
        cache := (s.cache.release physical).2
        outstanding := Function.update s.outstanding physical (s.outstanding physical - 1) } :=
  if_neg h

theorem step_release_none {physical : UInt64} (h : s.outstanding physical = 0) :
    s.step (.release physical) = s :=
  if_pos h

/-- A tracked frame is not null. -/
theorem Counted.nonzero (h : Counted s) {i : Fin kPageCacheEntryCount}
    (hi : (s.cache.mEntries i).active = true) : (s.cache.mEntries i).physical ≠ 0 :=
  h.inv.sound.unheld (CacheEntry.frame_active hi : (s.cache.ledger s.phys).holds i = _)

/-- An `Acquire` of a cached page returns the frame of its entry. -/
theorem acquire_cached (h : Inv s.cache s.phys) {fileId pageOffset : UInt64} {i : Fin kPageCacheEntryCount}
    (hkey : (s.cache.mEntries i).Caches fileId pageOffset) :
    (s.cache.acquire fileId pageOffset s.phys).1 = (s.cache.mEntries i).physical := by
  unfold acquire
  rw [h.findEntry_eq hkey]

theorem Counted.refSafe (h : Counted s) : RefSafe s := by
  refine ⟨h.inv.distinct, ?_, ?_⟩
  · intro fileId pageOffset a hlent
    obtain ⟨i, hkey, hphys⟩ := h.cached (fileId, pageOffset) a hlent
    rw [acquire_cached h.inv hkey, hphys]
  · intro fileId pageOffset i hfind
    obtain ⟨hkey, hzero⟩ := findEvictable_some hfind
    rw [← h.count i hkey.1, hzero]
    rfl

/-- A count with room grows by one. -/
theorem toNat_succ_of_room {r : UInt16} (h : r ≠ 0xFFFF) : (r + 1).toNat = r.toNat + 1 := by
  have hlt := r.toNat_lt
  have hne : r.toNat ≠ 65535 := fun hz => h (UInt16.toNat_inj.mp hz)
  rw [UInt16.toNat_add]
  show (r.toNat + 1) % 2 ^ 16 = r.toNat + 1
  omega

theorem toNat_pred_of_ne {r : UInt16} (h : r ≠ 0) : (r - 1).toNat = r.toNat - 1 := by
  have hne : r.toNat ≠ 0 := fun hz => h (UInt16.toNat_inj.mp hz)
  rw [UInt16.toNat_sub_of_le]
  · rfl
  · rw [UInt16.le_iff_toNat_le]
    show 1 ≤ r.toNat
    omega

section Steps

variable {fileId pageOffset physical : UInt64} {i : Fin kPageCacheEntryCount}

/-- An `Acquire` that hits entry `i`. -/
theorem step_hit (h : Inv s.cache s.phys) (hfind : s.cache.findEntry fileId pageOffset = some i) :
    s.step (.acquire fileId pageOffset) =
      { cache := s.cache.setEntry i
          ((s.cache.mEntries i).withReferences ((s.cache.mEntries i).references + 1))
        phys := s.phys
        outstanding := Function.update s.outstanding (s.cache.mEntries i).physical
          (s.outstanding (s.cache.mEntries i).physical + 1)
        lent := Function.update s.lent (fileId, pageOffset) (some (s.cache.mEntries i).physical) } := by
  have hkey := findEntry_some hfind
  have hphys := acquire_cached h hkey
  have hnz : (s.cache.mEntries i).physical ≠ 0 :=
    h.sound.unheld (CacheEntry.frame_active hkey.1 : (s.cache.ledger s.phys).holds i = _)
  unfold step
  simp only [hphys, if_neg hnz]
  unfold acquire
  rw [hfind]

/-- A hit: the count of the entry and the outstanding `Acquire`s of its frame grow together. -/
theorem Counted.hit (h : Counted s) (hfind : s.cache.findEntry fileId pageOffset = some i)
    (hroom : (s.cache.mEntries i).references ≠ 0xFFFF) :
    Counted (s.step (.acquire fileId pageOffset)) := by
  have hkey := findEntry_some hfind
  have heff : Effect s.cache s.phys (.hit i)
      (s.cache.setEntry i ((s.cache.mEntries i).withReferences ((s.cache.mEntries i).references + 1))) s.phys :=
    .hit i hkey.1
  rw [step_hit h.inv hfind]
  constructor
  · exact heff.inv h.inv
  · intro q
    dsimp only
    rw [setEntry_apply]
    by_cases hq : q = i
    · rw [if_pos hq]
      intro _
      dsimp only [CacheEntry.withReferences]
      rw [Function.update_self, toNat_succ_of_room hroom, h.count i hkey.1]
    · rw [if_neg hq]
      intro hactive
      rw [Function.update_of_ne, h.count q hactive]
      intro heq
      exact hq (h.inv.physical_inj hactive hkey.1 heq)
  · intro a ha
    dsimp only at ha ⊢
    by_cases hai : a = (s.cache.mEntries i).physical
    · refine ⟨i, ?_⟩
      rw [setEntry_apply, if_pos rfl]
      exact ⟨hkey.1, hai.symm⟩
    · rw [Function.update_of_ne hai] at ha
      obtain ⟨q, hq, hqa⟩ := h.covered a ha
      have hqi : q ≠ i := by
        rintro rfl
        exact hai hqa.symm
      refine ⟨q, ?_⟩
      rw [setEntry_apply, if_neg hqi]
      exact ⟨hq, hqa⟩
  · intro key a ha
    dsimp only at ha ⊢
    -- the entry of each page keeps its frame
    have hkeep : ∀ q, (s.cache.mEntries q).Caches key.1 key.2 → (s.cache.mEntries q).physical = a →
        ∃ j, ((s.cache.setEntry i ((s.cache.mEntries i).withReferences
          ((s.cache.mEntries i).references + 1))).mEntries j).Caches key.1 key.2 ∧
          ((s.cache.setEntry i ((s.cache.mEntries i).withReferences
            ((s.cache.mEntries i).references + 1))).mEntries j).physical = a := by
      intro q hq hqa
      refine ⟨q, ?_⟩
      rw [setEntry_apply]
      split
      · rename_i hqi
        rw [← hqi]
        exact ⟨hq, hqa⟩
      · exact ⟨hq, hqa⟩
    by_cases hkeys : key = (fileId, pageOffset)
    · subst hkeys
      rw [Function.update_self] at ha
      exact hkeep i hkey (Option.some.inj ha)
    · rw [Function.update_of_ne hkeys] at ha
      obtain ⟨q, hq, hqa⟩ := h.cached key a ha
      exact hkeep q hq hqa

/-- A miss that fills an entry: the frame is new, so nobody holds it yet. -/
theorem Counted.filled (h : Counted s) (hnz : (s.cache.acquire fileId pageOffset s.phys).1 ≠ 0)
    (heff : Effect s.cache s.phys (.filled i fileId pageOffset (s.cache.acquire fileId pageOffset s.phys).1)
      (s.cache.acquire fileId pageOffset s.phys).2.1 (s.cache.acquire fileId pageOffset s.phys).2.2) :
    Counted (s.step (.acquire fileId pageOffset)) := by
  have hinv := heff.inv h.inv
  unfold step
  simp only [if_neg hnz]
  generalize (s.cache.acquire fileId pageOffset s.phys).1 = a at heff hnz ⊢
  generalize (s.cache.acquire fileId pageOffset s.phys).2.1 = cache' at heff hinv ⊢
  generalize (s.cache.acquire fileId pageOffset s.phys).2.2 = phys' at heff hinv ⊢
  cases heff with
  | filled i fileId pageOffset a hslot hnew hgrants hbytes =>
      have hnobody : ∀ q, (s.cache.mEntries q).active = true → (s.cache.mEntries q).physical ≠ a := by
        rintro q hq rfl
        exact hgrants.not_taken
          (h.inv.sound.taken (CacheEntry.frame_active hq : (s.cache.ledger s.phys).holds q = _))
      have hzero : s.outstanding a = 0 := by
        by_contra hne
        obtain ⟨q, hq, hqa⟩ := h.covered a hne
        exact hnobody q hq hqa
      constructor
      · exact hinv
      · intro q
        dsimp only
        rw [setEntry_apply]
        by_cases hq : q = i
        · rw [if_pos hq]
          intro _
          rw [Function.update_self, hzero]
          rfl
        · rw [if_neg hq]
          intro hactive
          rw [Function.update_of_ne (hnobody q hactive)]
          exact h.count q hactive
      · intro b hb
        dsimp only at hb ⊢
        by_cases hba : b = a
        · refine ⟨i, ?_⟩
          rw [setEntry_apply, if_pos rfl]
          exact ⟨rfl, hba.symm⟩
        · rw [Function.update_of_ne hba] at hb
          obtain ⟨q, hq, hqb⟩ := h.covered b hb
          have hqi : q ≠ i := by
            rintro rfl
            rw [hq] at hslot
            exact absurd hslot (by simp)
          refine ⟨q, ?_⟩
          rw [setEntry_apply, if_neg hqi]
          exact ⟨hq, hqb⟩
      · intro key b hb
        dsimp only at hb ⊢
        by_cases hkeys : key = (fileId, pageOffset)
        · subst hkeys
          rw [Function.update_self] at hb
          refine ⟨i, ?_⟩
          rw [setEntry_apply, if_pos rfl]
          exact ⟨⟨rfl, rfl, rfl⟩, Option.some.inj hb⟩
        · rw [Function.update_of_ne hkeys] at hb
          obtain ⟨q, hq, hqb⟩ := h.cached key b hb
          have hqi : q ≠ i := by
            rintro rfl
            rw [hq.1] at hslot
            exact absurd hslot (by simp)
          refine ⟨q, ?_⟩
          rw [setEntry_apply, if_neg hqi]
          exact ⟨hq, hqb⟩

/-- A release that some `Acquire` owed: the entry still counts it. -/
theorem Counted.release (h : Counted s) (howed : s.outstanding physical ≠ 0) :
    Counted (s.step (.release physical)) := by
  obtain ⟨j, hj, hjphys⟩ := h.covered physical howed
  have hjne : (s.cache.mEntries j).references ≠ 0 := by
    intro hz
    have hcount := h.count j hj
    rw [hz, hjphys] at hcount
    exact howed hcount.symm
  rcases release_effect s.cache s.phys physical with ⟨hnone, -⟩ | ⟨i, hfind, -, heff⟩
  · exact absurd (findReferenced_none hnone j hj hjphys) hjne
  · obtain ⟨hactive, hphys, hne⟩ := findReferenced_some hfind
    have hinv := heff.inv h.inv
    rw [step_release howed]
    generalize (s.cache.release physical).2 = cache' at heff hinv ⊢
    cases heff with
    | released i hactive' hne' =>
        constructor
        · exact hinv
        · intro q
          dsimp only
          rw [setEntry_apply]
          by_cases hq : q = i
          · rw [if_pos hq]
            intro _
            dsimp only [CacheEntry.withReferences]
            rw [hphys, Function.update_self, toNat_pred_of_ne hne, h.count i hactive, hphys]
          · rw [if_neg hq]
            intro hqactive
            rw [Function.update_of_ne, h.count q hqactive]
            rw [← hphys]
            intro heq
            exact hq (h.inv.physical_inj hqactive hactive heq)
        · intro a ha
          dsimp only at ha ⊢
          have hold : s.outstanding a ≠ 0 := by
            by_cases hap : a = physical
            · rw [hap]
              exact howed
            · rwa [Function.update_of_ne hap] at ha
          obtain ⟨q, hq, hqa⟩ := h.covered a hold
          refine ⟨q, ?_⟩
          rw [setEntry_apply]
          split
          · rename_i hqi
            rw [← hqi]
            exact ⟨hq, hqa⟩
          · exact ⟨hq, hqa⟩
        · intro key a ha
          dsimp only at ha ⊢
          obtain ⟨q, hq, hqa⟩ := h.cached key a ha
          refine ⟨q, ?_⟩
          rw [setEntry_apply]
          split
          · rename_i hqi
            rw [← hqi]
            exact ⟨hq, hqa⟩
          · exact ⟨hq, hqa⟩

theorem Counted.markDirty (h : Counted s) (physical : UInt64) : Counted (s.step (.markDirty physical)) := by
  have hentry := markDirty_entry s.cache physical
  constructor
  · exact Effect.inv (.marked physical) h.inv
  · intro q hq
    show ((s.cache.markDirty physical).mEntries q).references.toNat
      = s.outstanding ((s.cache.markDirty physical).mEntries q).physical
    obtain ⟨-, -, hphys, href, hactive⟩ := hentry q
    rw [href, hphys]
    exact h.count q (hactive ▸ hq)
  · intro a ha
    obtain ⟨q, hq, hqa⟩ := h.covered a ha
    obtain ⟨-, -, hphys, -, hactive⟩ := hentry q
    exact ⟨q, hactive.trans hq, hphys.trans hqa⟩
  · intro key a ha
    obtain ⟨q, hq, hqa⟩ := h.cached key a ha
    obtain ⟨hfile, hoff, hphys, -, hactive⟩ := hentry q
    exact ⟨q, ⟨hactive.trans hq.1, hfile.trans hq.2.1, hoff.trans hq.2.2⟩, hphys.trans hqa⟩

/-- An eviction: the entry counts nobody, so nobody holds its frame. -/
theorem Counted.evict (h : Counted s) (fileId pageOffset : UInt64) :
    Counted (s.step (.evict fileId pageOffset)) := by
  rcases evict_effect h.inv fileId pageOffset with ⟨-, hfail⟩ | ⟨i, hfind, hok, heff⟩
  · unfold step
    simp only [hfail, Bool.false_eq_true, if_false]
    exact h
  · obtain ⟨hkey, -⟩ := findEvictable_some hfind
    have hinv := heff.inv h.inv
    unfold step
    simp only [if_pos hok]
    generalize (s.cache.evict fileId pageOffset s.phys).2.1 = cache' at heff hinv ⊢
    generalize (s.cache.evict fileId pageOffset s.phys).2.2 = phys' at heff hinv ⊢
    cases heff with
    | evicted i hactive hzero hreturns hbytes =>
        constructor
        · exact hinv
        · intro q
          dsimp only
          rw [setEntry_apply]
          by_cases hq : q = i
          · rw [if_pos hq]
            intro hq'
            exact absurd hq' (by simp)
          · rw [if_neg hq]
            exact h.count q
        · intro a ha
          obtain ⟨q, hq, hqa⟩ := h.covered a ha
          have hqi : q ≠ i := by
            rintro rfl
            apply ha
            rw [← hqa, ← h.count q hq, hzero]
            rfl
          refine ⟨q, ?_⟩
          dsimp only
          rw [setEntry_apply, if_neg hqi]
          exact ⟨hq, hqa⟩
        · intro key a ha
          dsimp only at ha ⊢
          by_cases hkeys : key = (fileId, pageOffset)
          · subst hkeys
            rw [Function.update_self] at ha
            exact absurd ha (by simp)
          · rw [Function.update_of_ne hkeys] at ha
            obtain ⟨q, hq, hqa⟩ := h.cached key a ha
            have hqi : q ≠ i := by
              rintro rfl
              apply hkeys
              rw [← hq.2.1.symm.trans hkey.2.1, ← hq.2.2.symm.trans hkey.2.2]
            refine ⟨q, ?_⟩
            rw [setEntry_apply, if_neg hqi]
            exact ⟨hq, hqa⟩

end Steps

/-- **Step lemma.** A step without overflow keeps the counts. -/
theorem Counted.step (h : Counted s) {a : Action} (hsafe : NoOverflow s a) : Counted (s.step a) := by
  cases a with
  | acquire fileId pageOffset =>
      rcases acquire_effect h.inv.ready s.cache fileId pageOffset with
        ⟨-, hfail⟩ | ⟨i, hfind, -⟩ | ⟨i, -, hnz, heff⟩
      · unfold Run.step
        simp only [hfail, if_true]
        exact h
      · exact h.hit hfind (hsafe i hfind)
      · exact h.filled hnz heff
  | release physical =>
      by_cases howed : s.outstanding physical = 0
      · rw [step_release_none howed]
        exact h
      · exact h.release howed
  | markDirty physical => exact h.markDirty physical
  | evict fileId pageOffset => exact h.evict fileId pageOffset

/-- An `Acquire` that overflows leaves an entry that `Evict` would free while `Acquire`s are outstanding. -/
theorem Counted.safe (h : Counted s) {a : Action} (hsafe : RefSafe (s.step a)) : NoOverflow s a := by
  cases a with
  | acquire fileId pageOffset =>
      intro i hfind hfull
      have hkey := findEntry_some hfind
      rw [step_hit h.inv hfind] at hsafe
      have hentry : (s.cache.setEntry i ((s.cache.mEntries i).withReferences
          ((s.cache.mEntries i).references + 1))).mEntries i
            = (s.cache.mEntries i).withReferences ((s.cache.mEntries i).references + 1) := by
        rw [setEntry_apply, if_pos rfl]
      have hzero : ((s.cache.mEntries i).withReferences ((s.cache.mEntries i).references + 1)).references = 0 := by
        rw [CacheEntry.withReferences_references, hfull]
        rfl
      have hcaches : ((s.cache.setEntry i ((s.cache.mEntries i).withReferences
          ((s.cache.mEntries i).references + 1))).mEntries i).Caches fileId pageOffset := by
        rw [hentry]
        exact hkey
      have hevict := hzero
      rw [← hentry] at hevict
      obtain ⟨j, hj⟩ := findEvictable_isSome hcaches hevict
      obtain rfl : j = i := hsafe.distinct j i fileId pageOffset (findEvictable_some hj).1 hcaches
      have hout := hsafe.evict fileId pageOffset j hj
      dsimp only at hout
      rw [hentry] at hout
      dsimp only [CacheEntry.withReferences] at hout
      rw [Function.update_self] at hout
      exact absurd hout (Nat.succ_ne_zero _)
  | release physical => trivial
  | markDirty physical => trivial
  | evict fileId pageOffset => trivial

/-! ## Every run -/

theorem counted_start (c : PageCache) (pmm : PhysicalMemoryManager) (image : KernelImage) {boot : BootInfo}
    (bytes : Lib.Bytes) (hb : PhysicalMemoryManager.Accepts boot) :
    Counted (start c pmm image boot bytes) := by
  refine ⟨inv_init c (PhysicalMemoryManager.ready_init pmm image bytes hb), ?_, ?_, ?_⟩
  · intro i hi
    exact absurd hi Bool.false_ne_true
  · intro a ha
    exact absurd rfl ha
  · intro key a ha
    exact absurd ha (by simp [start])

/-- **When the page cache is reference safe.** In every state of a run, exactly when no `Acquire` of the run
    hits an entry whose count is `UINT16_MAX`. -/
theorem refSafe_iff (c : PageCache) (pmm : PhysicalMemoryManager) (image : KernelImage) (boot : BootInfo)
    (bytes : Lib.Bytes) (hb : PhysicalMemoryManager.Accepts boot) (as : List Action) :
    Lib.Throughout step RefSafe (start c pmm image boot bytes) as ↔
      Lib.Along step NoOverflow (start c pmm image boot bytes) as := by
  apply Lib.throughout_iff_of_safe (B := Counted)
  · intro s a hs hsafe
    exact hs.step hsafe
  · intro s hs
    exact hs.refSafe
  · intro s a hs hsafe
    exact hs.safe hsafe
  · exact counted_start c pmm image bytes hb

/-- Two `Acquire`s of one page, one `Release`, and the `Evict` that comes too early. -/
theorem refSafe_iff_twoAcquires :
    let boot : BootInfo := ⟨{}, ⟨0x90000, 48, 48⟩, 0x200000, 0x10000⟩
    let image : KernelImage := ⟨0x300000, 0x320000, 0x321000, 0x322000⟩
    let as : List Action :=
      [.acquire 7 0, .acquire 7 0, .markDirty 0x100000, .release 0x100000, .evict 7 0, .acquire 8 4096]
    Lib.Throughout step RefSafe (start {} {} image boot fun _ => 0) as ↔
      Lib.Along step NoOverflow (start {} {} image boot fun _ => 0) as :=
  refSafe_iff _ _ _ _ _ (by decide) _

/-! ## A run that overflows -/

open PhysicalMemoryManager (smallImage smallBoot smallMap allocatePage_small)

/-- While there is room, every `Acquire` of a cached page adds one to its count. -/
theorem Counted.acquires (h : Counted s) {fileId pageOffset : UInt64} {i : Fin kPageCacheEntryCount}
    (hkey : (s.cache.mEntries i).Caches fileId pageOffset) (n : Nat)
    (hroom : (s.cache.mEntries i).references.toNat + n ≤ 0xFFFF) :
    let t := Lib.run Run.step s (List.replicate n (.acquire fileId pageOffset))
    Counted t ∧ (t.cache.mEntries i).Caches fileId pageOffset ∧
      (t.cache.mEntries i).references.toNat = (s.cache.mEntries i).references.toNat + n := by
  induction n generalizing s with
  | zero => exact ⟨h, hkey, rfl⟩
  | succ n ih =>
      have hfind := h.inv.findEntry_eq hkey
      have hne : (s.cache.mEntries i).references ≠ 0xFFFF := by
        intro heq
        rw [heq] at hroom
        have : (0xFFFF : UInt16).toNat = 0xFFFF := rfl
        omega
      have hentry : ((s.step (.acquire fileId pageOffset)).cache.mEntries i) =
          (s.cache.mEntries i).withReferences ((s.cache.mEntries i).references + 1) := by
        rw [step_hit h.inv hfind]
        exact (setEntry_apply ..).trans (if_pos rfl)
      have hcount : ((s.step (.acquire fileId pageOffset)).cache.mEntries i).references.toNat =
          (s.cache.mEntries i).references.toNat + 1 := by
        rw [hentry, CacheEntry.withReferences_references, toNat_succ_of_room hne]
      obtain ⟨hcounted, hcaches, hrefs⟩ :=
        ih (s := s.step (.acquire fileId pageOffset)) (h.hit hfind hne)
          (by rw [hentry]; exact hkey) (by rw [hcount]; omega)
      rw [List.replicate_succ, Lib.run_cons]
      refine ⟨hcounted, hcaches, ?_⟩
      rw [hrefs, hcount]
      omega

/-- The first `Acquire` of all caches its page with count one, when a frame is free. -/
theorem Counted.first (h : Counted s) (hempty : s.cache = PageCache.init {}) (hpage : s.phys.pmm.allocatePage.1 ≠ 0)
    (fileId pageOffset : UInt64) :
    Counted (s.step (.acquire fileId pageOffset)) ∧
    ∃ i, ((s.step (.acquire fileId pageOffset)).cache.mEntries i).Caches fileId pageOffset ∧
      ((s.step (.acquire fileId pageOffset)).cache.mEntries i).references = 1 := by
  have hnone : s.cache.findEntry fileId pageOffset = none := by
    apply Lib.firstSlot_eq_none_iff.mpr
    intro i
    rw [hempty]
    exact decide_eq_false fun hkey => Bool.false_ne_true hkey.1
  obtain ⟨i, hslot⟩ : ∃ i, s.cache.findFreeEntry = some i := by
    apply Lib.exists_firstSlot (i := ⟨0, by decide⟩)
    rw [hempty]
    rfl
  have hacquire : s.cache.acquire fileId pageOffset s.phys = (s.phys.allocatePage.1,
      s.cache.setEntry i ⟨fileId, pageOffset, s.phys.allocatePage.1, 1, false, true⟩,
      s.phys.allocatePage.2.clearPage s.phys.allocatePage.1) := by
    unfold acquire
    rw [hnone]
    dsimp only
    rw [hslot]
    dsimp only
    rw [hempty]
    exact if_neg hpage
  have hcounted : Counted (s.step (.acquire fileId pageOffset)) := by
    apply h.step
    intro j hj
    rw [hnone] at hj
    exact absurd hj (by simp)
  refine ⟨hcounted, i, ?_⟩
  have hentry : (s.step (.acquire fileId pageOffset)).cache.mEntries i =
      ⟨fileId, pageOffset, s.phys.allocatePage.1, 1, false, true⟩ := by
    show (s.cache.acquire fileId pageOffset s.phys).2.1.mEntries i = _
    rw [hacquire]
    exact (setEntry_apply ..).trans (if_pos rfl)
  rw [hentry]
  exact ⟨⟨rfl, rfl, rfl⟩, rfl⟩

/-- After `2 ^ 16` calls of `Acquire` for one page and no `Release`, the count is zero again. -/
theorem overflow_evictable :
    ¬ Lib.Throughout Run.step RefSafe (start {} {} smallImage smallBoot smallMap)
      (List.replicate 0x10000 (.acquire 7 0)) := by
  have hstart := counted_start {} {} smallImage smallMap (show PhysicalMemoryManager.Accepts smallBoot by decide)
  have hpage : (start {} {} smallImage smallBoot smallMap).phys.pmm.allocatePage.1 ≠ 0 := by
    rw [start_pmm]
    exact (allocatePage_small _).1
  obtain ⟨hfirst, i, hkey, hone⟩ := hstart.first (start_cache ..) hpage 7 0
  rw [show 0x10000 = 1 + (0xFFFE + 1) by rfl, List.replicate_add, List.replicate_one, List.singleton_append]
  rintro ⟨-, ht⟩
  generalize (start {} {} smallImage smallBoot smallMap).step (.acquire 7 0) = s at hfirst hkey hone ht
  have honeNat : (s.cache.mEntries i).references.toNat = 1 := by
    rw [hone]
    rfl
  obtain ⟨hcounted, hcaches, hrefs⟩ := hfirst.acquires hkey 0xFFFE (by omega)
  -- the last call meets a full count
  rw [List.replicate_succ'] at ht
  have hlast := ht.last
  rw [Lib.run_append] at hlast
  have hroom : NoOverflow _ (.acquire 7 0) := hcounted.safe hlast
  apply hroom i (hcounted.inv.findEntry_eq hcaches)
  apply UInt16.toNat_inj.mp
  rw [hrefs, honeNat]
  rfl

end Run
end PageCache
end UefiBoot
