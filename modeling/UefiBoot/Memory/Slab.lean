import UefiBoot.Lib.Linked
import UefiBoot.Lib.Select
import UefiBoot.Memory.Frames

/-!
# `Memory.Slab` — `SlabAllocator`, objects of four sizes cut from pages

Each cache has one page and cuts it into objects of its size. The free objects are a list threaded through the
objects themselves: the first word of each points at the next. `Allocate` takes the first, `Free` puts one back in
front, and `GrowCache`, the only function that asks for a page, threads the whole page.

`Filled` is what a cache and its page satisfy: the list has nodes, and these and the objects in use are together the
slots of the page, each once. Everything a client can rely on follows from it (`Memory.SlabRuns`).
-/

namespace UefiBoot

/-- `SlabAllocator::SlabCache`. -/
structure SlabCache where
  objectSize   : UInt64 := 0
  page         : UInt64 := 0
  freeList     : UInt64 := 0
  totalObjects : UInt64 := 0
  freeObjects  : UInt64 := 0
  deriving DecidableEq, Repr

namespace SlabCache

/-- The page of a cache. -/
def frame (cache : SlabCache) : Option UInt64 := if cache.page = 0 then none else some cache.page

/-- `base + i * object_size` for the objects of a page. Irreducible: a page has up to 128 objects. -/
@[irreducible] def objects (page objectSize : UInt64) : List UInt64 :=
  (List.range (kPageSize / objectSize).toNat).map fun i => page + UInt64.ofNat i * objectSize

def contains (cache : SlabCache) (object : UInt64) : Bool :=
  cache.page != 0 && decide (object ≥ cache.page) && decide (object < cache.page + kPageSize)

/-- `Allocate` once the list is not empty: its node, and the cache without it. -/
@[simps] def take (cache : SlabCache) (bytes : Lib.Bytes) : SlabCache :=
  { cache with freeList := bytes.load64 cache.freeList, freeObjects := cache.freeObjects - 1 }

/-- `Free` of an object of the page. -/
@[simps] def give (cache : SlabCache) (object : UInt64) : SlabCache :=
  { cache with freeList := object, freeObjects := cache.freeObjects + 1 }

/-- The loop of `GrowCache`: the list it threads through the page, as memory and the first node. -/
def threaded (cache : SlabCache) (page : UInt64) (bytes : Lib.Bytes) : Lib.Bytes × UInt64 :=
  (objects page cache.objectSize).foldl Lib.Bytes.pushNode (bytes, 0)

/-- `GrowCache` once it has a page: the list and the counters. -/
@[simps] def grown (cache : SlabCache) (page freeList : UInt64) : SlabCache :=
  { cache with
    page
    freeList
    totalObjects := kPageSize / cache.objectSize
    freeObjects := kPageSize / cache.objectSize }

end SlabCache

structure SlabAllocator where
  mPhysicalMemory : Bool := false
  mCaches         : Fin kSlabCacheCount → SlabCache := fun _ => {}

namespace SlabAllocator

/-- `sizes` of `Init`. -/
def sizes : Fin kSlabCacheCount → UInt64 := ![32, 64, 128, 256]

def init (_m : SlabAllocator) : SlabAllocator :=
  { mPhysicalMemory := true, mCaches := fun i => { objectSize := sizes i } }

/-- Write one cache of the table. -/
@[simps] def setCache (m : SlabAllocator) (i : Fin kSlabCacheCount) (cache : SlabCache) : SlabAllocator :=
  { m with mCaches := Function.update m.mCaches i cache }

theorem setCache_apply (m : SlabAllocator) (i q : Fin kSlabCacheCount) (cache : SlabCache) :
    (m.setCache i cache).mCaches q = if q = i then cache else m.mCaches q := Function.update_apply ..

def findCache (m : SlabAllocator) (size : UInt64) : Option (Fin kSlabCacheCount) :=
  Lib.firstSlot fun i => decide (size ≤ (m.mCaches i).objectSize)

def growCache (m : SlabAllocator) (i : Fin kSlabCacheCount) (p : Physical) : Bool × SlabAllocator × Physical :=
  let cache := m.mCaches i
  if !m.mPhysicalMemory ∨ cache.page ≠ 0 then (false, m, p)
  else
    let (page, p) := p.allocatePage
    if page = 0 then (false, m, p)
    else
      let (bytes, freeList) := cache.threaded page p.bytes
      (true, m.setCache i (cache.grown page freeList), { p with bytes })

/-- The loop of `Prime` over `caches`. -/
def primeLoop (m : SlabAllocator) (p : Physical) : List (Fin kSlabCacheCount) → Bool × SlabAllocator × Physical
  | []          => (true, m, p)
  | i :: caches =>
    let (ok, m, p) := m.growCache i p
    if !ok then (false, m, p) else m.primeLoop p caches

def prime (m : SlabAllocator) (p : Physical) : Bool × SlabAllocator × Physical :=
  m.primeLoop p (List.finRange kSlabCacheCount)

/-- The answer is an object, or null. -/
def allocate (m : SlabAllocator) (size : UInt64) (p : Physical) : UInt64 × SlabAllocator × Physical :=
  match m.findCache size with
  | none   => (0, m, p)
  | some i =>
    let (ok, m, p) := if (m.mCaches i).freeList = 0 then m.growCache i p else (true, m, p)
    if !ok then (0, m, p)
    else ((m.mCaches i).freeList, m.setCache i ((m.mCaches i).take p.bytes), p)

def free (m : SlabAllocator) (object size : UInt64) (p : Physical) : Bool × SlabAllocator × Physical :=
  if object = 0 then (false, m, p)
  else
    match m.findCache size with
    | none   => (false, m, p)
    | some i =>
      let cache := m.mCaches i
      if !cache.contains object then (false, m, p)
      else (true, m.setCache i (cache.give object), { p with bytes := p.bytes.store64 object cache.freeList })

end SlabAllocator

/-! ## The slots of a page -/

/-- A size that cuts a page into slots without a rest, each a number of words. -/
structure IsObjectSize (size : UInt64) : Prop where
  words   : 8 ∣ size.toNat
  divides : size.toNat ∣ 4096

theorem isObjectSize_sizes (i : Fin kSlabCacheCount) : IsObjectSize (SlabAllocator.sizes i) := by
  constructor
  · revert i
    decide
  · revert i
    decide

section Slots

variable {page size a b : UInt64} {k : Nat}

theorem IsObjectSize.pos (h : IsObjectSize size) : 0 < size.toNat := Nat.pos_of_dvd_of_pos h.divides (by decide)

theorem IsObjectSize.mul_div (h : IsObjectSize size) : size.toNat * (4096 / size.toNat) = 4096 :=
  Nat.mul_div_cancel' h.divides

theorem IsObjectSize.word_le (h : IsObjectSize size) : 8 ≤ size.toNat := Nat.le_of_dvd h.pos h.words

/-- A slot ends at or before the end of the page. -/
theorem IsObjectSize.slot_end (h : IsObjectSize size) (hk : k < 4096 / size.toNat) :
    k * size.toNat + size.toNat ≤ 4096 := by
  have hle : (k + 1) * size.toNat ≤ 4096 / size.toNat * size.toNat := Nat.mul_le_mul_right _ hk
  rw [Nat.mul_comm (4096 / size.toNat), h.mul_div, Nat.add_mul, Nat.one_mul] at hle
  exact hle

theorem IsFrame.toNat_lt (h : IsFrame a) : a.toNat + 4096 ≤ 2 ^ 32 := by
  have hN := kManagedPageCount_eq
  obtain ⟨hal, hlt⟩ := h
  unfold pageOf at hlt
  omega

theorem toNat_slot (hpage : IsFrame page) (hsize : IsObjectSize size) (hk : k < 4096 / size.toNat) :
    (page + UInt64.ofNat k * size).toNat = page.toNat + k * size.toNat := by
  have hend := hsize.slot_end hk
  have hlt := hpage.toNat_lt
  have hle : k ≤ k * size.toNat := Nat.le_mul_of_pos_right k hsize.pos
  have hval : (UInt64.ofNat k).toNat = k := UInt64.toNat_ofNat_of_lt' (show k < 2 ^ 64 by omega)
  rw [UInt64.toNat_add, UInt64.toNat_mul, hval]
  omega

/-- The objects of a page are its slots. -/
theorem mem_objects (hpage : IsFrame page) (hsize : IsObjectSize size) :
    a ∈ SlabCache.objects page size ↔ ∃ k < 4096 / size.toNat, a.toNat = page.toNat + k * size.toNat := by
  unfold SlabCache.objects
  rw [UInt64.toNat_div, toNat_kPageSize, List.mem_map]
  constructor
  · rintro ⟨k, hk, rfl⟩
    rw [List.mem_range] at hk
    exact ⟨k, hk, toNat_slot hpage hsize hk⟩
  · rintro ⟨k, hk, hval⟩
    refine ⟨k, List.mem_range.mpr hk, UInt64.toNat_inj.mp ?_⟩
    rw [toNat_slot hpage hsize hk, hval]

theorem length_objects : (SlabCache.objects page size).length = 4096 / size.toNat := by
  unfold SlabCache.objects
  rw [List.length_map, List.length_range, UInt64.toNat_div, toNat_kPageSize]

theorem nodup_objects (hpage : IsFrame page) (hsize : IsObjectSize size) : (SlabCache.objects page size).Nodup := by
  unfold SlabCache.objects
  rw [UInt64.toNat_div, toNat_kPageSize]
  apply List.Nodup.map_on _ List.nodup_range
  intro k hk q hq heq
  have hval := congrArg UInt64.toNat heq
  rw [toNat_slot hpage hsize (List.mem_range.mp hk), toNat_slot hpage hsize (List.mem_range.mp hq)] at hval
  exact Nat.eq_of_mul_eq_mul_right hsize.pos (by omega)

/-- Slots start at multiples of their size. -/
theorem dvd_of_mem_objects (hpage : IsFrame page) (hsize : IsObjectSize size) (ha : a ∈ SlabCache.objects page size) :
    size.toNat ∣ a.toNat := by
  obtain ⟨k, -, hval⟩ := (mem_objects hpage hsize).mp ha
  rw [hval]
  exact (hsize.divides.trans (Nat.dvd_of_mod_eq_zero hpage.1)).add (Nat.dvd_mul_left _ _)

/-- A slot lies in its page. -/
theorem mem_page_of_mem_slot (hpage : IsFrame page) (hsize : IsObjectSize size) (ha : a ∈ SlabCache.objects page size)
    (hb : b ∈ Lib.ByteRange.mk a size.toNat) : b ∈ Lib.ByteRange.mk page 4096 := by
  obtain ⟨k, hk, hval⟩ := (mem_objects hpage hsize).mp ha
  have hend := hsize.slot_end hk
  have hlt := hpage.toNat_lt
  rw [Lib.ByteRange.mem_iff, UInt64.toNat_sub] at hb ⊢
  dsimp only at hb ⊢
  have hblt := b.toNat_lt
  omega

/-- Two slots share no byte. -/
theorem slots_apart (hpage : IsFrame page) (hsize : IsObjectSize size) (ha : a ∈ SlabCache.objects page size)
    (hb : b ∈ SlabCache.objects page size) (hne : a ≠ b) :
    (Lib.ByteRange.mk a size.toNat).Apart (Lib.ByteRange.mk b size.toNat) := by
  have hordered : ∀ {a b : UInt64}, a ∈ SlabCache.objects page size → b ∈ SlabCache.objects page size →
      a.toNat < b.toNat → (Lib.ByteRange.mk a size.toNat).Apart (Lib.ByteRange.mk b size.toNat) := by
    intro a b ha hb hlt
    obtain ⟨k, hk, hka⟩ := (mem_objects hpage hsize).mp ha
    obtain ⟨q, hq, hqb⟩ := (mem_objects hpage hsize).mp hb
    have hend := hsize.slot_end hk
    have hend' := hsize.slot_end hq
    have hframe := hpage.toNat_lt
    have hkq : k < q := by
      by_contra hle
      have := Nat.mul_le_mul_right size.toNat (Nat.le_of_not_lt hle)
      omega
    have hnext : (k + 1) * size.toNat ≤ q * size.toNat := Nat.mul_le_mul_right _ hkq
    rw [Nat.add_mul, Nat.one_mul] at hnext
    apply Lib.ByteRange.apart_of_le
    · show a.toNat + size.toNat ≤ 2 ^ 64
      omega
    · show b.toNat + size.toNat ≤ 2 ^ 64
      omega
    · show a.toNat + size.toNat ≤ b.toNat
      omega
  have hval : a.toNat ≠ b.toNat := fun h => hne (UInt64.toNat_inj.mp h)
  rcases Nat.lt_or_gt_of_ne hval with hlt | hgt
  · exact hordered ha hb hlt
  · exact (hordered hb ha hgt).symm

/-- Two frames share no byte. -/
theorem IsFrame.ranges_apart (ha : IsFrame a) (hb : IsFrame b) (hne : a ≠ b) :
    (Lib.ByteRange.mk a 4096).Apart (Lib.ByteRange.mk b 4096) := by
  obtain ⟨hab, hba⟩ := ha.apart hb hne
  intro c hca hcb
  rw [Lib.ByteRange.mem_iff, UInt64.toNat_sub] at hca hcb
  rw [UInt64.toNat_sub] at hab hba
  dsimp only at hca hcb
  have halt := a.toNat_lt
  have hblt := b.toNat_lt
  have hclt := c.toNat_lt
  omega

end Slots

/-! ## What the caches satisfy -/

namespace SlabCache

/-- The slots that a cache has. -/
def slots (cache : SlabCache) : List UInt64 := if cache.page = 0 then [] else objects cache.page cache.objectSize

/-- **A cache and its page.** The list has the nodes `nodes`; these and the objects in use are the slots. -/
structure Filled (bytes : Lib.Bytes) (cache : SlabCache) (live nodes : List UInt64) : Prop where
  linked : bytes.Linked cache.freeList nodes
  slots  : (nodes ++ live).Perm cache.slots
  free   : cache.freeObjects.toNat = nodes.length
  total  : cache.totalObjects.toNat = cache.slots.length

variable {cache : SlabCache} {bytes bytes' : Lib.Bytes} {live rest nodes : List UInt64} {a page : UInt64}

theorem frame_page (h : cache.page ≠ 0) : cache.frame = some cache.page := if_neg h

theorem frame_some (h : cache.frame = some a) : cache.page ≠ 0 ∧ cache.page = a := by
  unfold frame at h
  split at h
  · exact absurd h (by simp)
  · rename_i hne
    exact ⟨hne, Option.some.inj h⟩

theorem slots_page (h : cache.page ≠ 0) : cache.slots = objects cache.page cache.objectSize := if_neg h

theorem slots_none (h : cache.page = 0) : cache.slots = [] := if_pos h

@[simp] theorem slots_take (cache : SlabCache) (bytes : Lib.Bytes) : (cache.take bytes).slots = cache.slots := by
  unfold slots take
  rfl

@[simp] theorem slots_give (cache : SlabCache) (a : UInt64) : (cache.give a).slots = cache.slots := by
  unfold slots give
  rfl

@[simp] theorem frame_take (cache : SlabCache) (bytes : Lib.Bytes) : (cache.take bytes).frame = cache.frame := by
  unfold frame take
  rfl

@[simp] theorem frame_give (cache : SlabCache) (a : UInt64) : (cache.give a).frame = cache.frame := by
  unfold frame give
  rfl

/-- A cache that has a slot has a page. -/
theorem page_of_mem (h : a ∈ cache.slots) : cache.page ≠ 0 := by
  intro hzero
  rw [slots_none hzero] at h
  exact absurd h (by simp)

namespace Filled

theorem node_mem (h : Filled bytes cache live nodes) (ha : a ∈ nodes) : a ∈ cache.slots :=
  h.slots.mem_iff.mp (List.mem_append_left _ ha)

theorem live_mem (h : Filled bytes cache live nodes) (ha : a ∈ live) : a ∈ cache.slots :=
  h.slots.mem_iff.mp (List.mem_append_right _ ha)

/-- Only the words at the nodes matter. -/
theorem congr (h : Filled bytes cache live nodes) (hsame : ∀ b ∈ nodes, bytes'.load64 b = bytes.load64 b) :
    Filled bytes' cache live nodes :=
  ⟨h.linked.congr hsame, h.slots, h.free, h.total⟩

/-- In which order the objects in use are listed does not matter. -/
theorem perm (h : Filled bytes cache live nodes) (hperm : live.Perm rest) : Filled bytes cache rest nodes :=
  ⟨h.linked, (hperm.append_left nodes).symm.trans h.slots, h.free, h.total⟩

/-- `Allocate` takes the first node. -/
theorem take (h : Filled bytes cache live nodes) (hlist : cache.freeList ≠ 0) :
    ∃ rest, nodes = cache.freeList :: rest ∧ Filled bytes (cache.take bytes) (cache.freeList :: live) rest := by
  obtain ⟨rest, rfl, hrest⟩ := h.linked.pop hlist
  have hfree := h.free
  rw [List.length_cons] at hfree
  have hone : (1 : UInt64).toNat = 1 := rfl
  have hle : 1 ≤ cache.freeObjects := by
    rw [UInt64.le_iff_toNat_le, hone]
    omega
  have hcount : (cache.freeObjects - 1).toNat = rest.length := by
    rw [UInt64.toNat_sub_of_le _ _ hle, hone]
    omega
  refine ⟨rest, rfl, hrest, ?_, hcount, ?_⟩
  · rw [slots_take]
    exact List.perm_middle.trans h.slots
  · rw [slots_take, take_totalObjects]
    exact h.total

/-- `Free` puts the object in front. -/
theorem give (h : Filled bytes cache (a :: live) nodes) (hpage : IsFrame cache.page)
    (hsize : IsObjectSize cache.objectSize) :
    Filled (bytes.store64 a cache.freeList) (cache.give a) live (a :: nodes) := by
  have ha : a ∈ cache.slots := h.live_mem List.mem_cons_self
  have hne := page_of_mem ha
  have hal : ∀ c ∈ cache.slots, c.toNat % 8 = 0 := by
    intro c hc
    rw [slots_page hne] at hc
    exact Nat.mod_eq_zero_of_dvd (hsize.words.trans (dvd_of_mem_objects hpage hsize hc))
  have hnodup : (nodes ++ a :: live).Nodup := by
    rw [h.slots.nodup_iff, slots_page hne]
    exact nodup_objects hpage hsize
  have hnot : a ∉ nodes := fun hmem => (List.nodup_append.mp hnodup).2.2 a hmem a List.mem_cons_self rfl
  have hslot := ha
  rw [slots_page hne] at hslot
  constructor
  · apply h.linked.push
    · exact fun c hc => hal c (h.node_mem hc)
    · exact hal a ha
    · -- the page is not page 0, and a slot does not start before its page
      rintro rfl
      obtain ⟨k, -, hval⟩ := (mem_objects hpage hsize).mp hslot
      have hzero : (0 : UInt64).toNat = 0 := rfl
      apply hne
      apply UInt64.toNat_inj.mp
      omega
    · exact hnot
  · rw [slots_give]
    exact List.perm_middle.symm.trans h.slots
  · have hlen := h.slots.length_eq
    rw [slots_page hne, length_objects, List.length_append, List.length_cons] at hlen
    have hbound : 4096 / cache.objectSize.toNat ≤ 4096 := Nat.div_le_self _ _
    have hone : (1 : UInt64).toNat = 1 := rfl
    show (cache.freeObjects + 1).toNat = nodes.length + 1
    rw [UInt64.toNat_add, h.free]
    omega
  · rw [slots_give, give_totalObjects]
    exact h.total

/-- `GrowCache` threads a whole page. -/
theorem grown (hempty : cache.page = 0) (h : Filled bytes cache live nodes) (hpage : IsFrame page) (hnz : page ≠ 0)
    (hsize : IsObjectSize cache.objectSize) :
    live = [] ∧
    Filled (cache.threaded page bytes).1 (cache.grown page (cache.threaded page bytes).2) live
      (objects page cache.objectSize).reverse := by
  have hnone := h.slots.length_eq
  rw [slots_none hempty, List.length_append, List.length_nil] at hnone
  have hlive : live = [] := List.eq_nil_of_length_eq_zero (by omega)
  have hlen : (kPageSize / cache.objectSize).toNat = (objects page cache.objectSize).length := by
    rw [length_objects, UInt64.toNat_div, toNat_kPageSize]
  refine ⟨hlive, ?_, ?_, ?_, ?_⟩
  · have hlinked : bytes.Linked 0 [] := rfl
    have hall := hlinked.push_all (objects page cache.objectSize) ?_ ?_ ?_
    · rw [List.append_nil] at hall
      exact hall
    · intro c hc
      rw [List.append_nil] at hc
      exact Nat.mod_eq_zero_of_dvd (hsize.words.trans (dvd_of_mem_objects hpage hsize hc))
    · rintro c hc rfl
      obtain ⟨k, -, hval⟩ := (mem_objects hpage hsize).mp hc
      have hzero : (0 : UInt64).toNat = 0 := rfl
      apply hnz
      apply UInt64.toNat_inj.mp
      omega
    · rw [List.append_nil]
      exact nodup_objects hpage hsize
  · rw [hlive, List.append_nil]
    show (objects page cache.objectSize).reverse.Perm (if page = 0 then [] else objects page cache.objectSize)
    rw [if_neg hnz]
    exact List.reverse_perm _
  · show (kPageSize / cache.objectSize).toNat = _
    rw [List.length_reverse, hlen]
  · show (kPageSize / cache.objectSize).toNat = (if page = 0 then [] else objects page cache.objectSize).length
    rw [if_neg hnz, hlen]

/-- The word at a node lies in its slot. -/
theorem word_mem_slot (hsize : IsObjectSize cache.objectSize) {b : UInt64} (hb : b ∈ Lib.ByteRange.mk a 8) :
    b ∈ Lib.ByteRange.mk a cache.objectSize.toNat := by
  have hword := hsize.word_le
  rw [Lib.ByteRange.mem_iff] at hb ⊢
  dsimp only at hb ⊢
  omega

/-- A change outside the slots of the nodes. -/
theorem outside (h : Filled bytes cache live nodes) (hsize : IsObjectSize cache.objectSize)
    (hsame : ∀ a ∈ nodes, ∀ b ∈ Lib.ByteRange.mk a cache.objectSize.toNat, bytes' b = bytes b) :
    Filled bytes' cache live nodes := by
  apply h.congr
  intro a ha
  apply Lib.Bytes.load64_congr
  intro b hb
  exact hsame a ha b (word_mem_slot hsize hb)

/-- A change outside the page. -/
theorem elsewhere (h : Filled bytes cache live nodes) (hsize : IsObjectSize cache.objectSize)
    (hpage : cache.page ≠ 0 → IsFrame cache.page)
    (hsame : cache.page ≠ 0 → ∀ b ∈ Lib.ByteRange.mk cache.page 4096, bytes' b = bytes b) :
    Filled bytes' cache live nodes := by
  apply h.outside hsize
  intro a ha b hb
  have hslot := h.node_mem ha
  have hne := page_of_mem hslot
  rw [slots_page hne] at hslot
  exact hsame hne b (mem_page_of_mem_slot (hpage hne) hsize hslot hb)

end Filled
end SlabCache

/-! ## What an operation can do -/

namespace SlabAllocator

variable {m m' : SlabAllocator} {p p' : Physical} {i q : Fin kSlabCacheCount} {size object page : UInt64}
  {live : Fin kSlabCacheCount → List UInt64}

/-- The pages of the caches, over the frames the allocator has handed out. -/
def ledger (m : SlabAllocator) (p : Physical) : Lib.Ledger (Fin kSlabCacheCount) UInt64 :=
  frameLedger SlabCache.frame m.mCaches p.pmm

/-- The caches, the allocator and the objects in use fit together. -/
structure Inv (m : SlabAllocator) (p : Physical) (live : Fin kSlabCacheCount → List UInt64) : Prop where
  ready  : p.pmm.Ready
  sound  : (m.ledger p).Sound 0
  sizes  : ∀ i, (m.mCaches i).objectSize = sizes i
  filled : ∀ i, ∃ nodes, (m.mCaches i).Filled p.bytes (live i) nodes

/-- What an operation did, and to which cache. -/
inductive Change where
  | grown (i : Fin kSlabCacheCount) (page : UInt64)
  | taken (i : Fin kSlabCacheCount) (object : UInt64)
  | given (i : Fin kSlabCacheCount) (object : UInt64)
  deriving DecidableEq, Repr

/-- **Everything that is done to a cache and to memory.** `Allocate` may do two of these. -/
inductive Effect (m : SlabAllocator) (p : Physical) : Change → SlabAllocator → Physical → Prop
  | grown {p' : Physical} (i : Fin kSlabCacheCount) (page : UInt64) (hempty : (m.mCaches i).page = 0)
      (hgrants : p.pmm.Grants p'.pmm page) (hbytes : p'.bytes = ((m.mCaches i).threaded page p.bytes).1) :
      Effect m p (.grown i page)
        (m.setCache i ((m.mCaches i).grown page ((m.mCaches i).threaded page p.bytes).2)) p'
  | taken (i : Fin kSlabCacheCount) (hlist : (m.mCaches i).freeList ≠ 0) :
      Effect m p (.taken i (m.mCaches i).freeList) (m.setCache i ((m.mCaches i).take p.bytes)) p
  | given (i : Fin kSlabCacheCount) (object : UInt64) :
      Effect m p (.given i object) (m.setCache i ((m.mCaches i).give object))
        { p with bytes := p.bytes.store64 object (m.mCaches i).freeList }

/-- **`GrowCache`** fails and changes nothing, or gives an empty cache a page. -/
theorem growCache_cases (hready : p.pmm.Ready) (m : SlabAllocator) (i : Fin kSlabCacheCount) :
    m.growCache i p = (false, m, p) ∧
      (m.mPhysicalMemory = true → (m.mCaches i).page = 0 → p.pmm.allocatePage.1 = 0) ∨
    (m.growCache i p).1 = true ∧
      Effect m p (.grown i p.pmm.allocatePage.1) (m.growCache i p).2.1 (m.growCache i p).2.2 := by
  unfold growCache
  dsimp only
  by_cases hbad : !m.mPhysicalMemory ∨ (m.mCaches i).page ≠ 0
  · rw [if_pos hbad]
    refine Or.inl ⟨rfl, fun hpmm hempty => ?_⟩
    rcases hbad with hbad | hbad
    · rw [hpmm] at hbad
      exact absurd hbad (by simp)
    · exact absurd hempty hbad
  · rw [if_neg hbad]
    by_cases hz : p.allocatePage.1 = 0
    · rw [if_pos hz, Physical.allocatePage_failed hready hz]
      exact Or.inl ⟨rfl, fun _ _ => hz⟩
    · rw [if_neg hz]
      have hempty : (m.mCaches i).page = 0 := by
        by_contra hne
        exact hbad (Or.inr hne)
      exact Or.inr ⟨rfl, .grown i _ hempty (Physical.allocatePage_grants hready hz) rfl⟩

/-! ## What an effect keeps -/

namespace Inv

theorem objectSize (h : Inv m p live) (i : Fin kSlabCacheCount) : IsObjectSize (m.mCaches i).objectSize := by
  rw [h.sizes]
  exact isObjectSize_sizes i

theorem holds_page (h : (m.mCaches i).page ≠ 0) : (m.ledger p).holds i = some (m.mCaches i).page :=
  SlabCache.frame_page h

theorem isFrame (h : Inv m p live) (hne : (m.mCaches i).page ≠ 0) : IsFrame (m.mCaches i).page :=
  (h.sound.taken (holds_page hne)).1

/-- The pages of two caches share no byte. -/
theorem pages_apart (h : Inv m p live) (hi : (m.mCaches i).page ≠ 0) (hq : (m.mCaches q).page ≠ 0) (hne : i ≠ q) :
    (Lib.ByteRange.mk (m.mCaches i).page 4096).Apart (Lib.ByteRange.mk (m.mCaches q).page 4096) := by
  apply (h.isFrame hi).ranges_apart (h.isFrame hq)
  intro heq
  apply hne
  have hholds := @holds_page m p q hq
  rw [← heq] at hholds
  exact h.sound.unique (holds_page hi) hholds

/-- A slot of a cache. -/
theorem mem_objects (h : Inv m p live) {a : UInt64} (ha : a ∈ (m.mCaches i).slots) :
    (m.mCaches i).page ≠ 0 ∧ IsFrame (m.mCaches i).page ∧
    a ∈ SlabCache.objects (m.mCaches i).page (m.mCaches i).objectSize := by
  have hne := SlabCache.page_of_mem ha
  rw [SlabCache.slots_page hne] at ha
  exact ⟨hne, h.isFrame hne, ha⟩

/-- Slots of different caches, or different slots of one, share no byte. -/
theorem slots_apart (h : Inv m p live) {a b : UInt64} (ha : a ∈ (m.mCaches i).slots) (hb : b ∈ (m.mCaches q).slots)
    (hne : i ≠ q ∨ a ≠ b) :
    (Lib.ByteRange.mk a (m.mCaches i).objectSize.toNat).Apart (Lib.ByteRange.mk b (m.mCaches q).objectSize.toNat) := by
  obtain ⟨hi, hpage, hslot⟩ := h.mem_objects ha
  obtain ⟨hq, hpage', hslot'⟩ := h.mem_objects hb
  by_cases hiq : i = q
  · subst hiq
    exact UefiBoot.slots_apart hpage (h.objectSize i) hslot hslot' (hne.resolve_left fun hself => hself rfl)
  · intro c hca hcb
    exact h.pages_apart hi hq hiq c (mem_page_of_mem_slot hpage (h.objectSize i) hslot hca)
      (mem_page_of_mem_slot hpage' (h.objectSize q) hslot' hcb)

/-- The free objects and those in use are different slots. -/
theorem nodup (h : Inv m p live) {nodes : List UInt64} (hnodes : (m.mCaches i).Filled p.bytes (live i) nodes) :
    (nodes ++ live i).Nodup := by
  rw [hnodes.slots.nodup_iff]
  by_cases hne : (m.mCaches i).page = 0
  · rw [SlabCache.slots_none hne]
    exact List.nodup_nil
  · rw [SlabCache.slots_page hne]
    exact nodup_objects (h.isFrame hne) (h.objectSize i)

/-- A free object is not in use, here or in another cache. -/
theorem node_apart (h : Inv m p live) {nodes : List UInt64} {node : UInt64}
    (hnodes : (m.mCaches i).Filled p.bytes (live i) nodes) (hnode : node ∈ nodes) (hlive : object ∈ live q) :
    (Lib.ByteRange.mk node (m.mCaches i).objectSize.toNat).Apart
      (Lib.ByteRange.mk object (m.mCaches q).objectSize.toNat) := by
  obtain ⟨nodes', hnodes'⟩ := h.filled q
  apply h.slots_apart (hnodes.node_mem hnode) (hnodes'.live_mem hlive)
  by_cases hiq : i = q
  · subst hiq
    right
    rintro rfl
    exact (List.nodup_append.mp (h.nodup hnodes)).2.2 node hnode node hlive rfl
  · exact Or.inl hiq

/-- In which order the objects in use are listed does not matter. -/
theorem perm (h : Inv m p live) {live' : Fin kSlabCacheCount → List UInt64} (hperm : ∀ i, (live i).Perm (live' i)) :
    Inv m p live' := by
  refine ⟨h.ready, h.sound, h.sizes, fun i => ?_⟩
  obtain ⟨nodes, hnodes⟩ := h.filled i
  exact ⟨nodes, hnodes.perm (hperm i)⟩

end Inv
/-- The objects in use after a change. -/
def Change.inUse (change : Change) (live : Fin kSlabCacheCount → List UInt64) : Fin kSlabCacheCount → List UInt64 :=
  match change with
  | .grown _ _      => live
  | .taken i object => Function.update live i (object :: live i)
  | .given i object => Function.update live i ((live i).erase object)

@[simp] theorem Change.inUse_taken : (Change.taken i object).inUse live = Function.update live i (object :: live i) := rfl

@[simp] theorem Change.inUse_given :
    (Change.given i object).inUse live = Function.update live i ((live i).erase object) := rfl

section Effect

variable {change : Change}

theorem Effect.ready (he : Effect m p change m' p') (h : p.pmm.Ready) : p'.pmm.Ready := by
  cases he with
  | grown i page hempty hgrants hbytes => exact hgrants.ready
  | taken i hlist => exact h
  | given i object => exact h

/-- **An effect moves frames as grants.** No page is ever given back. -/
theorem Effect.steps (he : Effect m p change m' p') : Lib.Ledger.Steps (m.ledger p) (m'.ledger p') := by
  cases he with
  | grown i page hempty hgrants hbytes =>
      apply frameLedger_grants hgrants
      exact SlabCache.frame_page hgrants.nonzero
  | taken i hlist => exact frameLedger_keeps (SlabCache.frame_take ..)
  | given i object => exact frameLedger_keeps (SlabCache.frame_give ..)

/-- No effect changes an object size. -/
theorem Effect.objectSize (he : Effect m p change m' p') (q : Fin kSlabCacheCount) :
    (m'.mCaches q).objectSize = (m.mCaches q).objectSize := by
  have hset : ∀ (i : Fin kSlabCacheCount) (cache : SlabCache), cache.objectSize = (m.mCaches i).objectSize →
      ((m.setCache i cache).mCaches q).objectSize = (m.mCaches q).objectSize := by
    intro i cache hsize
    rw [setCache_apply]
    split
    · rename_i hq
      rw [hsize, hq]
    · rfl
  cases he with
  | grown i page hempty hgrants hbytes => exact hset i _ (SlabCache.grown_objectSize ..)
  | taken i hlist => exact hset i _ (SlabCache.take_objectSize ..)
  | given i object => exact hset i _ (SlabCache.give_objectSize ..)

theorem Effect.mPhysicalMemory (he : Effect m p change m' p') : m'.mPhysicalMemory = m.mPhysicalMemory := by
  cases he <;> rfl

/-- Another cache is as it was, when memory changes outside its page. -/
theorem Inv.filled_elsewhere (h : Inv m p live) {bytes' : Lib.Bytes} (q : Fin kSlabCacheCount)
    (hsame : (m.mCaches q).page ≠ 0 → ∀ b ∈ Lib.ByteRange.mk (m.mCaches q).page 4096, bytes' b = p.bytes b) :
    ∃ nodes, (m.mCaches q).Filled bytes' (live q) nodes := by
  obtain ⟨nodes, hnodes⟩ := h.filled q
  exact ⟨nodes, hnodes.elsewhere (h.objectSize q) h.isFrame hsame⟩

/-- Threading a page writes into that page. -/
theorem threaded_outside {cache : SlabCache} (hpage : IsFrame page) (hsize : IsObjectSize cache.objectSize)
    {bytes : Lib.Bytes} {b : UInt64} (hb : b ∉ Lib.ByteRange.mk page 4096) :
    (cache.threaded page bytes).1 b = bytes b := by
  apply Lib.Bytes.pushNode_outside
  intro a ha hmem
  exact hb (mem_page_of_mem_slot hpage hsize ha (SlabCache.Filled.word_mem_slot hsize hmem))

/-- **Step lemma.** Whatever is given back was in use. -/
theorem Effect.inv (he : Effect m p change m' p') (h : Inv m p live)
    (hgiven : ∀ i object, change = .given i object → object ∈ live i) : Inv m' p' (change.inUse live) := by
  refine ⟨he.ready h.ready, he.steps.sound h.sound, fun q => ?_, fun q => ?_⟩
  · rw [he.objectSize]
    exact h.sizes q
  · cases he with
    | grown i page hempty hgrants hbytes =>
        rw [setCache_apply, hbytes]
        by_cases hq : q = i
        · rw [hq, if_pos rfl]
          obtain ⟨nodes, hnodes⟩ := h.filled i
          obtain ⟨-, hfilled⟩ := hnodes.grown hempty hgrants.isFrame hgrants.nonzero (h.objectSize i)
          exact ⟨_, hfilled⟩
        · rw [if_neg hq]
          apply h.filled_elsewhere q
          intro hne b hb
          apply threaded_outside hgrants.isFrame (h.objectSize i)
          -- the new page was not taken, so it is not the page of another cache
          have hapart := (h.isFrame hne).ranges_apart hgrants.isFrame fun heq =>
            hgrants.not_taken (heq ▸ h.sound.taken (Inv.holds_page hne))
          exact hapart b hb
    | taken i hlist =>
        rw [setCache_apply, Change.inUse_taken]
        by_cases hq : q = i
        · rw [hq, if_pos rfl, Function.update_self]
          obtain ⟨nodes, hnodes⟩ := h.filled i
          obtain ⟨rest, -, hrest⟩ := hnodes.take hlist
          exact ⟨rest, hrest⟩
        · rw [if_neg hq, Function.update_of_ne hq]
          exact h.filled q
    | given i object =>
        have hmem := hgiven i object rfl
        obtain ⟨nodes, hnodes⟩ := h.filled i
        obtain ⟨hne, hpage, hobject⟩ := h.mem_objects (hnodes.live_mem hmem)
        rw [setCache_apply, Change.inUse_given]
        by_cases hq : q = i
        · rw [hq, if_pos rfl, Function.update_self]
          exact ⟨_, (hnodes.perm (List.perm_cons_erase hmem)).give hpage (h.objectSize i)⟩
        · rw [if_neg hq, Function.update_of_ne hq]
          apply h.filled_elsewhere q
          intro hqne b hb
          have hout : b ∉ Lib.ByteRange.mk object 8 := by
            intro hword
            have hin := mem_page_of_mem_slot hpage (h.objectSize i) hobject
              (SlabCache.Filled.word_mem_slot (h.objectSize i) hword)
            exact h.pages_apart hqne hne hq b hb hin
          dsimp only
          rw [Lib.Bytes.store64_outside _ hout]

end Effect

theorem inv_init (m : SlabAllocator) (h : p.pmm.Ready) : Inv m.init p fun _ => [] := by
  refine ⟨h, frameLedger_empty (fun _ => rfl) h, fun _ => rfl, fun i => ⟨[], ?_⟩⟩
  exact ⟨rfl, List.Perm.refl [], rfl, rfl⟩

/-! ## The three calls -/

/-- `Prime` lets caches grow, one after another. -/
theorem inv_primeLoop (h : Inv m p live) (caches : List (Fin kSlabCacheCount)) :
    Inv (m.primeLoop p caches).2.1 (m.primeLoop p caches).2.2 live ∧
    (m.primeLoop p caches).2.1.mPhysicalMemory = m.mPhysicalMemory ∧
    Lib.Ledger.Steps (m.ledger p) ((m.primeLoop p caches).2.1.ledger (m.primeLoop p caches).2.2) := by
  induction caches generalizing m p with
  | nil => exact ⟨h, rfl, .refl⟩
  | cons i caches ih =>
      unfold primeLoop
      rcases growCache_cases h.ready m i with ⟨hfail, -⟩ | ⟨hok, heff⟩
      · rw [hfail]
        exact ⟨h, rfl, .refl⟩
      · generalize m.growCache i p = r at hok heff ⊢
        obtain ⟨ok, m₁, p₁⟩ := r
        obtain rfl : ok = true := hok
        obtain ⟨hinv, hpmm, hsteps⟩ := ih (heff.inv h (by simp))
        exact ⟨hinv, hpmm.trans heff.mPhysicalMemory, heff.steps.trans hsteps⟩

/-- After it has grown, a cache has a first node. -/
theorem Effect.grown_list (he : Effect m p (.grown i page) m' p') (h : Inv m p live) : (m'.mCaches i).freeList ≠ 0 := by
  cases he with
  | grown i page hempty hgrants hbytes =>
      obtain ⟨nodes, hnodes⟩ := h.filled i
      obtain ⟨-, hfilled⟩ := hnodes.grown hempty hgrants.isFrame hgrants.nonzero (h.objectSize i)
      rw [setCache_apply, if_pos rfl]
      intro hzero
      have hlinked := hfilled.linked
      rw [hzero, Lib.Bytes.linked_zero_iff] at hlinked
      have hlen := congrArg List.length hlinked
      rw [List.length_reverse, length_objects, List.length_nil] at hlen
      have hmul := (h.objectSize i).mul_div
      rw [hlen] at hmul
      omega

/-- **`Allocate`** answers null and changes nothing, because there is no cache for the size, or the cache has a page
    and no free object, or it has no page and gets none; or it takes the first object of the cache, which it may have
    let grow before. -/
theorem allocate_cases (h : Inv m p live) (hpmm : m.mPhysicalMemory = true) (size : UInt64) :
    m.allocate size p = (0, m, p) ∧ (∀ i, m.findCache size = some i → (m.mCaches i).freeList = 0 ∧
      ((m.mCaches i).page = 0 → p.pmm.allocatePage.1 = 0)) ∨
    ∃ i, m.findCache size = some i ∧ (m.allocate size p).1 ≠ 0 ∧
      (Effect m p (.taken i (m.allocate size p).1) (m.allocate size p).2.1 (m.allocate size p).2.2 ∨
        ∃ page m₁ p₁, Effect m p (.grown i page) m₁ p₁ ∧
          Effect m₁ p₁ (.taken i (m.allocate size p).1) (m.allocate size p).2.1 (m.allocate size p).2.2) := by
  unfold allocate
  cases hfind : m.findCache size with
  | none => exact Or.inl ⟨rfl, fun i hi => absurd hi (by simp)⟩
  | some i =>
      dsimp only
      by_cases hlist : (m.mCaches i).freeList = 0
      · rw [if_pos hlist]
        rcases growCache_cases h.ready m i with ⟨hfail, hwhy⟩ | ⟨hok, heff⟩
        · rw [hfail]
          refine Or.inl ⟨rfl, fun q hq => ?_⟩
          obtain rfl := Option.some.inj hq
          exact ⟨hlist, hwhy hpmm⟩
        · right
          have hlist' := heff.grown_list h
          generalize hgrow : m.growCache i p = r at hok heff hlist' ⊢
          obtain ⟨ok, m₁, p₁⟩ := r
          obtain rfl : ok = true := hok
          exact ⟨i, rfl, hlist', Or.inr ⟨_, m₁, p₁, heff, .taken i hlist'⟩⟩
      · rw [if_neg hlist]
        exact Or.inr ⟨i, rfl, hlist, Or.inl (.taken i hlist)⟩

/-- **`Free`** of an object in use, with a size that finds its cache. -/
theorem free_live (h : Inv m p live) (hfind : m.findCache size = some i) (hlive : object ∈ live i) :
    (m.free object size p).1 = true ∧
    Effect m p (.given i object) (m.free object size p).2.1 (m.free object size p).2.2 := by
  obtain ⟨nodes, hnodes⟩ := h.filled i
  obtain ⟨hne, hpage, hobject⟩ := h.mem_objects (hnodes.live_mem hlive)
  obtain ⟨k, hk, hval⟩ := (mem_objects hpage (h.objectSize i)).mp hobject
  have hend := (h.objectSize i).slot_end hk
  have hpos := (h.objectSize i).pos
  have hlt := hpage.toNat_lt
  have hpagepos : 0 < (m.mCaches i).page.toNat := UInt64.pos_iff_ne_zero.mpr hne
  have hcontains : (m.mCaches i).contains object = true := by
    unfold SlabCache.contains
    have htop : ((m.mCaches i).page + kPageSize).toNat = (m.mCaches i).page.toNat + 4096 := by
      rw [UInt64.toNat_add, toNat_kPageSize]
      omega
    have hlo : object ≥ (m.mCaches i).page := by
      rw [ge_iff_le, UInt64.le_iff_toNat_le]
      omega
    have hhi : object < (m.mCaches i).page + kPageSize := by
      rw [UInt64.lt_iff_toNat_lt, htop]
      omega
    simp [hne, hlo, hhi]
  have hnz : object ≠ 0 := by
    rintro rfl
    have hzero : (0 : UInt64).toNat = 0 := rfl
    omega
  unfold free
  rw [if_neg hnz, hfind]
  dsimp only
  rw [hcontains]
  exact ⟨rfl, .given i object⟩

/-! ## Frames, whatever is in memory -/

/-- `Allocate` may hand out any address when the list in memory is broken; the pages of the caches stay its own. -/
theorem allocate_frames (hready : p.pmm.Ready) (m : SlabAllocator) (size : UInt64) :
    (m.allocate size p).2.2.pmm.Ready ∧
    Lib.Ledger.Steps (m.ledger p) ((m.allocate size p).2.1.ledger (m.allocate size p).2.2) := by
  have htake : ∀ (m : SlabAllocator) (p : Physical) (i : Fin kSlabCacheCount),
      Lib.Ledger.Steps (m.ledger p) ((m.setCache i ((m.mCaches i).take p.bytes)).ledger p) :=
    fun m p i => frameLedger_keeps (SlabCache.frame_take ..)
  unfold allocate
  cases m.findCache size with
  | none => exact ⟨hready, .refl⟩
  | some i =>
      dsimp only
      by_cases hlist : (m.mCaches i).freeList = 0
      · rw [if_pos hlist]
        rcases growCache_cases hready m i with ⟨hfail, -⟩ | ⟨hok, heff⟩
        · rw [hfail]
          exact ⟨hready, .refl⟩
        · generalize m.growCache i p = r at hok heff ⊢
          obtain ⟨ok, m₁, p₁⟩ := r
          obtain rfl : ok = true := hok
          exact ⟨heff.ready hready, heff.steps.trans (htake m₁ p₁ i)⟩
      · rw [if_neg hlist]
        exact ⟨hready, htake m p i⟩

theorem free_frames (hready : p.pmm.Ready) (m : SlabAllocator) (object size : UInt64) :
    (m.free object size p).2.2.pmm.Ready ∧
    Lib.Ledger.Steps (m.ledger p) ((m.free object size p).2.1.ledger (m.free object size p).2.2) := by
  unfold free
  split
  · exact ⟨hready, .refl⟩
  · cases m.findCache size with
    | none => exact ⟨hready, .refl⟩
    | some i =>
        dsimp only
        split
        · exact ⟨hready, .refl⟩
        · have heff : Effect m p (.given i object) _ _ := .given i object
          exact ⟨hready, heff.steps⟩

end SlabAllocator
end UefiBoot
