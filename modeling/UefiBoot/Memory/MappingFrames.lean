import UefiBoot.Memory.Rollback

/-!
# `Memory.MappingFrames` — who holds a frame, wherever the mappings lie

`Inv` needs the next address not to wrap. Which frames the anonymous pages and the cache entries hold does not depend
on that: `Owned` is what remains of `Inv` in any run, and every operation keeps it and moves frames as grants and
revokes. A mapping whose end has wrapped contains no address, so an index that `Find` leads to is still inside.
-/

namespace UefiBoot
namespace Mapped

variable {s t u : Mapped} {i : Fin kMemoryMappingCount} {page : Nat} {address : UInt64}

/-- The anonymous pages and the cache entries, over the frames the allocator has handed out. -/
def ledger (s : Mapped) : Lib.Ledger ((Fin kMemoryMappingCount × Nat) ⊕ Fin kPageCacheEntryCount) UInt64 :=
  Lib.Ledger.mk (Sum.elim s.maps.holds fun e => (s.cache.mEntries e).frame) s.phys.pmm.Taken

/-- A mapping has one to sixteen pages, and nothing past its last page. -/
def Bounded (m : MemoryMappingManager) : Prop :=
  ∀ i, (m.mMappings i).active = true → (m.mMappings i).pageCount.toNat ≤ kMappingMaxPages ∧
    ∀ page, (m.mMappings i).pageCount.toNat ≤ page → (m.mMappings i).pages page = 0

/-- **Each frame has one holder at most.** -/
structure Owned (s : Mapped) : Prop where
  ready   : s.phys.pmm.Ready
  sound   : s.ledger.Sound 0
  keys    : s.cache.KeysDistinct
  bounded : Bounded s.maps

/-- From a state of which `Owned` holds to another, by grants and revokes. -/
structure Moves (s t : Mapped) : Prop where
  owned : Owned t
  steps : Lib.Ledger.Steps s.ledger t.ledger

theorem Moves.refl (h : Owned s) : Moves s s := ⟨h, .refl⟩

theorem Moves.trans (h : Moves s t) (h' : Moves t u) : Moves s u := ⟨h'.owned, h.steps.trans h'.steps⟩

theorem Owned.cacheInv (h : Owned s) : PageCache.Inv s.cache s.phys :=
  ⟨h.ready, h.sound.right, h.keys⟩

/-- The grants and revokes are what there is to prove about frames. -/
theorem Owned.moves (h : Owned s) (hready : t.phys.pmm.Ready) (hsteps : Lib.Ledger.Steps s.ledger t.ledger)
    (hkeys : t.cache.KeysDistinct) (hbounded : Bounded t.maps) : Moves s t :=
  ⟨⟨hready, hsteps.sound h.sound, hkeys, hbounded⟩, hsteps⟩

/-! ## Filling -/

theorem Bounded.setPage (h : Bounded s.maps) (hactive : (s.maps.mMappings i).active = true)
    (hpage : page < (s.maps.mMappings i).pageCount.toNat) (a : UInt64) :
    Bounded (s.maps.setMapping i ((s.maps.mMappings i).setPage page a)) := by
  intro q hq
  rw [MemoryMappingManager.setMapping_apply] at hq ⊢
  by_cases hqi : q = i
  · rw [if_pos hqi] at hq ⊢
    obtain ⟨hcount, hpast⟩ := h i hactive
    refine ⟨hcount, fun k hk => ?_⟩
    rw [Mapping.setPage_pageCount] at hk
    rw [Mapping.setPage_apply, if_neg (by omega)]
    exact hpast k hk
  · rw [if_neg hqi] at hq ⊢
    exact h q hq

/-- **A page is filled.** -/
theorem Owned.fillPage (h : Owned s) (hactive : (s.maps.mMappings i).active = true)
    (hpage : page < (s.maps.mMappings i).pageCount.toNat) (hempty : (s.maps.mMappings i).pages page = 0) :
    Moves s (s.fillPage i page) := by
  by_cases hfile : (s.maps.mMappings i).fileId = 0
  · rcases fillPage_anonymous h.ready hfile hempty with hsame | ⟨a, phys, hgrants, hfill⟩
    · rw [hsame]
      exact .refl h
    · rw [hfill]
      have hstep : Lib.Ledger.Steps (Lib.Ledger.mk s.maps.holds s.phys.pmm.Taken)
          (Lib.Ledger.mk (s.maps.setMapping i ((s.maps.mMappings i).setPage page a)).holds phys.pmm.Taken) := by
        apply Relation.ReflTransGen.single
        refine .grantOne (p := (i, page)) hgrants.not_taken (fun q => ?_) hgrants.taken
        show (s.maps.setMapping i _).holds q = _
        rw [MemoryMappingManager.holds_setPage hactive hfile, if_neg hgrants.nonzero]
      exact h.moves hgrants.ready (hstep.left h.sound) h.keys (h.bounded.setPage hactive hpage a)
  · rcases fillPage_file h.ready hfile hempty with hsame | ⟨e, hfind, hfill⟩ | ⟨e, a, cache, phys, hne, heff, hfill⟩
    · rw [hsame]
      exact .refl h
    · rw [hfill]
      refine h.moves h.ready ?_ ?_ (h.bounded.setPage hactive hpage _)
      · unfold ledger
        dsimp only
        rw [MemoryMappingManager.holds_setPage_file hfile]
        simp only [PageCache.setReferences_frame]
        exact .refl
      · intro q r f o hq hr
        dsimp only at hq hr
        rw [PageCache.setReferences_caches] at hq hr
        exact h.keys q r f o hq hr
    · rw [hfill]
      have hstep : Lib.Ledger.Steps (Lib.Ledger.mk (fun q => (s.cache.mEntries q).frame) s.phys.pmm.Taken)
          (Lib.Ledger.mk (fun q => (cache.mEntries q).frame) phys.pmm.Taken) := heff.steps h.cacheInv.sound
      refine h.moves (heff.ready h.ready) ?_ (heff.distinct h.keys) (h.bounded.setPage hactive hpage a)
      unfold ledger
      dsimp only
      rw [MemoryMappingManager.holds_setPage_file hfile]
      exact hstep.right h.sound

/-- The loop of `Map`. -/
theorem Owned.fillLoop (h : Owned s) (hactive : (s.maps.mMappings i).active = true) {pages : List Nat}
    (hpages : ∀ page ∈ pages, page < (s.maps.mMappings i).pageCount.toNat ∧ (s.maps.mMappings i).pages page = 0)
    (hnodup : pages.Nodup) : Moves s (s.fillLoop i pages).2 := by
  induction pages generalizing s with
  | nil => exact .refl h
  | cons page pages ih =>
      obtain ⟨hpage, hempty⟩ := hpages page List.mem_cons_self
      obtain ⟨hnot, hrest⟩ := List.nodup_cons.mp hnodup
      have hfirst := h.fillPage hactive hpage hempty
      obtain ⟨-, a, hself⟩ := fillPage_shape s i page
      unfold Mapped.fillLoop
      dsimp only
      split
      · exact hfirst
      · refine hfirst.trans (ih hfirst.owned (by rw [hself]; exact hactive) (fun q hq => ?_) hrest)
        obtain ⟨hlt, hzero⟩ := hpages q (List.mem_cons_of_mem _ hq)
        rw [hself]
        refine ⟨hlt, ?_⟩
        rw [Mapping.setPage_apply, if_neg]
        · exact hzero
        · rintro rfl
          exact hnot hq

/-! ## `Unmap` -/

/-- What is held once mapping `i` has ended. -/
theorem holds_ended (m : MemoryMappingManager) (i : Fin kMemoryMappingCount) (q : Fin kMemoryMappingCount × Nat) :
    (m.setMapping i { m.mMappings i with active := false }).holds q = if q.1 = i then none else m.holds q := by
  unfold MemoryMappingManager.holds
  rw [MemoryMappingManager.setMapping_apply]
  by_cases hq : q.1 = i
  · rw [if_pos hq, if_pos hq]
    exact if_neg fun hbad => Bool.false_ne_true hbad.1
  · rw [if_neg hq, if_neg hq]

theorem Bounded.ended {m : MemoryMappingManager} (h : Bounded m) (i : Fin kMemoryMappingCount) :
    Bounded (m.setMapping i { m.mMappings i with active := false }) := by
  intro q hq
  rw [MemoryMappingManager.setMapping_apply] at hq ⊢
  by_cases hqi : q = i
  · rw [if_pos hqi] at hq
    exact absurd hq Bool.false_ne_true
  · rw [if_neg hqi] at hq ⊢
    exact h q hq

/-- The pages of an active mapping are those before its last. -/
theorem Owned.mem_materialised (h : Owned s) (hactive : (s.maps.mMappings i).active = true)
    (hfile : (s.maps.mMappings i).fileId = 0) {b : UInt64} :
    b ∈ (s.maps.mMappings i).materialised ↔ ∃ k, s.maps.holds (i, k) = some b := by
  unfold Mapping.materialised
  rw [List.mem_filter]
  constructor
  · rintro ⟨hmem, hnz⟩
    obtain ⟨k, -, rfl⟩ := List.mem_map.mp hmem
    exact ⟨k, if_pos ⟨hactive, hfile, of_decide_eq_true hnz⟩⟩
  · rintro ⟨k, hk⟩
    have hholds : (s.maps.mMappings i).frame k = some b := hk
    unfold Mapping.frame at hholds
    split at hholds
    · rename_i hcond
      obtain rfl := Option.some.inj hholds
      refine ⟨List.mem_map_of_mem (List.mem_range.mpr ?_), decide_eq_true hcond.2.2⟩
      by_contra hpast
      exact hcond.2.2 ((h.bounded i hactive).2 k (Nat.le_of_not_lt hpast))
    · exact absurd hholds (by simp)

/-- **`Unmap`** gives back what the mapping holds, and takes nothing from anybody else. -/
theorem Owned.unmap (h : Owned s) (address : UInt64) : Moves s (s.unmap address).2 := by
  unfold Mapped.unmap
  cases hfind : s.maps.find address with
  | none => exact .refl h
  | some i =>
      dsimp only
      by_cases haddress : (s.maps.mMappings i).address ≠ address
      · rw [if_pos haddress]
        exact .refl h
      · rw [if_neg haddress]
        have hactive := MemoryMappingManager.active_of_contains (Lib.firstSlot_true hfind)
        by_cases hfile : (s.maps.mMappings i).fileId = 0
        · obtain ⟨hcache, hpmm⟩ := foldl_releasePage_anonymous hfile s.cache s.phys
            (List.range (s.maps.mMappings i).pageCount.toNat)
          generalize (List.range (s.maps.mMappings i).pageCount.toNat).foldl (releasePage (s.maps.mMappings i))
            (s.cache, s.phys) = released at hcache hpmm ⊢
          obtain ⟨cache, phys⟩ := released
          dsimp only at hcache hpmm ⊢
          subst hcache
          have hheld : ∀ b ∈ (s.maps.mMappings i).materialised, ∃ k, s.maps.holds (i, k) = some b :=
            fun b hb => (h.mem_materialised hactive hfile).mp hb
          have hframes : ∀ b ∈ (s.maps.mMappings i).materialised, IsFrame b ∧ b ≠ 0 := by
            intro b hb
            obtain ⟨k, hk⟩ := hheld b hb
            exact ⟨(h.sound.left.taken hk).1, h.sound.left.unheld hk⟩
          have hreturns : s.phys.pmm.ReturnsAll phys.pmm (s.maps.mMappings i).materialised := by
            rw [hpmm]
            exact PhysicalMemoryManager.freePages_returns h.ready hframes
          have hstep : Lib.Ledger.Steps (Lib.Ledger.mk s.maps.holds s.phys.pmm.Taken)
              (Lib.Ledger.mk (s.maps.setMapping i { s.maps.mMappings i with active := false }).holds
                phys.pmm.Taken) := by
            apply Relation.ReflTransGen.single
            refine .revoke {b | b ∈ (s.maps.mMappings i).materialised} (fun b hb => ?_) (fun q b hq => ?_) fun b => ?_
            · obtain ⟨k, hk⟩ := hheld b hb
              exact ⟨(i, k), hk⟩
            · -- nobody else holds a frame of the mapping
              have hq' : (s.maps.setMapping i _).holds q = some b := hq
              rw [holds_ended] at hq'
              split at hq'
              · exact absurd hq' (by simp)
              · rename_i hne
                refine ⟨hq', fun hb => ?_⟩
                obtain ⟨k, hk⟩ := hheld b hb
                exact hne (congrArg Prod.fst (h.sound.left.unique hq' hk))
            · exact (hreturns.taken b).trans and_comm
          exact h.moves hreturns.ready (hstep.left h.sound) h.keys (h.bounded.ended i)
        · obtain ⟨hrecounts, hphys⟩ := foldl_releasePage_file hfile s.cache s.phys
            (List.range (s.maps.mMappings i).pageCount.toNat)
          generalize (List.range (s.maps.mMappings i).pageCount.toNat).foldl (releasePage (s.maps.mMappings i))
            (s.cache, s.phys) = released at hrecounts hphys ⊢
          obtain ⟨cache, phys⟩ := released
          dsimp only at hrecounts hphys ⊢
          subst hphys
          have hentry : ∀ e, (cache.mEntries e).frame = (s.cache.mEntries e).frame ∧
              ∀ f o, (cache.mEntries e).Caches f o ↔ (s.cache.mEntries e).Caches f o := by
            intro e
            obtain ⟨references, hentry, -⟩ := hrecounts e
            rw [hentry]
            exact ⟨rfl, fun _ _ => Iff.rfl⟩
          have hholds : (s.maps.setMapping i { s.maps.mMappings i with active := false }).holds = s.maps.holds := by
            funext q
            rw [holds_ended]
            split
            · rename_i hq
              unfold MemoryMappingManager.holds
              rw [hq]
              exact (if_neg fun hbad => hfile hbad.2.1).symm
            · rfl
          refine h.moves h.ready ?_ (fun q r f o hq hr => ?_) (h.bounded.ended i)
          · unfold ledger
            dsimp only
            simp only [hholds, (hentry _).1]
            exact .refl
          · exact h.keys q r f o (((hentry q).2 f o).mp hq) (((hentry r).2 f o).mp hr)

/-! ## The operations -/

/-- A new mapping holds nothing. -/
theorem Owned.opened (h : Owned s) (hslot : s.maps.findInactive = some i) {pages fileId : UInt64}
    {writable demandPaged : Bool} (hcount : pages.toNat ≤ kMappingMaxPages) :
    Moves s (s.opened i pages fileId writable demandPaged) := by
  have hidle := findInactive_some hslot
  have hholds : (s.opened i pages fileId writable demandPaged).maps.holds = s.maps.holds := by
    funext q
    unfold MemoryMappingManager.holds
    by_cases hq : q.1 = i
    · rw [hq, opened_self]
      unfold Mapping.frame
      rw [if_neg fun hbad => hbad.2.2 rfl, if_neg fun hbad => Bool.false_ne_true (hidle.symm.trans hbad.1)]
    · rw [opened_other hq]
  refine h.moves h.ready ?_ h.keys fun q hq => ?_
  · unfold ledger
    rw [hholds]
    exact .refl
  · by_cases hqi : q = i
    · rw [hqi, opened_self]
      exact ⟨hcount, fun _ _ => rfl⟩
    · rw [opened_other hqi] at hq ⊢
      exact h.bounded q hq

theorem Owned.map (h : Owned s) (fileId length : UInt64) (writable demandPaged : Bool) :
    Moves s (s.map fileId length writable demandPaged).2 := by
  rcases map_cases s fileId length writable demandPaged with ⟨hnothing, -⟩ | ⟨i, t, hslot, hcount, rfl, hcases⟩
  · rw [hnothing]
    exact .refl h
  · have hopened : Moves s (s.opened i (pageCountOf length) fileId writable demandPaged) := h.opened hslot hcount.2
    have hfilled : Moves s ((s.opened i (pageCountOf length) fileId writable demandPaged).fillLoop i
        (List.range (pageCountOf length).toNat)).2 := by
      refine hopened.trans (hopened.owned.fillLoop (by rw [opened_self]) (fun page hpage => ?_) List.nodup_range)
      rw [opened_self]
      exact ⟨List.mem_range.mp hpage, rfl⟩
    rcases hcases with ⟨-, hmap⟩ | ⟨-, -, hmap⟩ | ⟨-, -, hmap⟩ <;> rw [hmap]
    · exact hopened
    · exact hfilled
    · -- whatever mapping the address leads to, its end is an `Unmap`
      exact hfilled.trans (hfilled.owned.unmap _)

/-- An address in a mapping does not lie past a wrapped end. -/
theorem Owned.pageIndex_lt (h : Owned s) (hfind : s.maps.find address = some i) :
    (s.maps.mMappings i).active = true ∧
    (s.maps.mMappings i).pageIndex address < (s.maps.mMappings i).pageCount.toNat := by
  have hcontains := Lib.firstSlot_true hfind
  have hactive := MemoryMappingManager.active_of_contains hcontains
  refine ⟨hactive, ?_⟩
  obtain ⟨hcount, -⟩ := h.bounded i hactive
  have hmax : (s.maps.mMappings i).pageCount.toNat ≤ 16 := hcount
  unfold Mapping.contains at hcontains
  rw [hactive, Bool.true_and, Bool.and_eq_true, decide_eq_true_iff, decide_eq_true_iff, ge_iff_le] at hcontains
  obtain ⟨hlo, hhi⟩ := hcontains
  have hlo' := UInt64.le_iff_toNat_le.mp hlo
  rw [UInt64.lt_iff_toNat_lt, UInt64.toNat_add, UInt64.toNat_mul, toNat_kPageSize] at hhi
  have hlt := (s.maps.mMappings i).address.toNat_lt
  unfold Mapping.pageIndex
  rw [UInt64.toNat_div, toNat_kPageSize, UInt64.toNat_sub_of_le _ _ hlo]
  omega

theorem Owned.markDirty (h : Owned s) (physical : UInt64) :
    Moves s { s with cache := s.cache.markDirty physical } := by
  have hframes : (fun e => ((s.cache.markDirty physical).mEntries e).frame) = fun e => (s.cache.mEntries e).frame :=
    congrArg Lib.Ledger.holds (PageCache.ledger_markDirty s.cache s.phys physical)
  refine h.moves h.ready ?_ ((PageCache.Effect.marked physical : PageCache.Effect s.cache s.phys _ _ _).distinct h.keys)
    h.bounded
  unfold ledger
  dsimp only
  rw [hframes]

theorem Owned.handlePageFault (h : Owned s) (address : UInt64) (write : Bool) :
    Moves s (s.handlePageFault address write).2 := by
  rcases handlePageFault_cases s address write with ⟨hfail, -⟩ | ⟨i, t, hfind, ht, -, hresult⟩
  · rw [hfail]
    exact .refl h
  · obtain ⟨hactive, hpage⟩ := h.pageIndex_lt hfind
    have hfilled : Moves s t := by
      rw [ht]
      split
      · rename_i hempty
        exact h.fillPage hactive hpage hempty
      · exact .refl h
    rcases hresult with hresult | hresult <;> rw [hresult]
    · exact hfilled
    · exact hfilled.trans (hfilled.owned.markDirty _)

theorem Owned.evict (h : Owned s) (fileId pageOffset : UInt64) :
    Moves s { s with
      cache := (s.cache.evict fileId pageOffset s.phys).2.1
      phys := (s.cache.evict fileId pageOffset s.phys).2.2 } := by
  rcases PageCache.evict_effect h.cacheInv fileId pageOffset with ⟨-, hfail⟩ | ⟨e, -, -, heff⟩
  · rw [hfail]
    exact .refl h
  · have hstep : Lib.Ledger.Steps (Lib.Ledger.mk (fun q => (s.cache.mEntries q).frame) s.phys.pmm.Taken)
        (Lib.Ledger.mk (fun q => ((s.cache.evict fileId pageOffset s.phys).2.1.mEntries q).frame)
          (s.cache.evict fileId pageOffset s.phys).2.2.pmm.Taken) := heff.steps h.cacheInv.sound
    exact h.moves (heff.ready h.ready) (hstep.right h.sound) (heff.distinct h.keys) h.bounded

end Mapped
end UefiBoot
