import UefiBoot.Lib.Align
import UefiBoot.Lib.Run

/-!
# `Drivers.GpuPool` — `GpuAllocate`, the bump allocator of the graphics memory

`g_GpuMemory` is a pool of 256 KiB and `g_GpuMemoryUsed` the number of its bytes that are taken. A request is aligned
up and put behind them. The bound test adds start and size in 32 bits: a size near `2 ^ 32` passes it by wrapping,
and takes the pool back to a point that was handed out before.

`PoolLaw` is what the clients of the pool rely on. It holds of a run exactly when no request of the run wraps into
the pool (`poolLaw_iff`); rounding up itself never wraps, because the bytes taken stay within the pool on every run.
-/

namespace UefiBoot
namespace Drivers
namespace GpuPool

def kGpuPoolSize : UInt32 := 256 * 1024

structure Request where
  bytes     : UInt32
  alignment : UInt32
  deriving DecidableEq, Repr

/-- `(g_GpuMemoryUsed + alignment - 1) & ~(alignment - 1)`. -/
def alignedStart (used alignment : UInt32) : UInt32 := (used + alignment - 1) &&& ~~~(alignment - 1)

/-- The requests that are turned down whatever is taken. -/
def Request.Malformed (r : Request) : Prop :=
  r.bytes = 0 ∨ r.alignment = 0 ∨ r.alignment &&& (r.alignment - 1) ≠ 0

instance (r : Request) : Decidable r.Malformed := by unfold Request.Malformed; infer_instance

/-- `GpuAllocate`: the offset in the pool of what it returns, and `g_GpuMemoryUsed` afterwards. -/
def gpuAllocate (used : UInt32) (r : Request) : Option UInt32 × UInt32 :=
  if r.Malformed then (none, used)
  else
    let start := alignedStart used r.alignment
    if start + r.bytes > kGpuPoolSize then (none, used)
    else (some start, start + r.bytes)

/-- `g_GpuMemoryUsed` after a request. -/
def step (used : UInt32) (r : Request) : UInt32 := (gpuAllocate used r).2

/-- What a request was given. -/
structure Block where
  start   : UInt32
  request : Request
  deriving DecidableEq

/-- The bytes that the caller may use, as offsets from the start of the pool. -/
def Block.offsets (b : Block) : Set Nat := Set.Ico b.start.toNat (b.start.toNat + b.request.bytes.toNat)

/-- The results of a run that are not null, in order. -/
def served : UInt32 → List Request → List Block
  | _, []           => []
  | used, r :: rest => ((gpuAllocate used r).1.map (⟨·, r⟩)).toList ++ served (step used r) rest

/-- What a run of requests guarantees. -/
structure PoolLaw (used : UInt32) (requests : List Request) : Prop where
  aligned  : ∀ b ∈ served used requests, b.request.alignment.toNat ∣ b.start.toNat
  inside   : ∀ b ∈ served used requests, b.start.toNat + b.request.bytes.toNat ≤ kGpuPoolSize.toNat
  disjoint : (served used requests).Pairwise fun b b' => ∀ x ∈ b.offsets, x ∉ b'.offsets
  monotone : Lib.Along step (fun used r => used ≤ step used r) used requests

/-- The sum of the bound test, as an integer, is one of 32 bits, or is refused even so. -/
def NoWrap (used : UInt32) (r : Request) : Prop :=
  ¬ r.Malformed →
    (alignedStart used r.alignment).toNat + r.bytes.toNat < 2 ^ 32 ∨
    2 ^ 32 + kGpuPoolSize.toNat < (alignedStart used r.alignment).toNat + r.bytes.toNat

instance (used : UInt32) (r : Request) : Decidable (NoWrap used r) := by unfold NoWrap; infer_instance

variable {used : UInt32} {r : Request} {requests : List Request}

/-! ## One request -/

theorem Request.exists_pow (h : ¬ r.Malformed) : ∃ k, r.alignment.toNat = 2 ^ k := by
  rw [Request.Malformed, not_or, not_or, not_not] at h
  obtain ⟨-, hne, hbits⟩ := h
  rw [← UInt32.toBitVec_inj] at hne hbits
  exact Lib.bitVec_and_pred_eq_zero_iff.mp ⟨hne, hbits⟩

/-- **Rounding up.** From inside the pool the sum does not wrap, since no 32-bit power of two is above `2 ^ 31`. -/
theorem alignedStart_bounds (hused : used ≤ kGpuPoolSize) (h : ¬ r.Malformed) :
    r.alignment.toNat ∣ (alignedStart used r.alignment).toNat ∧ used ≤ alignedStart used r.alignment := by
  obtain ⟨k, hk⟩ := r.exists_pow h
  have hlt := r.alignment.toNat_lt
  have hk31 : k ≤ 31 := by
    by_contra hgt
    have hpow : 2 ^ 32 ≤ 2 ^ k := Nat.pow_le_pow_right (by omega) (by omega)
    omega
  have hle : r.alignment.toNat ≤ 2 ^ 31 := hk ▸ Nat.pow_le_pow_right (by omega) hk31
  have hpos : 0 < r.alignment.toNat := hk ▸ Nat.two_pow_pos k
  have hpool : used.toNat ≤ 262144 := UInt32.le_iff_toNat_le.mp hused
  have hsum : (used + r.alignment - 1).toNat = used.toNat + r.alignment.toNat - 1 := by
    have hone : (1 : UInt32).toNat = 1 := rfl
    rw [UInt32.toNat_sub, UInt32.toNat_add, hone]
    omega
  have hstart : (alignedStart used r.alignment).toNat =
      (used.toNat + r.alignment.toNat - 1) - (used.toNat + r.alignment.toNat - 1) % r.alignment.toNat := by
    rw [← hsum]
    exact Lib.toNat_mask (v := (used + r.alignment - 1).toBitVec) (a := r.alignment.toBitVec) hk
  have hmod := Nat.mod_lt (used.toNat + r.alignment.toNat - 1) hpos
  constructor
  · rw [hstart]
    exact Nat.dvd_sub_mod _
  · rw [UInt32.le_iff_toNat_le, hstart]
    omega

/-- What a request can do: it is turned down, or it gets the bytes behind what is taken. -/
theorem gpuAllocate_cases (used : UInt32) (r : Request) :
    gpuAllocate used r = (none, used) ∨
    (¬ r.Malformed ∧ alignedStart used r.alignment + r.bytes ≤ kGpuPoolSize ∧
      gpuAllocate used r = (some (alignedStart used r.alignment), alignedStart used r.alignment + r.bytes)) := by
  unfold gpuAllocate
  by_cases hbad : r.Malformed
  · exact Or.inl (if_pos hbad)
  · rw [if_neg hbad]
    dsimp only
    by_cases hfit : alignedStart used r.alignment + r.bytes > kGpuPoolSize
    · exact Or.inl (if_pos hfit)
    · exact Or.inr ⟨hbad, UInt32.not_lt.mp hfit, if_neg hfit⟩

/-- The bytes taken stay within the pool, wrap or not. -/
theorem step_le (hused : used ≤ kGpuPoolSize) (r : Request) : step used r ≤ kGpuPoolSize := by
  unfold step
  rcases gpuAllocate_cases used r with h | ⟨-, hfit, h⟩
  · rw [h]
    exact hused
  · rw [h]
    exact hfit

/-- A sum that does not wrap is the integer sum; one that does passes the bound test only to a lower place. -/
theorem noWrap_iff (h : ¬ r.Malformed) (hfit : alignedStart used r.alignment + r.bytes ≤ kGpuPoolSize) :
    NoWrap used r ↔ (alignedStart used r.alignment).toNat + r.bytes.toNat ≤ kGpuPoolSize.toNat := by
  have hpool : kGpuPoolSize.toNat = 262144 := rfl
  have hstart := (alignedStart used r.alignment).toNat_lt
  have hbytes := r.bytes.toNat_lt
  rw [UInt32.le_iff_toNat_le, UInt32.toNat_add] at hfit
  unfold NoWrap
  constructor
  · intro hno
    rcases hno h with hlt | hgt <;> omega
  · intro hle _
    omega

/-! ## Runs -/

theorem served_cons_none (h : gpuAllocate used r = (none, used)) :
    served used (r :: requests) = served used requests := by
  conv => lhs; unfold served step
  rw [h]
  rfl

theorem served_cons_some {start next : UInt32} (h : gpuAllocate used r = (some start, next)) :
    served used (r :: requests) = ⟨start, r⟩ :: served next requests := by
  conv => lhs; unfold served step
  rw [h]
  rfl

/-- What a run hands out lies behind what was taken before it, and inside the pool. -/
theorem served_bounds (hused : used ≤ kGpuPoolSize) (hno : Lib.Along step NoWrap used requests) :
    ∀ b ∈ served used requests, b.request.alignment.toNat ∣ b.start.toNat ∧ used ≤ b.start ∧
      b.start.toNat + b.request.bytes.toNat ≤ kGpuPoolSize.toNat := by
  induction requests generalizing used with
  | nil =>
    intro b hb
    exact absurd hb (by simp [served])
  | cons r rest ih =>
    obtain ⟨hr, hrest⟩ := hno
    have hstep := step_le hused r
    rcases gpuAllocate_cases used r with h | ⟨hwell, hfit, h⟩
    · have hnext : step used r = used := congrArg Prod.snd h
      rw [served_cons_none h]
      rw [hnext] at hrest
      exact ih hused hrest
    · have hnext : step used r = alignedStart used r.alignment + r.bytes := congrArg Prod.snd h
      rw [hnext] at hrest hstep
      obtain ⟨hdvd, hle⟩ := alignedStart_bounds hused hwell
      have hend := (noWrap_iff hwell hfit).mp hr
      rw [served_cons_some h]
      intro b hb
      rcases List.mem_cons.mp hb with rfl | hb
      · exact ⟨hdvd, hle, hend⟩
      · obtain ⟨hdvd', hle', hend'⟩ := ih hstep hrest b hb
        refine ⟨hdvd', ?_, hend'⟩
        -- behind this request, which is behind what was taken
        have hpool : kGpuPoolSize.toNat = 262144 := rfl
        rw [UInt32.le_iff_toNat_le] at hle hle' ⊢
        rw [UInt32.toNat_add] at hle'
        omega

/-- Requests that do not wrap are served side by side. -/
theorem poolLaw_of_noWrap (hused : used ≤ kGpuPoolSize) (hno : Lib.Along step NoWrap used requests) :
    PoolLaw used requests := by
  have hall := served_bounds hused hno
  refine ⟨fun b hb => (hall b hb).1, fun b hb => (hall b hb).2.2, ?_, ?_⟩
  · clear hall
    induction requests generalizing used with
    | nil => exact List.Pairwise.nil
    | cons r rest ih =>
      obtain ⟨hr, hrest⟩ := hno
      have hstep := step_le hused r
      rcases gpuAllocate_cases used r with h | ⟨hwell, hfit, h⟩
      · have hnext : step used r = used := congrArg Prod.snd h
        rw [served_cons_none h]
        rw [hnext] at hrest
        exact ih hused hrest
      · have hnext : step used r = alignedStart used r.alignment + r.bytes := congrArg Prod.snd h
        rw [hnext] at hrest hstep
        have hend := (noWrap_iff hwell hfit).mp hr
        rw [served_cons_some h]
        refine List.pairwise_cons.mpr ⟨fun b hb => ?_, ih hstep hrest⟩
        -- every later block starts where this one ends, or behind
        have hle := (served_bounds hstep hrest b hb).2.1
        have hpool : kGpuPoolSize.toNat = 262144 := rfl
        rw [UInt32.le_iff_toNat_le, UInt32.toNat_add, Nat.mod_eq_of_lt (by omega)] at hle
        intro x hx hx'
        have hlt := hx.2
        have hge := hx'.1
        dsimp only at hlt
        omega
  · refine Lib.Along.of_invariant (I := fun used => used ≤ kGpuPoolSize) (fun used r hused _ => step_le hused r) ?_
      hused hno
    intro used r hused hr
    rcases gpuAllocate_cases used r with h | ⟨hwell, hfit, h⟩
    · have hnext : step used r = used := congrArg Prod.snd h
      rw [hnext]
      exact UInt32.le_refl used
    · have hnext : step used r = alignedStart used r.alignment + r.bytes := congrArg Prod.snd h
      have hle := (alignedStart_bounds hused hwell).2
      have hend := (noWrap_iff hwell hfit).mp hr
      have hpool : kGpuPoolSize.toNat = 262144 := rfl
      rw [UInt32.le_iff_toNat_le] at hle
      rw [hnext, UInt32.le_iff_toNat_le, UInt32.toNat_add]
      omega

/-- A request that wraps into the pool is given bytes beyond its end. -/
theorem noWrap_of_inside (h : ∀ b ∈ served used requests, b.start.toNat + b.request.bytes.toNat ≤ kGpuPoolSize.toNat) :
    Lib.Along step NoWrap used requests := by
  induction requests generalizing used with
  | nil => trivial
  | cons r rest ih =>
    rcases gpuAllocate_cases used r with hnone | ⟨hwell, hfit, hsome⟩
    · have hnext : step used r = used := congrArg Prod.snd hnone
      rw [served_cons_none hnone] at h
      refine ⟨?_, hnext.symm ▸ ih h⟩
      -- refused, so the sum of the bound test is above the pool
      intro hwell
      have hrefused : ¬ alignedStart used r.alignment + r.bytes ≤ kGpuPoolSize := by
        intro hle
        unfold gpuAllocate at hnone
        rw [if_neg hwell] at hnone
        dsimp only at hnone
        rw [if_neg (UInt32.not_lt.mpr hle)] at hnone
        cases congrArg Prod.fst hnone
      rw [UInt32.le_iff_toNat_le, UInt32.toNat_add] at hrefused
      have hstart := (alignedStart used r.alignment).toNat_lt
      have hbytes := r.bytes.toNat_lt
      omega
    · have hnext : step used r = alignedStart used r.alignment + r.bytes := congrArg Prod.snd hsome
      rw [served_cons_some hsome] at h
      refine ⟨(noWrap_iff hwell hfit).mpr (h _ List.mem_cons_self), ?_⟩
      rw [hnext]
      exact ih fun b hb => h b (List.mem_cons_of_mem _ hb)

/-- **The pool.** A run of requests from boot keeps the law exactly when none of them wraps into the pool. -/
theorem poolLaw_iff (requests : List Request) : PoolLaw 0 requests ↔ Lib.Along step NoWrap 0 requests := by
  constructor
  · intro h
    exact noWrap_of_inside h.inside
  · intro h
    exact poolLaw_of_noWrap (by decide) h

/-- The second request takes nearly 4 GiB from offset 4096 on, and the third is given the start of the pool again. -/
theorem not_poolLaw : ¬ ∀ requests, PoolLaw 0 requests := by
  intro h
  have hinside := (h [⟨4096, 4096⟩, ⟨0xFFFFF000, 1⟩, ⟨4096, 4096⟩]).inside ⟨4096, ⟨0xFFFFF000, 1⟩⟩
  have hle := hinside (by decide)
  exact absurd hle (by decide)

end GpuPool
end Drivers
end UefiBoot
