import UefiBoot.Lib.Bytes

/-!
# `Lib.ByteRange` — ranges of byte addresses, and what loads and stores do to them

A range is a start and a number of bytes; addresses wrap, so membership compares the distance from the start.
For a range that does not wrap, `mem_iff_of_fits` turns membership into the two usual bounds.

A load depends only on the bytes of its range (`load_congr`), a store changes only the bytes of its range
(`store_outside`) and can be read back (`load_store`).
-/

namespace Lib

/-- The `size` bytes from `start` on. -/
structure ByteRange where
  start : UInt64
  size  : Nat
  deriving DecidableEq, Repr

namespace ByteRange

instance : Membership UInt64 ByteRange where
  mem r a := (a - r.start).toNat < r.size

instance (a : UInt64) (r : ByteRange) : Decidable (a ∈ r) :=
  inferInstanceAs (Decidable ((a - r.start).toNat < r.size))

variable {r s : ByteRange} {a : UInt64} {k : Nat}

theorem mem_iff : a ∈ r ↔ (a - r.start).toNat < r.size := Iff.rfl

/-- The byte at offset `k`. -/
theorem mem_offset (hk : k < r.size) (hlt : k < 2 ^ 64) : r.start + UInt64.ofNat k ∈ r := by
  rw [mem_iff, Bytes.offset_ofNat hlt]
  exact hk

/-- Every byte of a range is at an offset below its size. -/
theorem exists_offset (h : a ∈ r) : ∃ k < r.size, k < 2 ^ 64 ∧ a = r.start + UInt64.ofNat k := by
  have hlt := (a - r.start).toNat_lt
  refine ⟨(a - r.start).toNat, h, hlt, ?_⟩
  exact (Bytes.eq_add_ofNat_iff hlt).mpr rfl

/-- A statement about the bytes of a range is one about its offsets. -/
theorem forall_mem_iff {P : UInt64 → Prop} (hsize : r.size ≤ 2 ^ 64) :
    (∀ a ∈ r, P a) ↔ ∀ k < r.size, P (r.start + UInt64.ofNat k) := by
  constructor
  · intro h k hk
    exact h _ (mem_offset hk (by omega))
  · intro h a ha
    obtain ⟨k, hk, -, rfl⟩ := exists_offset ha
    exact h k hk

/-- The range ends at or before the end of the address space. -/
def Fits (r : ByteRange) : Prop := r.start.toNat + r.size ≤ 2 ^ 64

theorem mem_iff_of_fits (h : r.Fits) :
    a ∈ r ↔ r.start.toNat ≤ a.toNat ∧ a.toNat < r.start.toNat + r.size := by
  unfold Fits at h
  rw [mem_iff, UInt64.toNat_sub]
  have ha := a.toNat_lt
  have hr := r.start.toNat_lt
  omega

/-- No byte lies in both ranges. -/
def Apart (r s : ByteRange) : Prop := ∀ a ∈ r, a ∉ s

/-- A range that ends before the other starts. -/
theorem apart_of_le (hr : r.Fits) (hs : s.Fits) (h : r.start.toNat + r.size ≤ s.start.toNat) : r.Apart s := by
  intro a har has
  rw [mem_iff_of_fits hr] at har
  rw [mem_iff_of_fits hs] at has
  omega

theorem Apart.symm (h : r.Apart s) : s.Apart r := fun a hs hr => h a hr hs

/-- A part of a range that does not wrap. -/
theorem mem_of_part {start off : UInt64} {size len : Nat} (hle : off.toNat + len ≤ size)
    (h : a ∈ ByteRange.mk (start + off) len) : a ∈ ByteRange.mk start size := by
  rw [mem_iff, UInt64.toNat_sub] at h ⊢
  dsimp only at h ⊢
  have ha := a.toNat_lt
  have hs := start.toNat_lt
  rw [UInt64.toNat_add] at h
  have ho := off.toNat_lt
  omega

/-- Two parts, the one before the other. -/
theorem parts_apart {start off off' : UInt64} {len len' : Nat} (hle : off.toNat + len ≤ off'.toNat)
    (hle' : off'.toNat + len' ≤ 2 ^ 64) :
    (ByteRange.mk (start + off) len).Apart ⟨start + off', len'⟩ := by
  intro b hb hb'
  rw [mem_iff, UInt64.toNat_sub, UInt64.toNat_add] at hb hb'
  dsimp only at hb hb'
  have hlt := b.toNat_lt
  have hs := start.toNat_lt
  have ho := off.toNat_lt
  have ho' := off'.toNat_lt
  omega

end ByteRange

namespace Bytes

variable {m m' : Bytes} {a b : UInt64} {n v : Nat}

/-- The bytes after the first. -/
theorem mem_succ_of_mem (hn : n < 2 ^ 64) (h : b ∈ ByteRange.mk (a + 1) n) : b ∈ ByteRange.mk a (n + 1) := by
  obtain ⟨k, hk, -, rfl⟩ := ByteRange.exists_offset h
  have hk' : k < n := hk
  rw [UInt64.add_assoc]
  have hoff : (1 : UInt64) + UInt64.ofNat k = UInt64.ofNat (k + 1) := by
    rw [UInt64.ofNat_add, UInt64.add_comm]
    rfl
  rw [hoff]
  exact @ByteRange.mem_offset ⟨a, n + 1⟩ (k + 1) (by show k + 1 < n + 1; omega) (by omega)

/-- The start of a range of at most `2 ^ 64` bytes is not among the bytes that follow it. -/
theorem start_not_mem_next (hn : n < 2 ^ 64) : a ∉ ByteRange.mk (a + 1) n := by
  rw [ByteRange.mem_iff]
  show ¬ (a - (a + 1)).toNat < n
  have hone : (1 : UInt64).toNat = 1 := rfl
  rw [UInt64.toNat_sub, UInt64.toNat_add, hone]
  have ha := a.toNat_lt
  omega

/-- A load depends on the bytes of its range only. -/
theorem load_congr (hn : n ≤ 2 ^ 64) (h : ∀ b ∈ ByteRange.mk a n, m b = m' b) : m.load a n = m'.load a n := by
  induction n generalizing a with
  | zero => rfl
  | succ n ih =>
      unfold load
      have hfirst : m a = m' a := by
        apply h
        rw [ByteRange.mem_iff]
        simp
      have hrest : m.load (a + 1) n = m'.load (a + 1) n :=
        ih (by omega) fun b hb => h b (mem_succ_of_mem (by omega) hb)
      rw [hfirst, hrest]

/-- A store changes nothing outside its range. -/
theorem store_outside (hn : n ≤ 2 ^ 64) (h : b ∉ ByteRange.mk a n) : m.store a v n b = m b := by
  induction n generalizing m a v with
  | zero => rfl
  | succ n ih =>
      unfold store
      rw [ih (by omega) fun hb => h (mem_succ_of_mem (by omega) hb), Function.update_of_ne]
      rintro rfl
      apply h
      rw [ByteRange.mem_iff]
      simp

/-- Inside its range a store leaves nothing of what was there. -/
theorem store_inside (m' : Bytes) (hn : n ≤ 2 ^ 64) (h : b ∈ ByteRange.mk a n) : m.store a v n b = m'.store a v n b := by
  induction n generalizing m m' a v with
  | zero => exact absurd h (Nat.not_lt_zero _)
  | succ n ih =>
      unfold store
      by_cases hrest : b ∈ ByteRange.mk (a + 1) n
      · exact ih _ (by omega) hrest
      · have hfirst : b = a := by
          rw [ByteRange.mem_iff] at h hrest
          dsimp only at h hrest
          rw [UInt64.toNat_sub] at h hrest
          rw [UInt64.toNat_add] at hrest
          have hone : (1 : UInt64).toNat = 1 := rfl
          have halt := a.toNat_lt
          have hblt := b.toNat_lt
          apply UInt64.toNat_inj.mp
          omega
        rw [store_outside (by omega) hrest, store_outside (by omega) hrest, hfirst, Function.update_self,
          Function.update_self]

/-- What was stored is read back, up to its width. -/
theorem load_store (hn : n ≤ 2 ^ 64) : (m.store a v n).load a n = v % 256 ^ n := by
  induction n generalizing m a v with
  | zero => rw [pow_zero, Nat.mod_one]; rfl
  | succ n ih =>
      unfold load store
      rw [ih (by omega), store_outside (by omega) (start_not_mem_next (by omega)), Function.update_self]
      have hbyte : (UInt8.ofNat v).toNat = v % 256 := UInt8.toNat_ofNat'
      rw [hbyte, Nat.pow_succ', Nat.mod_mul]

@[simp] theorem load64_store64 (value : UInt64) : (m.store64 a value).load64 a = value := by
  have hlt : value.toNat < 256 ^ 8 := value.toNat_lt
  unfold load64 store64
  rw [load_store (by decide), Nat.mod_eq_of_lt hlt, UInt64.ofNat_toNat]

theorem load64_congr (h : ∀ b ∈ ByteRange.mk a 8, m b = m' b) : m.load64 a = m'.load64 a := by
  unfold load64
  rw [load_congr (by decide) h]

/-- The `n` bytes of `m` from `a` on are those of `m'` from `b` on. -/
def Same (m : Bytes) (a : UInt64) (m' : Bytes) (b : UInt64) (n : Nat) : Prop :=
  ∀ k < n, m (a + UInt64.ofNat k) = m' (b + UInt64.ofNat k)

namespace Same

variable {off len : Nat}

theorem part (h : m.Same a m' b n) (hle : off + len ≤ n) :
    m.Same (a + UInt64.ofNat off) m' (b + UInt64.ofNat off) len := by
  intro k hk
  rw [UInt64.add_assoc, UInt64.add_assoc, ← UInt64.ofNat_add]
  exact h (off + k) (by omega)

theorem load (h : m.Same a m' b n) : m.load a n = m'.load b n := by
  induction n generalizing a b with
  | zero => rfl
  | succ n ih =>
      have hfirst := h 0 (by omega)
      have hrest := ih (@part m m' a b (n + 1) 1 n h (by omega))
      have hzero : ∀ c : UInt64, c + UInt64.ofNat 0 = c := UInt64.add_zero
      have hone : UInt64.ofNat 1 = 1 := rfl
      rw [hzero, hzero] at hfirst
      rw [hone] at hrest
      unfold Bytes.load
      rw [hfirst, hrest]

theorem load16 (h : m.Same a m' b n) (hle : off + 2 ≤ n) :
    m.load16 (a + UInt64.ofNat off) = m'.load16 (b + UInt64.ofNat off) := by
  unfold Bytes.load16
  rw [(h.part hle).load]

theorem load32 (h : m.Same a m' b n) (hle : off + 4 ≤ n) :
    m.load32 (a + UInt64.ofNat off) = m'.load32 (b + UInt64.ofNat off) := by
  unfold Bytes.load32
  rw [(h.part hle).load]

theorem load64 (h : m.Same a m' b n) (hle : off + 8 ≤ n) :
    m.load64 (a + UInt64.ofNat off) = m'.load64 (b + UInt64.ofNat off) := by
  unfold Bytes.load64
  rw [(h.part hle).load]

end Same

theorem store64_outside (value : UInt64) (h : b ∉ ByteRange.mk a 8) : m.store64 a value b = m b :=
  store_outside (by decide) h

/-- A store does not change a word apart from it. -/
theorem load64_store64_apart (value : UInt64) (h : (ByteRange.mk b 8).Apart (ByteRange.mk a 8)) :
    (m.store64 a value).load64 b = m.load64 b :=
  load64_congr fun c hc => store64_outside value (h c hc)

/-- The bytes of a range, set from a source of bytes by their offset. -/
def overwrite (m : Bytes) (r : ByteRange) (data : Bytes) : Bytes :=
  fun a => if a ∈ r then data (a - r.start) else m a

theorem overwrite_inside {r : ByteRange} {data : Bytes} (h : a ∈ r) : m.overwrite r data a = data (a - r.start) :=
  if_pos h

theorem overwrite_outside {r : ByteRange} {data : Bytes} (h : a ∉ r) : m.overwrite r data a = m a := if_neg h

/-- What a range was set to is there. -/
theorem same_overwrite {data : Bytes} (hn : n ≤ 2 ^ 64)
    (h : ∀ k < n, data (UInt64.ofNat k) = m' (b + UInt64.ofNat k)) :
    (m.overwrite ⟨a, n⟩ data).Same a m' b n := by
  intro k hk
  have hin : a + UInt64.ofNat k ∈ ByteRange.mk a n := @ByteRange.mem_offset ⟨a, n⟩ k hk (by omega)
  rw [overwrite_inside hin, ← h k hk]
  dsimp only
  rw [UInt64.add_comm, UInt64.add_sub_cancel]

/-- Bytes apart from the range that changes stay the same. -/
theorem Same.of_apart {r : ByteRange} {m₀ : Bytes} (h : m.Same a m₀ b n) (hn : n ≤ 2 ^ 64)
    (hapart : r.Apart ⟨a, n⟩) (heq : ∀ c, c ∉ r → m' c = m c) : m'.Same a m₀ b n := by
  intro k hk
  have hin : a + UInt64.ofNat k ∈ ByteRange.mk a n := @ByteRange.mem_offset ⟨a, n⟩ k hk (by omega)
  rw [heq _ (hapart.symm _ hin)]
  exact h k hk

/-! ## Aligned words

Two words at multiples of eight are the same word or apart, so a store to one is an update of one word. -/

theorem words_apart (ha : a.toNat % 8 = 0) (hb : b.toNat % 8 = 0) (hne : b ≠ a) :
    (ByteRange.mk b 8).Apart (ByteRange.mk a 8) := by
  have hval : b.toNat ≠ a.toNat := fun h => hne (UInt64.toNat_inj.mp h)
  have halt := a.toNat_lt
  have hblt := b.toNat_lt
  have hfita : (ByteRange.mk a 8).Fits := by
    show a.toNat + 8 ≤ 2 ^ 64
    omega
  have hfitb : (ByteRange.mk b 8).Fits := by
    show b.toNat + 8 ≤ 2 ^ 64
    omega
  intro c hc hc'
  rw [ByteRange.mem_iff_of_fits hfitb] at hc
  rw [ByteRange.mem_iff_of_fits hfita] at hc'
  dsimp only at hc hc'
  omega

theorem load64_store64_aligned (ha : a.toNat % 8 = 0) (hb : b.toNat % 8 = 0) (value : UInt64) :
    (m.store64 a value).load64 b = if b = a then value else m.load64 b := by
  by_cases heq : b = a
  · rw [if_pos heq, heq, load64_store64]
  · rw [if_neg heq]
    exact load64_store64_apart value (words_apart ha hb heq)

/-- `for (i = 0; i < n; i++) *addr(i) = value(i);` on 64-bit words. -/
@[irreducible] def storeLoop (m : Bytes) (n : Nat) (addr value : Nat → UInt64) : Bytes :=
  (List.range n).foldl (fun m i => m.store64 (addr i) (value i)) m

variable {addr value : Nat → UInt64}

theorem storeLoop_zero : m.storeLoop 0 addr value = m := by
  unfold storeLoop
  rfl

theorem storeLoop_succ : m.storeLoop (n + 1) addr value = (m.storeLoop n addr value).store64 (addr n) (value n) := by
  unfold storeLoop
  rw [List.range_succ, List.foldl_append]
  rfl

/-- The loop leaves the words alone that it does not name. -/
theorem storeLoop_other (haddr : ∀ i < n, (addr i).toNat % 8 = 0) (hb : b.toNat % 8 = 0)
    (hne : ∀ i < n, b ≠ addr i) : (m.storeLoop n addr value).load64 b = m.load64 b := by
  induction n with
  | zero => rw [storeLoop_zero]
  | succ n ih =>
      rw [storeLoop_succ, load64_store64_aligned (haddr n (by omega)) hb, if_neg (hne n (by omega))]
      exact ih (fun i hi => haddr i (by omega)) fun i hi => hne i (by omega)

/-- The loop stores its values, when its addresses are distinct. -/
theorem storeLoop_stored (haddr : ∀ i < n, (addr i).toNat % 8 = 0)
    (hinj : ∀ i < n, ∀ j < n, addr i = addr j → i = j) {k : Nat} (hk : k < n) :
    (m.storeLoop n addr value).load64 (addr k) = value k := by
  induction n with
  | zero => omega
  | succ n ih =>
      rw [storeLoop_succ, load64_store64_aligned (haddr n (by omega)) (haddr k hk)]
      by_cases hlast : addr k = addr n
      · rw [if_pos hlast, hinj k hk n (by omega) hlast]
      · rw [if_neg hlast]
        have hkn : k ≠ n := fun h => hlast (h ▸ rfl)
        exact ih (fun i hi => haddr i (by omega)) (fun i hi j hj => hinj i (by omega) j (by omega)) (by omega)

end Bytes
end Lib
