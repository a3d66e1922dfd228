import Mathlib.Tactic

/-!
# `Lib.Bytes` — byte memory under 64-bit addresses

Memory is a function from addresses to bytes. `fill` and `copy` are the byte loops of C code, from the first
byte to the last; addresses wrap, and a copy between ranges that overlap reads what it has already written.
An address `a` lies in the `n` bytes from `dst` exactly when `(a - dst).toNat < n`, which is how
`fill_apply` and `copy_apply` say what changes and what stays. Both loops are irreducible: a page has 4096 bytes.
-/

namespace Lib

abbrev Bytes := UInt64 → UInt8

namespace Bytes

/-- `for (i = 0; i < n; i++) dst[i] = value;` -/
@[irreducible] def fill (m : Bytes) (dst : UInt64) (n : Nat) (value : UInt8) : Bytes :=
  (List.range n).foldl (fun m i => Function.update m (dst + UInt64.ofNat i) value) m

/-- `for (i = 0; i < n; i++) dst[i] = src[i];` -/
@[irreducible] def copy (m : Bytes) (dst src : UInt64) (n : Nat) : Bytes :=
  (List.range n).foldl
    (fun m i => Function.update m (dst + UInt64.ofNat i) (m (src + UInt64.ofNat i))) m

/-- The little-endian number in the `n` bytes from `a`. -/
def load (m : Bytes) (a : UInt64) : Nat → Nat
  | 0     => 0
  | n + 1 => (m a).toNat + 256 * load m (a + 1) n

/-- The `n` low bytes of `value`, little endian, from `a` on. -/
def store (m : Bytes) (a : UInt64) (value : Nat) : Nat → Bytes
  | 0     => m
  | n + 1 => store (Function.update m a (UInt8.ofNat value)) (a + 1) (value / 256) n

def load16 (m : Bytes) (a : UInt64) : UInt16 := UInt16.ofNat (m.load a 2)
def load32 (m : Bytes) (a : UInt64) : UInt32 := UInt32.ofNat (m.load a 4)
def load64 (m : Bytes) (a : UInt64) : UInt64 := UInt64.ofNat (m.load a 8)
def store64 (m : Bytes) (a value : UInt64) : Bytes := m.store a value.toNat 8

/-! ## What the loops write -/

variable {m : Bytes} {dst src a : UInt64} {n : Nat}

theorem fill_succ (value : UInt8) :
    m.fill dst (n + 1) value = Function.update (m.fill dst n value) (dst + UInt64.ofNat n) value := by
  unfold fill
  rw [List.range_succ, List.foldl_append]
  rfl

theorem copy_succ :
    m.copy dst src (n + 1) = Function.update (m.copy dst src n) (dst + UInt64.ofNat n)
      (m.copy dst src n (src + UInt64.ofNat n)) := by
  unfold copy
  rw [List.range_succ, List.foldl_append]
  rfl

/-- The byte at offset `n` from `dst` is the only one whose offset is `n`. -/
theorem eq_add_ofNat_iff (hn : n < 2 ^ 64) : a = dst + UInt64.ofNat n ↔ (a - dst).toNat = n := by
  constructor
  · rintro rfl
    rw [UInt64.add_comm, UInt64.add_sub_cancel, UInt64.toNat_ofNat', Nat.mod_eq_of_lt hn]
  · intro h
    have hoff : UInt64.ofNat n = a - dst := by rw [← h, UInt64.ofNat_toNat]
    rw [hoff, UInt64.add_comm, UInt64.sub_add_cancel]

theorem fill_apply (hn : n ≤ 2 ^ 64) (value : UInt8) :
    m.fill dst n value a = if (a - dst).toNat < n then value else m a := by
  induction n with
  | zero => simp [fill]
  | succ n ih =>
      rw [fill_succ]
      by_cases hlast : (a - dst).toNat = n
      · rw [(eq_add_ofNat_iff (by omega)).mpr hlast, Function.update_self, if_pos]
        rw [← (eq_add_ofNat_iff (by omega)).mpr hlast]; omega
      · rw [Function.update_of_ne fun h => hlast ((eq_add_ofNat_iff (by omega)).mp h), ih (by omega)]
        have hiff : (a - dst).toNat < n ↔ (a - dst).toNat < n + 1 := by omega
        simp only [hiff]

/-- A copy writes its destination and nothing else. -/
theorem copy_outside (h : n ≤ (a - dst).toNat) : m.copy dst src n a = m a := by
  induction n with
  | zero => simp [copy]
  | succ n ih =>
      rw [copy_succ, Function.update_of_ne, ih (by omega)]
      intro heq
      rw [heq, UInt64.add_comm, UInt64.add_sub_cancel, UInt64.toNat_ofNat'] at h
      have hmod := Nat.mod_le n (2 ^ 64)
      omega

/-- A copy whose destination does not start inside the bytes it still has to read (`dst` is `src`, or lies
    before it, or past its end) moves every byte to its place. -/
theorem copy_forward (hn : n ≤ 2 ^ 64) (hfwd : dst = src ∨ n ≤ (dst - src).toNat) :
    m.copy dst src n a = if (a - dst).toNat < n then m (src + (a - dst)) else m a := by
  induction n generalizing a with
  | zero => simp [copy]
  | succ n ih =>
      have ih' : ∀ {a}, m.copy dst src n a = if (a - dst).toNat < n then m (src + (a - dst)) else m a :=
        ih (by omega) (hfwd.imp_right fun h => by omega)
      rw [copy_succ]
      by_cases hlast : (a - dst).toNat = n
      · -- the byte written last was still the original one when it was read
        have ha := (@eq_add_ofNat_iff dst a n (by omega)).mpr hlast
        have hoff : a - dst = UInt64.ofNat n := by rw [← hlast, UInt64.ofNat_toNat]
        have hsrc : ¬ (src + UInt64.ofNat n - dst).toNat < n := by
          rcases hfwd with rfl | hfar
          · rw [← ha, hlast]
            exact lt_irrefl n
          · rw [UInt64.toNat_sub, UInt64.toNat_add, UInt64.toNat_ofNat']
            rw [UInt64.toNat_sub] at hfar
            have hd := dst.toNat_lt
            have hs := src.toNat_lt
            omega
        rw [← ha, Function.update_self, ih', if_neg hsrc, if_pos (by omega), hoff]
      · rw [Function.update_of_ne fun h => hlast ((eq_add_ofNat_iff (by omega)).mp h), ih']
        have hiff : (a - dst).toNat < n ↔ (a - dst).toNat < n + 1 := by omega
        simp only [hiff]

/-- A copy between disjoint ranges moves every byte to its place and changes no other byte. -/
theorem copy_apply (hn : n ≤ 2 ^ 64)
    (hdisj : ∀ i < n, ∀ j < n, dst + UInt64.ofNat i ≠ src + UInt64.ofNat j) :
    m.copy dst src n a = if (a - dst).toNat < n then m (src + (a - dst)) else m a := by
  apply copy_forward hn
  right
  by_contra hlt
  apply hdisj 0 (by omega) (dst - src).toNat (by omega)
  rw [UInt64.ofNat_toNat, UInt64.add_comm src, UInt64.sub_add_cancel]
  exact UInt64.add_zero dst

/-- The offset of a byte from the start of its range. -/
theorem offset_ofNat (hn : n < 2 ^ 64) : (dst + UInt64.ofNat n - dst).toNat = n :=
  (eq_add_ofNat_iff hn).mp rfl

end Bytes
end Lib
