import UefiBoot.Lib.OnesComplement
import UefiBoot.Lib.Traced

/-!
# `Net.Checksum` — `Ipv4Checksum`, the Internet checksum

The code sums the 16-bit words of a string in a 32-bit accumulator, folds the carries in at the end and
returns the complement. Every addition it makes is an event, so that what it must not do, wrap the
accumulator, can be read off the log; both of its loops are recursive functions with their measures, and
so terminate.

`rfc1071` is the specification: the complement of the one's complement sum of the words, carry by carry.
`folded` relates the two, through the one word that stands for an integer sum.
-/

namespace UefiBoot
namespace Net

open Lib (Traced OnesComplement.Reduced)

/-- An addition of two 32-bit words. -/
structure Addition where
  lhs : UInt32
  rhs : UInt32

/-- The addition does not wrap. -/
def Addition.Exact (e : Addition) : Prop := e.lhs.toNat + e.rhs.toNat < 2 ^ 32

/-- `(data[i] << 8) | data[i + 1]`. -/
def wordAt (data : Nat → UInt8) (i : Nat) : UInt16 := (data i).toUInt16 <<< 8 ||| (data (i + 1)).toUInt16

/-- The first loop, from turn `i` on. -/
def addWords (data : Nat → UInt8) (size i : UInt16) (sum : UInt32) : Traced Addition UInt32 :=
  if h : i.toNat + 1 < size.toNat then do
    Traced.emit ⟨sum, (wordAt data i.toNat).toUInt32⟩
    addWords data size (i + 2) (sum + (wordAt data i.toNat).toUInt32)
  else pure sum
termination_by size.toNat - i.toNat
decreasing_by
  have hsize := size.toNat_lt
  have htwo : (2 : UInt16).toNat = 2 := rfl
  rw [UInt16.toNat_add]
  omega

/-- The odd byte at the end. -/
def addLastByte (data : Nat → UInt8) (size : UInt16) (sum : UInt32) : Traced Addition UInt32 :=
  if size &&& 1 ≠ 0 then do
    let last := ((data (size.toNat - 1)).toUInt16 <<< 8).toUInt32
    Traced.emit ⟨sum, last⟩
    pure (sum + last)
  else pure sum

theorem toNat_low (sum : UInt32) : (sum &&& 0xFFFF).toNat = sum.toNat % 65536 := by
  have hmask : (0xFFFF : UInt32).toNat = 2 ^ 16 - 1 := rfl
  rw [UInt32.toNat_and, hmask, Nat.and_two_pow_sub_one_eq_mod]

theorem toNat_high (sum : UInt32) : (sum >>> 16).toNat = sum.toNat / 65536 := by
  have hshift : (16 : UInt32).toNat % 32 = 16 := rfl
  rw [UInt32.toNat_shiftRight, hshift, Nat.shiftRight_eq_div_pow]

/-- One turn of the second loop adds the carries back, without wrapping. -/
theorem toNat_foldTurn (sum : UInt32) : (⟨sum &&& (0xFFFF : UInt32), sum >>> 16⟩ : Addition).Exact ∧
    ((sum &&& (0xFFFF : UInt32)) + (sum >>> 16)).toNat = Lib.OnesComplement.carry 65536 sum.toNat := by
  have hlt := sum.toNat_lt
  unfold Addition.Exact Lib.OnesComplement.carry
  rw [UInt32.toNat_add, toNat_low, toNat_high]
  omega

theorem high_ne_zero_iff (sum : UInt32) : sum >>> 16 ≠ 0 ↔ 65536 ≤ sum.toNat := by
  have hzero : (0 : UInt32).toNat = 0 := rfl
  rw [ne_eq, ← UInt32.toNat_inj, toNat_high, hzero]
  omega

/-- The second loop. -/
def foldCarries (sum : UInt32) : Traced Addition UInt32 :=
  if sum >>> 16 ≠ 0 then do
    Traced.emit ⟨sum &&& (0xFFFF : UInt32), sum >>> 16⟩
    foldCarries ((sum &&& (0xFFFF : UInt32)) + (sum >>> 16))
  else pure sum
termination_by sum.toNat
decreasing_by
  rename_i h
  rw [(toNat_foldTurn sum).2]
  exact Lib.OnesComplement.carry_lt_self (by decide) ((high_ne_zero_iff sum).mp h)

/-- `Ipv4Checksum`. -/
def ipv4Checksum (data : Nat → UInt8) (size : UInt16) : Traced Addition UInt16 := do
  let sum ← addWords data size 0 0
  let sum ← addLastByte data size sum
  let sum ← foldCarries sum
  pure (~~~sum).toUInt16

/-! ## The specification -/

/-- The string as 16-bit integers, a lone last octet padded with zero. -/
def octetPairs (data : Nat → UInt8) (size : Nat) : List Nat :=
  (List.range ((size + 1) / 2)).map fun k =>
    256 * (data (2 * k)).toNat + if 2 * k + 1 < size then (data (2 * k + 1)).toNat else 0

/-- **The Internet checksum** of RFC 1071. -/
def rfc1071 (data : Nat → UInt8) (size : Nat) : Nat :=
  0xFFFF - Lib.OnesComplement.sum 65536 (octetPairs data size)

variable {data : Nat → UInt8} {size i : UInt16} {sum : UInt32}

/-- The sum of the first `n` whole words. -/
def wordSum (data : Nat → UInt8) (n : Nat) : Nat :=
  ((List.range n).map fun k => 256 * (data (2 * k)).toNat + (data (2 * k + 1)).toNat).sum

theorem wordSum_succ (data : Nat → UInt8) (n : Nat) : wordSum data (n + 1) =
    wordSum data n + (256 * (data (2 * n)).toNat + (data (2 * n + 1)).toNat) := by
  unfold wordSum
  rw [List.range_succ, List.map_append, List.sum_append, List.map_singleton, List.sum_singleton]

theorem wordSum_le (data : Nat → UInt8) (n : Nat) : wordSum data n ≤ n * 65535 := by
  induction n with
  | zero => exact Nat.le_refl 0
  | succ n ih =>
      have hhigh := (data (2 * n)).toNat_lt
      have hlow := (data (2 * n + 1)).toNat_lt
      rw [wordSum_succ]
      omega

/-- The words of a string add up to its whole words and its odd byte. -/
theorem sum_octetPairs (data : Nat → UInt8) (n : Nat) :
    (octetPairs data n).sum = wordSum data (n / 2) + if n % 2 = 1 then 256 * (data (n - 1)).toNat else 0 := by
  have hwhole : ∀ k, 2 * k ≤ n → ((List.range k).map fun k => 256 * (data (2 * k)).toNat +
      if 2 * k + 1 < n then (data (2 * k + 1)).toNat else 0).sum = wordSum data k := by
    intro k hk
    unfold wordSum
    congr 1
    apply List.map_congr_left
    intro j hj
    rw [List.mem_range] at hj
    rw [if_pos (by omega)]
  unfold octetPairs
  by_cases hodd : n % 2 = 1
  · rw [if_pos hodd, show (n + 1) / 2 = n / 2 + 1 by omega, List.range_succ, List.map_append, List.sum_append,
      hwhole (n / 2) (by omega), List.map_singleton, List.sum_singleton, if_neg (by omega),
      show 2 * (n / 2) = n - 1 by omega, Nat.add_zero]
  · rw [if_neg hodd, show (n + 1) / 2 = n / 2 by omega, hwhole (n / 2) (by omega), Nat.add_zero]

theorem octetPairs_lt {n w : Nat} (h : w ∈ octetPairs data n) : w < 65536 := by
  unfold octetPairs at h
  obtain ⟨k, -, rfl⟩ := List.mem_map.mp h
  have hhigh := (data (2 * k)).toNat_lt
  have hlow := (data (2 * k + 1)).toNat_lt
  split <;> omega

/-! ## The accumulator -/

theorem toNat_wordAt (data : Nat → UInt8) (i : Nat) :
    (wordAt data i).toUInt32.toNat = 256 * (data i).toNat + (data (i + 1)).toNat := by
  have hhigh := (data i).toNat_lt
  have hlow := (data (i + 1)).toNat_lt
  have hshift : (8 : UInt16).toNat % 16 = 8 := rfl
  have hval : ((data i).toUInt16 <<< 8).toNat = 2 ^ 8 * (data i).toNat := by
    rw [UInt16.toNat_shiftLeft, hshift, UInt8.toNat_toUInt16, Nat.shiftLeft_eq]
    omega
  unfold wordAt
  rw [UInt16.toNat_toUInt32, UInt16.toNat_or, hval, UInt8.toNat_toUInt16, ← Nat.two_pow_add_eq_or_of_lt hlow]

/-- **The first loop** adds up the whole words, and the accumulator holds them exactly. -/
theorem addWords_spec (heven : i.toNat % 2 = 0) (hi : i.toNat ≤ size.toNat)
    (hsum : sum.toNat = wordSum data (i.toNat / 2)) :
    Traced.All Addition.Exact (addWords data size i sum) ∧
    (addWords data size i sum).value.toNat = wordSum data (size.toNat / 2) := by
  fun_induction addWords data size i sum with
  | case1 i sum hturn ih =>
      have hlt := size.toNat_lt
      have htwo : (2 : UInt16).toNat = 2 := rfl
      have hnext : (i + 2).toNat = i.toNat + 2 := by
        rw [UInt16.toNat_add]
        omega
      have hword := toNat_wordAt data i.toNat
      have hsucc := wordSum_succ data (i.toNat / 2)
      rw [show 2 * (i.toNat / 2) = i.toNat by omega] at hsucc
      -- at most `2 ^ 15` words of 16 bits
      have hbound := wordSum_le data (i.toNat / 2 + 1)
      have hexact : (⟨sum, (wordAt data i.toNat).toUInt32⟩ : Addition).Exact := by
        unfold Addition.Exact
        dsimp only
        omega
      have hadd : (sum + (wordAt data i.toNat).toUInt32).toNat = wordSum data (i.toNat / 2 + 1) := by
        unfold Addition.Exact at hexact
        rw [UInt32.toNat_add]
        omega
      have hrest := ih (by omega) (by omega) (by rw [hadd, hnext]; congr 1; omega)
      refine ⟨?_, hrest.2⟩
      rw [Traced.all_bind, Traced.all_emit]
      exact ⟨hexact, hrest.1⟩
  | case2 i sum hturn =>
      refine ⟨Traced.all_pure _, ?_⟩
      rw [Traced.value_pure, hsum]
      congr 1
      omega

theorem odd_iff (size : UInt16) : size &&& 1 ≠ 0 ↔ size.toNat % 2 = 1 := by
  have hone : (1 : UInt16).toNat = 2 ^ 1 - 1 := rfl
  have hzero : (0 : UInt16).toNat = 0 := rfl
  rw [ne_eq, ← UInt16.toNat_inj, UInt16.toNat_and, hone, Nat.and_two_pow_sub_one_eq_mod, hzero]
  omega

theorem addLastByte_spec (hsum : sum.toNat = wordSum data (size.toNat / 2)) :
    Traced.All Addition.Exact (addLastByte data size sum) ∧
    (addLastByte data size sum).value.toNat = (octetPairs data size.toNat).sum := by
  have hlt := size.toNat_lt
  have hbound := wordSum_le data (size.toNat / 2)
  rw [sum_octetPairs]
  unfold addLastByte
  by_cases hodd : size.toNat % 2 = 1
  · have hbyte := (data (size.toNat - 1)).toNat_lt
    have hshift : (8 : UInt16).toNat % 16 = 8 := rfl
    have hlast : ((data (size.toNat - 1)).toUInt16 <<< 8).toUInt32.toNat = 256 * (data (size.toNat - 1)).toNat := by
      rw [UInt16.toNat_toUInt32, UInt16.toNat_shiftLeft, hshift, UInt8.toNat_toUInt16, Nat.shiftLeft_eq]
      omega
    rw [if_pos ((odd_iff size).mpr hodd), if_pos hodd]
    constructor
    · rw [Traced.all_bind, Traced.all_emit]
      refine ⟨?_, Traced.all_pure _⟩
      unfold Addition.Exact
      dsimp only
      omega
    · rw [Traced.value_bind, Traced.value_pure, UInt32.toNat_add]
      omega
  · rw [if_neg (mt (odd_iff size).mp hodd), if_neg hodd]
    exact ⟨Traced.all_pure _, hsum⟩

/-- **The second loop** ends at the word that stands for the sum. -/
theorem foldCarries_spec (sum : UInt32) : Traced.All Addition.Exact (foldCarries sum) ∧
    Lib.OnesComplement.Reduced 65536 sum.toNat (foldCarries sum).value.toNat := by
  fun_induction foldCarries sum with
  | case1 sum hcarry ih =>
      obtain ⟨hexact, hval⟩ := toNat_foldTurn sum
      rw [hval] at ih
      refine ⟨?_, ih.2.of_carry (by decide)⟩
      rw [Traced.all_bind, Traced.all_emit]
      exact ⟨hexact, ih.1⟩
  | case2 sum hdone =>
      have hlt := mt (high_ne_zero_iff sum).mpr hdone
      exact ⟨Traced.all_pure _, Lib.OnesComplement.Reduced.self (by omega)⟩

/-- The folded accumulator, before the complement. -/
theorem folded (data : Nat → UInt8) (size : UInt16) :
    Traced.All Addition.Exact (ipv4Checksum data size) ∧
    ∃ v, Lib.OnesComplement.Reduced 65536 (octetPairs data size.toNat).sum v ∧
      (ipv4Checksum data size).value.toNat = 0xFFFF - v := by
  obtain ⟨hwords, hwordsVal⟩ := @addWords_spec data size 0 0 rfl (Nat.zero_le _) rfl
  obtain ⟨hlast, hlastVal⟩ := addLastByte_spec hwordsVal
  obtain ⟨hfold, hreduced⟩ :=
    foldCarries_spec (addLastByte data size (addWords data size 0 0).value).value
  rw [hlastVal] at hreduced
  have hlt := hreduced.lt
  constructor
  · unfold ipv4Checksum
    simp only [Traced.all_bind]
    exact ⟨hwords, hlast, hfold, Traced.all_pure _⟩
  · refine ⟨_, hreduced, ?_⟩
    unfold ipv4Checksum
    simp only [Traced.value_bind, Traced.value_pure]
    generalize (foldCarries _).value = v at hlt
    rw [UInt32.toNat_toUInt16, UInt32.toNat_not]
    have hv := v.toNat_lt
    have hsize : UInt32.size = 2 ^ 32 := rfl
    omega

/-! ## A string that carries its checksum -/

/-- `field[0] = value >> 8; field[1] = value & 0xFF`. -/
def storeBigEndian (data : Nat → UInt8) (field : Nat) (value : UInt16) : Nat → UInt8 :=
  fun i => if i = field then (value >>> 8).toUInt8 else if i = field + 1 then value.toUInt8 else data i

theorem storeBigEndian_word (data : Nat → UInt8) (k : Nat) (value : UInt16) :
    256 * (storeBigEndian data (2 * k) value (2 * k)).toNat +
      (storeBigEndian data (2 * k) value (2 * k + 1)).toNat = value.toNat := by
  have hlt := value.toNat_lt
  have hshift : (8 : UInt16).toNat % 16 = 8 := rfl
  unfold storeBigEndian
  rw [if_pos rfl, if_neg (by omega), if_pos rfl, UInt16.toNat_toUInt8, UInt16.toNat_toUInt8,
    UInt16.toNat_shiftRight, hshift, Nat.shiftRight_eq_div_pow]
  omega

/-- A field of zeros contributes what is stored there. -/
theorem wordSum_storeBigEndian {k : Nat} (hhigh : data (2 * k) = 0) (hlow : data (2 * k + 1) = 0)
    (value : UInt16) (n : Nat) :
    wordSum (storeBigEndian data (2 * k) value) n = wordSum data n + if k < n then value.toNat else 0 := by
  induction n with
  | zero => rfl
  | succ n ih =>
      rw [wordSum_succ, wordSum_succ, ih]
      rcases Nat.lt_trichotomy k n with hlt | rfl | hgt
      · have hword : ∀ j, 2 * n ≤ j → storeBigEndian data (2 * k) value j = data j := by
          intro j hj
          unfold storeBigEndian
          rw [if_neg (by omega), if_neg (by omega)]
        rw [if_pos hlt, if_pos (by omega), hword _ (Nat.le_refl _), hword _ (by omega)]
        omega
      · rw [storeBigEndian_word, if_neg (by omega), if_pos (by omega), hhigh, hlow]
        rfl
      · have hword : ∀ j, j < 2 * k → storeBigEndian data (2 * k) value j = data j := by
          intro j hj
          unfold storeBigEndian
          rw [if_neg (by omega), if_neg (by omega)]
        rw [if_neg (by omega), if_neg (by omega), hword _ (by omega), hword _ (by omega)]
        omega

/-- **`Ipv4Checksum` is the Internet checksum.** No addition wraps, the result is the complement of the one's
    complement sum, and a string that carries its own checksum in a field of zeros checks to zero. -/
theorem ipv4Checksum_rfc1071 (data : Nat → UInt8) (size : UInt16) :
    Traced.All Addition.Exact (ipv4Checksum data size) ∧
    (ipv4Checksum data size).value.toNat = rfc1071 data size.toNat ∧
    ∀ field, size.toNat % 2 = 0 → field % 2 = 0 → field + 1 < size.toNat → data field = 0 → data (field + 1) = 0 →
      (ipv4Checksum (storeBigEndian data field (ipv4Checksum data size).value) size).value = 0 := by
  obtain ⟨hexact, v, hreduced, hval⟩ := folded data size
  refine ⟨hexact, ?_, fun field hsize hfield hin hhigh hlow => ?_⟩
  · have hsum := Lib.OnesComplement.reduced_sum (by decide) fun w hw => @octetPairs_lt data size.toNat w hw
    rw [hval, hreduced.unique hsum]
    rfl
  · obtain ⟨k, rfl⟩ : ∃ k, field = 2 * k := ⟨field / 2, by omega⟩
    generalize (ipv4Checksum data size).value = checksum at hval
    obtain ⟨-, u, hreduced', hval'⟩ := folded (storeBigEndian data (2 * k) checksum) size
    -- the stored checksum completes the sum to a word of all ones
    have hsum : (octetPairs (storeBigEndian data (2 * k) checksum) size.toNat).sum =
        (octetPairs data size.toNat).sum + (65536 - 1 - v) := by
      rw [sum_octetPairs, sum_octetPairs, if_neg (by omega), if_neg (by omega),
        wordSum_storeBigEndian hhigh hlow, if_pos (by omega), hval]
      omega
    rw [hsum] at hreduced'
    have hones := hreduced'.unique (hreduced.complement (by decide))
    apply UInt16.toNat_inj.mp
    rw [hval', hones]
    rfl

/-- The header of `RunIpv4SelfTest`, with the checksum field at offset 10. -/
def header : Nat → UInt8 := fun i =>
  [0x45, 0x00, 0x00, 0x18, 0x00, 0x01, 0x00, 0x00, 0x40, 0x01, 0x00, 0x00, 10, 0, 2, 15, 1, 1, 1, 1].getD i 0

theorem ipv4Checksum_header :
    (ipv4Checksum (storeBigEndian header 10 (ipv4Checksum header 20).value) 20).value = 0 :=
  (ipv4Checksum_rfc1071 header 20).2.2 10 (by decide) (by decide) (by decide) (by decide) (by decide)

end Net
end UefiBoot
