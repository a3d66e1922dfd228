import UefiBoot.Lib.BitFields

/-!
# `Cpu.DescriptorTables` — the GDT and the IDT that `InitGdt` and `InitIdt` fill

`SetTssDescriptor` writes the two words of a TSS descriptor and `SetIdtGate` the sixteen bytes of an interrupt
gate. Both scatter an address over fields that are not next to each other. What the processor makes of them is
stated separately, from the bit positions of the descriptor formats (`decodeSystemDescriptor`, `decodeGate`); the
results say that decoding gives back what was encoded, for every address.

A descriptor is `BitField.pack` of its fields, so that each field is read back by `bits_pack`, and the parts of an
address are put together again by `bits_join`.
-/

namespace UefiBoot
namespace DescriptorTables

open Lib (BitField bits)
open Lib.BitField (pack)

def kKernelCodeSelector : UInt16 := 0x08
def kIdtInterruptGate : UInt8 := 0x8E
def kIrqBaseVector : Nat := 32
def kIrqCount : Nat := 16

/-- `IdtEntry`, a packed struct. -/
structure IdtEntry where
  offsetLow      : UInt16
  selector       : UInt16
  ist            : UInt8
  typeAttributes : UInt8
  offsetMid      : UInt16
  offsetHigh     : UInt32
  reserved       : UInt32
  deriving DecidableEq, Repr

/-- The sixteen bytes of an entry as one little-endian number: the fields of a packed struct follow each other. -/
def IdtEntry.fields (e : IdtEntry) : List BitField :=
  [⟨16, e.offsetLow.toNat⟩, ⟨16, e.selector.toNat⟩, ⟨8, e.ist.toNat⟩, ⟨8, e.typeAttributes.toNat⟩,
    ⟨16, e.offsetMid.toNat⟩, ⟨32, e.offsetHigh.toNat⟩, ⟨32, e.reserved.toNat⟩]

/-- `g_Gdt`; a TSS descriptor takes two words. -/
abbrev Gdt : Type := Fin 5 → UInt64

/-- `g_Idt`. -/
abbrev Idt : Type := UInt8 → IdtEntry

/-- The first word of a TSS descriptor. -/
def tssDescriptorLow (base : UInt64) (limit : UInt32) : UInt64 :=
  (limit &&& 0xFFFF).toUInt64 |||
  ((base &&& 0xFFFFFF) <<< 16) |||
  ((0x89 : UInt64) <<< 40) |||
  (((limit >>> 16) &&& 0xF).toUInt64 <<< 48) |||
  ((base &&& 0xFF000000) <<< 32)

/-- `SetTssDescriptor`; `index` is one of the words that have another behind them. -/
def setTssDescriptor (gdt : Gdt) (index : Fin 4) (base : UInt64) (limit : UInt32) : Gdt :=
  Function.update (Function.update gdt index.castSucc (tssDescriptorLow base limit)) index.succ (base >>> 32)

/-- `SetIdtGate`. -/
def setIdtGate (idt : Idt) (vector : UInt8) (handler : UInt64) : Idt :=
  Function.update idt vector
    { offsetLow := (handler &&& 0xFFFF).toUInt16
      selector := kKernelCodeSelector
      ist := 1
      typeAttributes := kIdtInterruptGate
      offsetMid := ((handler >>> 16) &&& 0xFFFF).toUInt16
      offsetHigh := ((handler >>> 32) &&& 0xFFFFFFFF).toUInt32
      reserved := 0 }

/-- `InitGdt`, for a TSS at an address. -/
def initGdt (tss : UInt64) : Gdt :=
  let gdt : Gdt := fun _ => 0
  let gdt := Function.update gdt 1 0x00AF9A000000FFFF
  let gdt := Function.update gdt 2 0x00AF92000000FFFF
  -- entries 3 and 4, with the limit `sizeof(Tss64) - 1`
  setTssDescriptor gdt (Fin.last 3) tss 103

/-- Either loop of `InitIdt`: gates for `n` vectors from `base` on. -/
def setIdtGates (idt : Idt) (base n : Nat) (stubs : Nat → UInt64) : Idt :=
  (List.range n).foldl (fun idt k => setIdtGate idt (UInt8.ofNat (base + k)) (stubs k)) idt

/-- `InitIdt`, for the addresses of the stubs. -/
def initIdt (exceptionStubs irqStubs : Nat → UInt64) : Idt :=
  let idt : Idt := fun _ => ⟨0, 0, 0, 0, 0, 0, 0⟩
  let idt := setIdtGates idt 0 32 exceptionStubs
  setIdtGates idt kIrqBaseVector kIrqCount irqStubs

/-! ## What the processor reads -/

/-- A TSS or LDT descriptor of 64-bit mode. `access` is the type with the system flag, the privilege level and the
    present flag. -/
structure SystemDescriptor where
  base        : Nat
  limit       : Nat
  access      : Nat
  available   : Nat
  zero        : Nat
  granularity : Nat
  deriving DecidableEq, Repr

def decodeSystemDescriptor (low high : UInt64) : SystemDescriptor where
  base := bits low.toNat 16 24 + 2 ^ 24 * bits low.toNat 56 8 + 2 ^ 32 * bits high.toNat 0 32
  limit := bits low.toNat 0 16 + 2 ^ 16 * bits low.toNat 48 4
  access := bits low.toNat 40 8
  available := bits low.toNat 52 1
  zero := bits low.toNat 53 2
  granularity := bits low.toNat 55 1

/-- An interrupt or trap gate of 64-bit mode. -/
structure Gate where
  offset    : Nat
  selector  : Nat
  ist       : Nat
  type      : Nat
  system    : Nat
  privilege : Nat
  present   : Nat
  deriving DecidableEq, Repr

def decodeGate (e : IdtEntry) : Gate where
  offset := bits (pack e.fields) 0 16 + 2 ^ 16 * bits (pack e.fields) 48 16 + 2 ^ 32 * bits (pack e.fields) 64 32
  selector := bits (pack e.fields) 16 16
  ist := bits (pack e.fields) 32 3
  type := bits (pack e.fields) 40 4
  system := bits (pack e.fields) 44 1
  privilege := bits (pack e.fields) 45 2
  present := bits (pack e.fields) 47 1

/-! ## The TSS descriptor -/

variable {base : UInt64} {limit : UInt32}

/-- The first word of a TSS descriptor as a row of fields. -/
def tssFields (base : UInt64) (limit : UInt32) : List BitField :=
  [⟨16, bits limit.toNat 0 16⟩, ⟨24, bits base.toNat 0 24⟩, ⟨8, 0x89⟩, ⟨4, bits limit.toNat 16 4⟩, ⟨4, 0⟩,
    ⟨8, bits base.toNat 24 8⟩]

/-- The limit's parts, after their masks. -/
theorem toNat_limit_parts (limit : UInt32) :
    (limit &&& 0xFFFF).toUInt64.toNat = bits limit.toNat 0 16 ∧
      ((limit >>> 16) &&& 0xF).toUInt64.toNat = bits limit.toNat 16 4 := by
  have hlow : (0xFFFF : UInt32).toNat = (2 ^ 16 - 1) <<< 0 := rfl
  have hhigh : (0xF : UInt32).toNat = (2 ^ 4 - 1) <<< 0 := rfl
  have hshift : (16 : UInt32).toNat % 32 = 16 := rfl
  constructor
  · rw [UInt32.toNat_toUInt64, UInt32.toNat_and, hlow, Lib.and_mask, pow_zero, Nat.mul_one]
  · rw [UInt32.toNat_toUInt64, UInt32.toNat_and, UInt32.toNat_shiftRight, hhigh, Lib.and_mask, hshift, pow_zero,
      Nat.mul_one, Nat.shiftRight_eq_div_pow]
    unfold bits
    rw [pow_zero, Nat.div_one]

/-- The parts of the base that go into the first word, after their masks and shifts. -/
theorem toNat_base_parts (base : UInt64) :
    ((base &&& 0xFFFFFF) <<< 16).toNat = bits base.toNat 0 24 * 2 ^ 16 ∧
      ((base &&& 0xFF000000) <<< 32).toNat = bits base.toNat 24 8 * 2 ^ 56 := by
  have hlow : (0xFFFFFF : UInt64).toNat = (2 ^ 24 - 1) <<< 0 := rfl
  have hhigh : (0xFF000000 : UInt64).toNat = (2 ^ 8 - 1) <<< 24 := rfl
  have hshift : (16 : UInt64).toNat % 64 = 16 := rfl
  have hshift' : (32 : UInt64).toNat % 64 = 32 := rfl
  have hlt := Lib.bits_lt base.toNat 0 24
  have hlt' := Lib.bits_lt base.toNat 24 8
  constructor
  · rw [UInt64.toNat_shiftLeft, UInt64.toNat_and, hlow, Lib.and_mask, hshift, pow_zero, Nat.mul_one,
      Nat.shiftLeft_eq, Nat.mod_eq_of_lt (by omega)]
  · rw [UInt64.toNat_shiftLeft, UInt64.toNat_and, hhigh, Lib.and_mask, hshift', Nat.shiftLeft_eq, Nat.mul_assoc,
      ← pow_add, Nat.mod_eq_of_lt (by omega)]

/-- The shifts and masks put every field into its place. -/
theorem toNat_tssDescriptorLow (base : UInt64) (limit : UInt32) :
    (tssDescriptorLow base limit).toNat = pack (tssFields base limit) := by
  have hlimit := Lib.bits_lt limit.toNat 0 16
  have hbase := Lib.bits_lt base.toNat 0 24
  have hlimit' := Lib.bits_lt limit.toNat 16 4
  have hbase' := Lib.bits_lt base.toNat 24 8
  have htype : ((0x89 : UInt64) <<< 40).toNat = 0x89 * 2 ^ 40 := rfl
  have hshift : (48 : UInt64).toNat % 64 = 48 := rfl
  have htop : (((limit >>> 16) &&& 0xF).toUInt64 <<< 48).toNat = bits limit.toNat 16 4 * 2 ^ 48 := by
    rw [UInt64.toNat_shiftLeft, (toNat_limit_parts limit).2, hshift, Nat.shiftLeft_eq, Nat.mod_eq_of_lt (by omega)]
  -- every `or` adds a field above those that are there
  unfold tssDescriptorLow
  rw [UInt64.toNat_or, UInt64.toNat_or, UInt64.toNat_or, UInt64.toNat_or, (toNat_limit_parts limit).1,
    (toNat_base_parts base).1, htype, htop, (toNat_base_parts base).2]
  rw [← Nat.shiftLeft_eq _ 16, ← Nat.shiftLeft_eq _ 40, ← Nat.shiftLeft_eq _ 48, ← Nat.shiftLeft_eq _ 56]
  rw [Lib.or_shiftLeft (k := 16) (by omega), Lib.or_shiftLeft (k := 40) (by omega),
    Lib.or_shiftLeft (k := 48) (by omega), Lib.or_shiftLeft (k := 56) (by omega)]
  unfold tssFields pack pack pack pack pack pack pack
  dsimp only
  rw [Nat.mod_eq_of_lt hlimit, Nat.mod_eq_of_lt hbase, Nat.mod_eq_of_lt hlimit', Nat.mod_eq_of_lt hbase']
  omega

/-- A number put together from three neighbouring fields. -/
theorem bits_join_three (n a b c : Nat) :
    bits n 0 a + 2 ^ a * bits n a b + 2 ^ (a + b) * bits n (a + b) c = bits n 0 (a + b + c) := by
  have hlow := Lib.bits_join n 0 a b
  have hall := Lib.bits_join n 0 (a + b) c
  rw [Nat.zero_add] at hlow hall
  rw [hlow, hall]

/-- **The processor reads back the base and the limit.** -/
theorem decode_tssDescriptor (base : UInt64) (limit : UInt32) (h : limit.toNat < 2 ^ 20) :
    decodeSystemDescriptor (tssDescriptorLow base limit) (base >>> 32) =
      { base := base.toNat, limit := limit.toNat, access := 0x89, available := 0, zero := 0, granularity := 0 } := by
  have hfield := Lib.BitField.bits_pack (tssFields base limit)
  rw [← toNat_tssDescriptorLow] at hfield
  have hlimit : bits (tssDescriptorLow base limit).toNat 0 16 = bits limit.toNat 0 16 :=
    (hfield 0 (by decide : 0 < 6)).trans (Nat.mod_eq_of_lt (Lib.bits_lt _ _ _))
  have hbase : bits (tssDescriptorLow base limit).toNat 16 24 = bits base.toNat 0 24 :=
    (hfield 1 (by decide : 1 < 6)).trans (Nat.mod_eq_of_lt (Lib.bits_lt _ _ _))
  have haccess : bits (tssDescriptorLow base limit).toNat 40 8 = 0x89 := hfield 2 (by decide : 2 < 6)
  have hlimit' : bits (tssDescriptorLow base limit).toNat 48 4 = bits limit.toNat 16 4 :=
    (hfield 3 (by decide : 3 < 6)).trans (Nat.mod_eq_of_lt (Lib.bits_lt _ _ _))
  have hflags : bits (tssDescriptorLow base limit).toNat 52 4 = 0 := hfield 4 (by decide : 4 < 6)
  have hbase' : bits (tssDescriptorLow base limit).toNat 56 8 = bits base.toNat 24 8 :=
    (hfield 5 (by decide : 5 < 6)).trans (Nat.mod_eq_of_lt (Lib.bits_lt _ _ _))
  have hhigh : bits (base >>> 32).toNat 0 32 = bits base.toNat 32 32 := by
    have hshift : (32 : UInt64).toNat % 64 = 32 := rfl
    rw [UInt64.toNat_shiftRight, hshift, Nat.shiftRight_eq_div_pow]
    unfold bits
    rw [pow_zero, Nat.div_one]
  -- the flags are parts of the field above the limit
  have hpart : ∀ k len, k + len ≤ 4 → bits (tssDescriptorLow base limit).toNat (52 + k) len = 0 := by
    intro k len hle
    rw [← Lib.bits_bits hle, hflags]
    unfold bits
    rw [Nat.zero_div, Nat.zero_mod]
  have hwhole : bits base.toNat 0 24 + 2 ^ 24 * bits base.toNat 24 8 + 2 ^ 32 * bits base.toNat 32 32 =
      base.toNat := (bits_join_three _ 24 8 32).trans (Lib.bits_zero_of_lt base.toNat_lt)
  have hall : bits limit.toNat 0 16 + 2 ^ 16 * bits limit.toNat 16 4 = limit.toNat :=
    (Lib.bits_join _ 0 16 4).trans (Lib.bits_zero_of_lt h)
  unfold decodeSystemDescriptor
  rw [hlimit, hlimit', hbase, hbase', haccess, hhigh, hpart 0 1 (by omega), hpart 1 2 (by omega),
    hpart 3 1 (by omega), hwhole, hall]

/-- Only the two words of the descriptor are written. -/
theorem setTssDescriptor_other (gdt : Gdt) (index : Fin 4) (base : UInt64) (limit : UInt32) {i : Fin 5}
    (hlow : i ≠ index.castSucc) (hhigh : i ≠ index.succ) : setTssDescriptor gdt index base limit i = gdt i := by
  unfold setTssDescriptor
  rw [Function.update_of_ne hhigh, Function.update_of_ne hlow]

theorem setTssDescriptor_words (gdt : Gdt) (index : Fin 4) (base : UInt64) (limit : UInt32) :
    setTssDescriptor gdt index base limit index.castSucc = tssDescriptorLow base limit ∧
      setTssDescriptor gdt index base limit index.succ = base >>> 32 := by
  have hne : index.castSucc ≠ index.succ := (Fin.castSucc_lt_succ).ne
  unfold setTssDescriptor
  exact ⟨by rw [Function.update_of_ne hne, Function.update_self], Function.update_self _ _ _⟩

/-- **The table after `InitGdt`**: the null descriptor, the two segments, and the TSS. -/
theorem decode_initGdt (tss : UInt64) :
    initGdt tss 0 = 0 ∧ initGdt tss 1 = 0x00AF9A000000FFFF ∧ initGdt tss 2 = 0x00AF92000000FFFF ∧
      decodeSystemDescriptor (initGdt tss 3) (initGdt tss 4) =
        { base := tss.toNat, limit := 103, access := 0x89, available := 0, zero := 0, granularity := 0 } := by
  have hother := fun i : Fin 5 => @setTssDescriptor_other
    (Function.update (Function.update (fun _ => 0) 1 0x00AF9A000000FFFF) 2 0x00AF92000000FFFF) 3 tss 103 i
  refine ⟨(hother 0 (by decide) (by decide)).trans rfl, (hother 1 (by decide) (by decide)).trans rfl,
    (hother 2 (by decide) (by decide)).trans rfl, ?_⟩
  obtain ⟨hlow, hhigh⟩ := setTssDescriptor_words
    (Function.update (Function.update (fun _ => 0) 1 0x00AF9A000000FFFF) 2 0x00AF92000000FFFF) 3 tss 103
  have hlow' : initGdt tss 3 = tssDescriptorLow tss 103 := hlow
  have hhigh' : initGdt tss 4 = tss >>> 32 := hhigh
  rw [hlow', hhigh']
  exact decode_tssDescriptor tss 103 (by decide)

/-! ## The gates -/

/-- The gate for a handler. -/
def interruptGate (handler : UInt64) : Gate :=
  { offset := handler.toNat, selector := kKernelCodeSelector.toNat, ist := 1, type := 0xE, system := 0,
    privilege := 0, present := 1 }

/-- The parts of the handler's address. -/
theorem toNat_handler_parts (handler : UInt64) :
    (handler &&& 0xFFFF).toUInt16.toNat = bits handler.toNat 0 16 ∧
      ((handler >>> 16) &&& 0xFFFF).toUInt16.toNat = bits handler.toNat 16 16 ∧
      ((handler >>> 32) &&& 0xFFFFFFFF).toUInt32.toNat = bits handler.toNat 32 32 := by
  have hword : (0xFFFF : UInt64).toNat = (2 ^ 16 - 1) <<< 0 := rfl
  have hdword : (0xFFFFFFFF : UInt64).toNat = (2 ^ 32 - 1) <<< 0 := rfl
  have hshift : (16 : UInt64).toNat % 64 = 16 := rfl
  have hshift' : (32 : UInt64).toNat % 64 = 32 := rfl
  have hbelow : ∀ n k len, bits (n / 2 ^ k) 0 len = bits n k len := by
    intro n k len
    unfold bits
    rw [pow_zero, Nat.div_one]
  refine ⟨?_, ?_, ?_⟩
  · rw [UInt64.toNat_toUInt16, UInt64.toNat_and, hword, Lib.and_mask, pow_zero, Nat.mul_one,
      Nat.mod_eq_of_lt (Lib.bits_lt _ _ _)]
  · rw [UInt64.toNat_toUInt16, UInt64.toNat_and, UInt64.toNat_shiftRight, hshift, hword, Lib.and_mask, pow_zero,
      Nat.mul_one, Nat.mod_eq_of_lt (Lib.bits_lt _ _ _), Nat.shiftRight_eq_div_pow, hbelow]
  · rw [UInt64.toNat_toUInt32, UInt64.toNat_and, UInt64.toNat_shiftRight, hshift', hdword, Lib.and_mask, pow_zero,
      Nat.mul_one, Nat.mod_eq_of_lt (Lib.bits_lt _ _ _), Nat.shiftRight_eq_div_pow, hbelow]

/-- **The processor reads back the handler.** -/
theorem decode_setIdtGate (idt : Idt) (vector : UInt8) (handler : UInt64) :
    decodeGate (setIdtGate idt vector handler vector) = interruptGate handler := by
  obtain ⟨hlow, hmid, hhigh⟩ := toNat_handler_parts handler
  unfold setIdtGate
  rw [Function.update_self]
  generalize hentry : IdtEntry.mk _ _ _ _ _ _ _ = e
  have hfield := Lib.BitField.bits_pack e.fields
  have hlow' : bits (pack e.fields) 0 16 = bits handler.toNat 0 16 := by
    refine (hfield 0 (by decide : 0 < 7)).trans ?_
    subst hentry
    exact (congrArg (· % 2 ^ 16) hlow).trans (Nat.mod_eq_of_lt (Lib.bits_lt _ _ _))
  have hselector : bits (pack e.fields) 16 16 = kKernelCodeSelector.toNat := by
    refine (hfield 1 (by decide : 1 < 7)).trans ?_
    subst hentry
    rfl
  have hist : bits (pack e.fields) 32 8 = 1 := by
    refine (hfield 2 (by decide : 2 < 7)).trans ?_
    subst hentry
    rfl
  have htype : bits (pack e.fields) 40 8 = 0x8E := by
    refine (hfield 3 (by decide : 3 < 7)).trans ?_
    subst hentry
    rfl
  have hmid' : bits (pack e.fields) 48 16 = bits handler.toNat 16 16 := by
    refine (hfield 4 (by decide : 4 < 7)).trans ?_
    subst hentry
    exact (congrArg (· % 2 ^ 16) hmid).trans (Nat.mod_eq_of_lt (Lib.bits_lt _ _ _))
  have hhigh' : bits (pack e.fields) 64 32 = bits handler.toNat 32 32 := by
    refine (hfield 5 (by decide : 5 < 7)).trans ?_
    subst hentry
    exact (congrArg (· % 2 ^ 32) hhigh).trans (Nat.mod_eq_of_lt (Lib.bits_lt _ _ _))
  -- IST, type, system, privilege and present are parts of two bytes
  have hpart : ∀ k len, k + len ≤ 8 → bits (pack e.fields) (40 + k) len = bits 0x8E k len := by
    intro k len hle
    rw [← Lib.bits_bits hle, htype]
  have histPart : bits (pack e.fields) 32 3 = 1 := by
    have hsub : bits (pack e.fields) (32 + 0) 3 = bits 1 0 3 := by
      rw [← Lib.bits_bits (by omega : 0 + 3 ≤ 8), hist]
    exact hsub
  have hwhole : bits handler.toNat 0 16 + 2 ^ 16 * bits handler.toNat 16 16 +
      2 ^ 32 * bits handler.toNat 32 32 = handler.toNat :=
    (bits_join_three _ 16 16 32).trans (Lib.bits_zero_of_lt handler.toNat_lt)
  unfold decodeGate interruptGate
  rw [hlow', hmid', hhigh', hwhole, hselector, histPart, hpart 0 4 (by omega), hpart 4 1 (by omega),
    hpart 5 2 (by omega), hpart 7 1 (by omega)]
  rfl

/-- Only the gate of the vector is written. -/
theorem setIdtGate_other (idt : Idt) (vector : UInt8) (handler : UInt64) {v : UInt8} (h : v ≠ vector) :
    setIdtGate idt vector handler v = idt v := by
  unfold setIdtGate
  rw [Function.update_of_ne h]

/-- What a loop over vectors leaves behind. -/
theorem decode_setIdtGates (idt : Idt) {base n : Nat} (stubs : Nat → UInt64) (h : base + n ≤ 256) (v : UInt8) :
    decodeGate (setIdtGates idt base n stubs v) =
      if base ≤ v.toNat ∧ v.toNat < base + n then interruptGate (stubs (v.toNat - base)) else decodeGate (idt v) := by
  induction n with
  | zero =>
      rw [if_neg (by omega)]
      rfl
  | succ n ih =>
      have hlast : (UInt8.ofNat (base + n)).toNat = base + n := by
        rw [UInt8.toNat_ofNat', Nat.mod_eq_of_lt (by omega)]
      have hstep : setIdtGates idt base (n + 1) stubs =
          setIdtGate (setIdtGates idt base n stubs) (UInt8.ofNat (base + n)) (stubs n) := by
        unfold setIdtGates
        rw [List.range_succ, List.foldl_append]
        rfl
      rw [hstep]
      by_cases hv : v = UInt8.ofNat (base + n)
      · subst hv
        rw [decode_setIdtGate, hlast, if_pos (by omega), Nat.add_sub_cancel_left]
      · have hne : v.toNat ≠ base + n := fun heq => hv (UInt8.toNat_inj.mp (heq.trans hlast.symm))
        have hiff : (base ≤ v.toNat ∧ v.toNat < base + n) ↔ (base ≤ v.toNat ∧ v.toNat < base + (n + 1)) := by
          omega
        rw [setIdtGate_other _ _ _ hv, ih (by omega)]
        simp only [hiff]

/-- **The table after `InitIdt`.** The 32 exceptions and the 16 interrupts lead to their stubs, and the other
    vectors have no gate. -/
theorem decode_initIdt (exceptionStubs irqStubs : Nat → UInt64) (v : UInt8) :
    decodeGate (initIdt exceptionStubs irqStubs v) =
      if v.toNat < 32 then interruptGate (exceptionStubs v.toNat)
      else if v.toNat < 48 then interruptGate (irqStubs (v.toNat - 32))
      else ⟨0, 0, 0, 0, 0, 0, 0⟩ := by
  unfold initIdt
  rw [decode_setIdtGates _ _ (by decide), decode_setIdtGates _ _ (by decide)]
  unfold kIrqBaseVector kIrqCount
  rw [Nat.zero_add, Nat.sub_zero]
  by_cases hexception : v.toNat < 32
  · rw [if_neg (by omega), if_pos (by omega), if_pos hexception]
  · by_cases hirq : v.toNat < 48
    · rw [if_pos (by omega), if_neg hexception, if_pos hirq]
    · rw [if_neg (by omega), if_neg (by omega), if_neg hexception, if_neg hirq]
      rfl

/-- **Encoding and decoding.** For every handler the processor reads back the gate, for every base and every limit
    of twenty bits it reads back the TSS descriptor, and no other descriptor changes. -/
theorem descriptors_decoded :
    (∀ (idt : Idt) (vector : UInt8) (handler : UInt64),
      decodeGate (setIdtGate idt vector handler vector) = interruptGate handler ∧
        ∀ v, v ≠ vector → setIdtGate idt vector handler v = idt v) ∧
    ∀ (gdt : Gdt) (index : Fin 4) (base : UInt64) (limit : UInt32), limit.toNat < 2 ^ 20 →
      decodeSystemDescriptor (setTssDescriptor gdt index base limit index.castSucc)
          (setTssDescriptor gdt index base limit index.succ) =
        { base := base.toNat, limit := limit.toNat, access := 0x89, available := 0, zero := 0, granularity := 0 } ∧
      ∀ i, i ≠ index.castSucc → i ≠ index.succ → setTssDescriptor gdt index base limit i = gdt i := by
  refine ⟨fun idt vector handler => ⟨decode_setIdtGate idt vector handler, fun v hv => ?_⟩, ?_⟩
  · exact setIdtGate_other idt vector handler hv
  · intro gdt index base limit hlimit
    obtain ⟨hlow, hhigh⟩ := setTssDescriptor_words gdt index base limit
    rw [hlow, hhigh]
    exact ⟨decode_tssDescriptor base limit hlimit, fun i => setTssDescriptor_other gdt index base limit⟩

theorem descriptors_decoded_tss :
    decodeSystemDescriptor (setTssDescriptor (fun _ => 0) 3 0xFFFF8000FEDCBA98 103 (Fin.castSucc 3))
        (setTssDescriptor (fun _ => 0) 3 0xFFFF8000FEDCBA98 103 (Fin.succ 3)) =
      { base := 0xFFFF8000FEDCBA98, limit := 103, access := 0x89, available := 0, zero := 0, granularity := 0 } :=
  (descriptors_decoded.2 (fun _ => 0) 3 0xFFFF8000FEDCBA98 103 (by decide)).1

end DescriptorTables
end UefiBoot
