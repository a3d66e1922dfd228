import UefiBoot.Boot.FormatScan
import UefiBoot.Lib.BitFields
import UefiBoot.Lib.Signed

/-!
# `Boot.FormatRender` — what the formatter is for, and where it fails

An `Item` is a piece of a format with the value of its argument, and `render` the text that it stands for: numerals as
Lean writes them, strings as their characters. A format that is a row of items, with these arguments, is shown
as the row of their texts (`printFormattedValist_renders`).

`%ls` is no item. The `l` is taken for half of `ll` and dropped, so that the pointer to a wide string is read as one to
bytes, which end at the first byte that is zero. Text of ASCII characters loses everything after the first one;
`formatWide_iff` says when nothing is lost.
-/

namespace UefiBoot
namespace EFIConsole

open Lib

/-! ## Characters -/

theorem toNat_widen (c : UInt8) : (widen c).toNat = if c.toNat < 128 then c.toNat else c.toNat + 255 * 256 := by
  have hall : ∀ n < 256, (widen (UInt8.ofNat n)).toNat = if n < 128 then n else n + 255 * 256 := by
    decide +kernel
  have hc := hall c.toNat c.toNat_lt
  rwa [UInt8.ofNat_toNat] at hc

theorem widen_eq_zero {c : UInt8} : widen c = 0 ↔ c = 0 := by
  constructor
  · intro h
    have hzero : (widen c).toNat = 0 := congrArg UInt16.toNat h
    rw [toNat_widen] at hzero
    apply UInt8.toNat_inj.mp
    show c.toNat = 0
    split at hzero <;> omega
  · rintro rfl
    rfl

theorem widen_of_lt {c : UInt8} (h : c < 128) : widen c = c.toUInt16 := by
  have hlt : c.toNat < 128 := h
  apply UInt16.toNat_inj.mp
  rw [toNat_widen, if_pos hlt, UInt8.toNat_toUInt16]

theorem zero_not_mem_widen {bytes : List UInt8} (h : 0 ∉ bytes) : 0 ∉ bytes.map widen := by
  intro hmem
  obtain ⟨c, hc, heq⟩ := List.mem_map.mp hmem
  exact h (widen_eq_zero.mp heq ▸ hc)

/-! ## Numerals -/

theorem zero_not_mem_numeral {base : Nat} (hone : 1 < base) (hbase : base ≤ 16) (n : Nat) :
    0 ∉ wideText (Nat.toDigits base n) := by
  intro hmem
  obtain ⟨c, hc, heq⟩ := List.mem_map.mp hmem
  have hlt : n < base ^ (n + 1) := Nat.lt_trans (Nat.lt_succ_self n) (Nat.lt_pow_self hone)
  rw [← digitsUp_reverse hone hlt] at hc
  obtain ⟨d, hd, rfl⟩ := List.mem_map.mp hc
  have hdigit : d < base := lt_of_mem_digitsUp hone (List.mem_reverse.mp hd)
  have hall : ∀ d < 16, UInt16.ofNat (Nat.digitChar d).toNat ≠ 0 := by decide
  exact hall d (by omega) heq

theorem intToString_unsigned {base : UInt64} (hbase : base.toNat ≤ 16) (hten : 10 ≤ base.toNat) (v : UInt64) :
    intToString v.toInt64 base false = wideText (Nat.toDigits base.toNat v.toNat) := by
  rw [intToString_eq hbase hten]
  rfl

theorem toNat_uval (val : Int64) :
    (if decide (val < 0) then (-val).toUInt64 else val.toUInt64).toNat = val.toInt.natAbs := by
  have hneg : val < 0 ↔ val.toInt < 0 := Int64.lt_iff_toInt_lt
  refine Eq.trans ?_ (toNat_magnitude val.toBitVec)
  by_cases h : val < 0
  · rw [decide_eq_true h, if_pos rfl, if_pos (show val.toBitVec.toInt < 0 from hneg.mp h)]
    rfl
  · rw [decide_eq_false h, if_neg (by simp), if_neg (show ¬ val.toBitVec.toInt < 0 from fun h' => h (hneg.mpr h'))]
    rfl

theorem intToString_signed (val : Int64) : intToString val 10 true = wideText (toString val.toInt).toList := by
  have hneg : val < 0 ↔ val.toInt < 0 := Int64.lt_iff_toInt_lt
  have hten : (10 : UInt64).toNat = 10 := rfl
  rw [intToString_eq (by decide) (by decide), toList_toString_int, hten, Bool.true_and, toNat_uval]
  unfold wideText
  rw [List.map_append]
  congr 1
  by_cases h : val < 0
  · rw [decide_eq_true h, if_pos rfl, if_pos (hneg.mp h)]
    rfl
  · rw [decide_eq_false h, if_neg (by simp), if_neg (fun h' => h (hneg.mpr h'))]
    rfl

theorem zero_not_mem_toString (v : Int) : 0 ∉ wideText (toString v).toList := by
  rw [toList_toString_int]
  unfold wideText
  rw [List.map_append, List.mem_append, not_or]
  refine ⟨?_, zero_not_mem_numeral (by omega) (by omega) _⟩
  split <;> decide

/-! ## Strings -/

section

variable {args : Arguments} {k : Nat}

theorem spells_null (h : args.slot k = 0) : (Piece.string (args.str k)).Spells nullText := by
  have hunit : ∀ j, args.str k j = nullText.getD j 0 := by
    intro j
    unfold Arguments.str
    rw [if_pos h]
  refine ⟨fun j hj => ?_, hunit _, by decide⟩
  rw [hunit, List.getD_eq_getElem?_getD, List.getElem?_eq_getElem hj, Option.getD_some]

theorem spells_bytes {bytes : List UInt8} (h : args.slot k ≠ 0)
    (hbytes : ∀ j (hj : j < bytes.length), args.byteAt k j = bytes[j]) (hend : args.byteAt k bytes.length = 0)
    (hzero : 0 ∉ bytes) : (Piece.string (args.str k)).Spells (bytes.map widen) := by
  have hunit : ∀ j, args.str k j = widen (args.byteAt k j) := by
    intro j
    unfold Arguments.str
    rw [if_neg h]
  refine ⟨fun j hj => ?_, ?_, zero_not_mem_widen hzero⟩
  · rw [hunit, List.getElem_map, hbytes]
  · rw [hunit, List.length_map, hend]
    rfl

end

/-! ## Items -/

/-- A piece of a format, with its argument. Of the letters that ask for the same, `spec` is the one. -/
inductive Item where
  | literal (c : UInt8)
  | percent
  | char (c : UInt8)
  | decimal (spec : UInt8) (v : Int32)
  | decimalLong (spec : UInt8) (v : Int64)
  | unsigned (v : UInt32)
  | unsignedLong (v : UInt64)
  | hex (spec : UInt8) (v : UInt32)
  | hexLong (spec : UInt8) (v : UInt64)
  | pointer (v : UInt64)
  | string (bytes : Option (List UInt8))

namespace Item

/-- The item in the format. -/
def bytes : Item → List UInt8
  | literal c          => [c]
  | percent            => ['%'.toUInt8, '%'.toUInt8]
  | char _             => ['%'.toUInt8, 'c'.toUInt8]
  | decimal spec _     => ['%'.toUInt8, spec]
  | decimalLong spec _ => ['%'.toUInt8, 'l'.toUInt8, 'l'.toUInt8, spec]
  | unsigned _         => ['%'.toUInt8, 'u'.toUInt8]
  | unsignedLong _     => ['%'.toUInt8, 'l'.toUInt8, 'l'.toUInt8, 'u'.toUInt8]
  | hex spec _         => ['%'.toUInt8, spec]
  | hexLong spec _     => ['%'.toUInt8, 'l'.toUInt8, 'l'.toUInt8, spec]
  | pointer _          => ['%'.toUInt8, 'p'.toUInt8]
  | string _           => ['%'.toUInt8, 's'.toUInt8]

/-- The item in the output. A `char` counts as the unit it is converted to. -/
def render : Item → List UInt16
  | literal c            => [c.toUInt16]
  | percent              => wideText ['%']
  | char c               => [widen c]
  | decimal _ v          => wideText (toString v.toInt).toList
  | decimalLong _ v      => wideText (toString v.toInt).toList
  | unsigned v           => wideText (toString v.toNat).toList
  | unsignedLong v       => wideText (toString v.toNat).toList
  | hex _ v              => wideText (Nat.toDigits 16 v.toNat)
  | hexLong _ v          => wideText (Nat.toDigits 16 v.toNat)
  | pointer v            => wideText ['0', 'x'] ++ wideText (Nat.toDigits 16 v.toNat)
  | string none          => wideText "(null)".toList
  | string (some bytes)  => bytes.map widen

/-- ASCII literals, the letters of the conversion, no zero within a text, and no `-val` that overflows. -/
def Valid : Item → Prop
  | literal c           => c ≠ 0 ∧ c ≠ '%'.toUInt8 ∧ c < 128
  | char c              => c ≠ 0
  | decimal spec _      => spec = 'd'.toUInt8 ∨ spec = 'i'.toUInt8
  | decimalLong spec v  => (spec = 'd'.toUInt8 ∨ spec = 'i'.toUInt8) ∧ v ≠ Int64.minValue
  | hex spec _          => spec = 'x'.toUInt8 ∨ spec = 'X'.toUInt8
  | hexLong spec _      => spec = 'x'.toUInt8 ∨ spec = 'X'.toUInt8
  | string (some bytes) => 0 ∉ bytes
  | _                   => True

/-- Slot `k` holds the argument. An `int` fills the lower half of its slot. -/
def Matches (args : Arguments) (k : Nat) : Item → Prop
  | literal _ | percent => True
  | char c              => (args.slot k).toUInt8 = c
  | decimal _ v         => (args.slot k).toUInt32 = v.toUInt32
  | decimalLong _ v     => args.slot k = v.toUInt64
  | unsigned v          => (args.slot k).toUInt32 = v
  | unsignedLong v      => args.slot k = v
  | hex _ v             => (args.slot k).toUInt32 = v
  | hexLong _ v         => args.slot k = v
  | pointer v           => args.slot k = v
  | string none         => args.slot k = 0
  | string (some bytes) =>
    args.slot k ≠ 0 ∧ (∀ j (hj : j < bytes.length), args.byteAt k j = bytes[j]) ∧ args.byteAt k bytes.length = 0

/-- How the formatter takes the item. -/
def directive : Item → Directive
  | literal c       => .literal c
  | percent         => .percent
  | char _          => .char
  | decimal _ _     => .signed false
  | decimalLong _ _ => .signed true
  | unsigned _      => .unsigned false
  | unsignedLong _  => .unsigned true
  | hex _ _         => .hex false
  | hexLong _ _     => .hex true
  | pointer _       => .pointer
  | string _        => .string

end Item

/-- The arguments of the items, from slot `k` on. -/
def Passed (args : Arguments) : Nat → List Item → Prop
  | _, []            => True
  | k, item :: items => item.Matches args k ∧ Passed args (k + item.directive.arity) items

/-- The formatter takes an item for what it is. -/
theorem scan_item {item : Item} (h : item.Valid) (rest : List UInt8) :
    scan (item.bytes ++ rest) = (scan rest).cons item.directive := by
  -- each item is one of the forms that `scan` tells apart, with a letter that is not `l`
  cases item with
  | literal c => exact scan_literal h.2.1
  | percent => exact scan_conversion (by decide)
  | char c => exact scan_conversion (by decide)
  | decimal spec v => obtain rfl | rfl := h <;> exact scan_conversion (by decide)
  | decimalLong spec v => obtain rfl | rfl := h.1 <;> exact scan_ll (by decide)
  | unsigned v => exact scan_conversion (by decide)
  | unsignedLong v => exact scan_ll (by decide)
  | hex spec v => obtain rfl | rfl := h <;> exact scan_conversion (by decide)
  | hexLong spec v => obtain rfl | rfl := h <;> exact scan_ll (by decide)
  | pointer v => exact scan_conversion (by decide)
  | string bytes => exact scan_conversion (by decide)

theorem scan_items {items : List Item} (h : ∀ item ∈ items, item.Valid) :
    scan (items.flatMap Item.bytes) = ⟨items.map Item.directive, false⟩ := by
  induction items with
  | nil => rfl
  | cons item items ih =>
    rw [List.forall_mem_cons] at h
    rw [List.flatMap_cons, scan_item h.1, ih h.2]
    rfl

/-- The directive of an item spells what the item stands for. -/
theorem spells_item {args : Arguments} {k : Nat} {item : Item} (h : item.Valid) (hargs : item.Matches args k) :
    (item.directive.piece args k).Spells item.render := by
  have hunsigned : ∀ v : UInt64, intToString v.toInt64 10 false = wideText (Nat.toDigits 10 v.toNat) :=
    intToString_unsigned (by decide) (by decide)
  have hhex : ∀ v : UInt64, intToString v.toInt64 16 false = wideText (Nat.toDigits 16 v.toNat) :=
    intToString_unsigned (by decide) (by decide)
  cases item with
  | literal c =>
    have hc : c.toUInt16 = widen c := (widen_of_lt h.2.2).symm
    refine ⟨congrArg (fun u => [u]) hc, ?_⟩
    show 0 ∉ [c.toUInt16]
    rw [hc, List.mem_singleton]
    exact fun hzero => h.1 (widen_eq_zero.mp hzero.symm)
  | percent => exact ⟨rfl, by decide⟩
  | char c =>
    refine ⟨congrArg (fun c => [widen c]) hargs.symm, ?_⟩
    show 0 ∉ [widen c]
    rw [List.mem_singleton]
    exact fun hzero => h (widen_eq_zero.mp hzero.symm)
  | decimal spec v =>
    refine ⟨?_, zero_not_mem_toString _⟩
    show wideText (toString v.toInt).toList = intToString ((args.slot k).toUInt32.toInt32.toInt64) 10 true
    rw [show (args.slot k).toUInt32 = v.toUInt32 from hargs, intToString_signed]
    show _ = wideText (toString v.toInt64.toInt).toList
    rw [Int32.toInt_toInt64]
  | decimalLong spec v =>
    refine ⟨?_, zero_not_mem_toString _⟩
    show wideText (toString v.toInt).toList = intToString (args.slot k).toInt64 10 true
    rw [show args.slot k = v.toUInt64 from hargs, intToString_signed]
    rfl
  | unsigned v =>
    have hv : (toString v.toNat).toList = Nat.toDigits 10 v.toNat := Nat.toList_repr
    refine ⟨?_, ?_⟩
    · show wideText (toString v.toNat).toList = intToString (args.slot k).toUInt32.toUInt64.toInt64 10 false
      rw [show (args.slot k).toUInt32 = v from hargs, hunsigned, hv, UInt32.toNat_toUInt64]
    · show 0 ∉ wideText (toString v.toNat).toList
      rw [hv]
      exact zero_not_mem_numeral (by omega) (by omega) _
  | unsignedLong v =>
    have hv : (toString v.toNat).toList = Nat.toDigits 10 v.toNat := Nat.toList_repr
    refine ⟨?_, ?_⟩
    · show wideText (toString v.toNat).toList = intToString (args.slot k).toInt64 10 false
      rw [show args.slot k = v from hargs, hunsigned, hv]
    · show 0 ∉ wideText (toString v.toNat).toList
      rw [hv]
      exact zero_not_mem_numeral (by omega) (by omega) _
  | hex spec v =>
    refine ⟨?_, zero_not_mem_numeral (by omega) (by omega) _⟩
    show wideText (Nat.toDigits 16 v.toNat) = intToString (args.slot k).toUInt32.toUInt64.toInt64 16 false
    rw [show (args.slot k).toUInt32 = v from hargs, hhex, UInt32.toNat_toUInt64]
  | hexLong spec v =>
    refine ⟨?_, zero_not_mem_numeral (by omega) (by omega) _⟩
    show wideText (Nat.toDigits 16 v.toNat) = intToString (args.slot k).toInt64 16 false
    rw [show args.slot k = v from hargs, hhex]
  | pointer v =>
    refine ⟨?_, ?_⟩
    · show wideText ['0', 'x'] ++ wideText (Nat.toDigits 16 v.toNat) =
        48 :: 120 :: intToString (args.slot k).toInt64 16 false
      rw [show args.slot k = v from hargs, hhex]
      rfl
    · show 0 ∉ wideText ['0', 'x'] ++ wideText (Nat.toDigits 16 v.toNat)
      rw [List.mem_append, not_or]
      exact ⟨by decide, zero_not_mem_numeral (by omega) (by omega) _⟩
  | string bytes =>
    cases bytes with
    | none => exact spells_null (show args.slot k = 0 from hargs)
    | some bytes => exact spells_bytes hargs.1 hargs.2.1 hargs.2.2 h

theorem writes_items {args : Arguments} {k : Nat} {items : List Item} (h : ∀ item ∈ items, item.Valid)
    (hargs : Passed args k items) : Writes args k (items.map Item.directive) (items.flatMap Item.render) := by
  induction items generalizing k with
  | nil => rfl
  | cons item items ih =>
    rw [List.forall_mem_cons] at h
    exact ⟨_, _, spells_item h.1 hargs.1, ih h.2 hargs.2, List.flatMap_cons⟩

/-- What is spelled ends. -/
theorem Writes.terminated {args : Arguments} {k : Nat} {ds : List Directive} {us : List UInt16}
    (h : Writes args k ds us) : Terminated args k ds := by
  induction ds generalizing k us with
  | nil => trivial
  | cons d ds ih =>
    obtain ⟨w, rest, hw, hrest, -⟩ := h
    refine ⟨?_, ih hrest⟩
    cases hpiece : d.piece args k with
    | units us => trivial
    | string unit =>
      rw [hpiece] at hw
      exact ⟨w.length, hw.2.1⟩

/-- The strings that the console receives are, one after the other, `us`. -/
def Shows (format : CString) (args : Arguments) (us : List UInt16) : Prop :=
  ∃ o, Settles (printFormattedValist true format args) o ∧ o.shown.flatten = us

theorem Shows.unique {format : CString} {args : Arguments} {us us' : List UInt16} (h : Shows format args us)
    (h' : Shows format args us') : us = us' := by
  obtain ⟨o, ⟨enough, hsettles⟩, rfl⟩ := h
  obtain ⟨o', ⟨enough', hsettles'⟩, rfl⟩ := h'
  have heq : some o = some o' :=
    (hsettles (max enough enough') (Nat.le_max_left _ _)).symm.trans (hsettles' _ (Nat.le_max_right _ _))
  rw [Option.some.inj heq]

theorem shows_of_writes {format : CString} {args : Arguments} {us : List UInt16}
    (hover : (scan format.content).overrun = false) (h : Writes args 0 (scan format.content).directives us) :
    Shows format args us := by
  obtain ⟨o, hsettles, htext⟩ := printFormattedValist_settles h.terminated hover true
  exact ⟨o, hsettles, htext us h rfl⟩

/-- **Formatted output.** A format is shown as its items are rendered, and the index stays below the size of the buffer
    however long they are. -/
theorem printFormattedValist_renders {format : CString} {args : Arguments} {items : List Item}
    (hformat : format.content = items.flatMap Item.bytes) (hvalid : ∀ item ∈ items, item.Valid)
    (hargs : Passed args 0 items) :
    Shows format args (items.flatMap Item.render) ∧
      ∀ fuel, (printFormattedValist true format args fuel).All Access.Inside := by
  have hscan : scan format.content = ⟨items.map Item.directive, false⟩ := by rw [hformat, scan_items hvalid]
  have hwrites : Writes args 0 (scan format.content).directives (items.flatMap Item.render) := by
    rw [hscan]
    exact writes_items hvalid hargs
  exact ⟨shows_of_writes (by rw [hscan]) hwrites, all_inside_printFormattedValist true format args⟩

/-- `"%lld=%s"` with -5 and `"ok"`. -/
theorem printFormattedValist_renders_minus_five :
    let items := [.decimalLong 'd'.toUInt8 (-5), .literal '='.toUInt8, .string (some ['o'.toUInt8, 'k'.toUInt8])]
    let format := CString.ofBytes (items.flatMap Item.bytes)
    let args : Arguments := ⟨fun k => if k = 0 then (-5 : Int64).toUInt64 else 0x1000,
      fun a => if a = 0x1000 then 'o'.toUInt8 else if a = 0x1001 then 'k'.toUInt8 else 0⟩
    Shows format args (items.flatMap Item.render) ∧
      ∀ fuel, (printFormattedValist true format args fuel).All Access.Inside := by
  intro items format args
  refine printFormattedValist_renders (CString.content_ofBytes (by decide)) ?_ ?_
  · intro item hitem
    simp only [items, List.mem_cons, List.not_mem_nil, or_false] at hitem
    obtain rfl | rfl | rfl := hitem
    · exact ⟨Or.inl rfl, by decide⟩
    · exact ⟨by decide, by decide, by decide⟩
    · show (0 : UInt8) ∉ ['o'.toUInt8, 'k'.toUInt8]
      decide
  · refine ⟨rfl, trivial, ⟨by decide, ?_, rfl⟩, trivial⟩
    intro j hj
    have hcases : j = 0 ∨ j = 1 := by
      have : j < 2 := hj
      omega
    obtain rfl | rfl := hcases <;> rfl

/-! ## Wide strings -/

section

variable {args : Arguments} {k : Nat}

theorem wstr_null (h : args.slot k = 0) : args.wstr k = args.str k := by
  funext j
  unfold Arguments.wstr Arguments.str
  rw [if_pos h, if_pos h]

/-- A unit of a wide string, and its two bytes. -/
theorem toNat_wstr (h : args.slot k ≠ 0) (n : Nat) :
    (args.wstr k n).toNat = (args.byteAt k (2 * n)).toNat + (args.byteAt k (2 * n + 1)).toNat * 2 ^ 8 := by
  unfold Arguments.wstr
  rw [if_neg h]
  exact toNat_pair16 _ _

theorem toNat_str (h : args.slot k ≠ 0) (n : Nat) :
    (args.str k n).toNat =
      if (args.byteAt k n).toNat < 128 then (args.byteAt k n).toNat else (args.byteAt k n).toNat + 255 * 256 := by
  unfold Arguments.str
  rw [if_neg h]
  exact toNat_widen _

theorem str_eq_zero (h : args.slot k ≠ 0) {n : Nat} : args.str k n = 0 ↔ args.byteAt k n = 0 := by
  unfold Arguments.str
  rw [if_neg h]
  exact widen_eq_zero

/-- A string of wide characters is also one of bytes: at the latest it ends where the wide one does. -/
theorem ends_str {w : List UInt16} (hw : (Piece.string (args.wstr k)).Spells w) : (Piece.string (args.str k)).Ends := by
  by_cases h : args.slot k = 0
  · exact ⟨nullText.length, (spells_null h).2.1⟩
  · refine ⟨2 * w.length, (str_eq_zero h).mpr ?_⟩
    have hend := congrArg UInt16.toNat hw.2.1
    rw [toNat_wstr h] at hend
    apply UInt8.toNat_inj.mp
    show (args.byteAt k (2 * w.length)).toNat = 0
    have hzero : (0 : UInt16).toNat = 0 := rfl
    omega

/-- Two readings of one memory can agree on a string of more than one unit only if all its bytes but the first are 255,
    and then there is no end where the bytes are to end. -/
theorem length_le_one_of_spells {w : List UInt16} (h : args.slot k ≠ 0) (hnarrow : (Piece.string (args.str k)).Spells w)
    (hwide : (Piece.string (args.wstr k)).Spells w) : w.length ≤ 1 := by
  by_contra hlong
  have hagree : ∀ q < w.length, (args.str k q).toNat = (args.wstr k q).toNat := by
    intro q hq
    rw [hnarrow.1 q hq, hwide.1 q hq]
  have hbyte : ∀ j < w.length, (args.byteAt k j).toNat ≠ 0 := by
    intro j hj hzero
    have hstr : args.str k j = 0 := (str_eq_zero h).mpr (UInt8.toNat_inj.mp hzero)
    rw [hnarrow.1 j hj] at hstr
    exact hnarrow.2.2 (hstr ▸ List.getElem_mem hj)
  have hfull : ∀ j, 1 ≤ j → j < 2 * w.length → (args.byteAt k j).toNat = 255 := by
    intro j
    induction j using Nat.strongRecOn with
    | ind j ih =>
      intro hj hlt
      -- byte `j` belongs to unit `j / 2`, which the bytes spell with their byte `j / 2`, and that one is earlier
      have hunit := hagree (j / 2) (by omega)
      rw [toNat_str h, toNat_wstr h] at hunit
      have hlo := (args.byteAt k (2 * (j / 2))).toNat_lt
      have hhi := (args.byteAt k (2 * (j / 2) + 1)).toNat_lt
      have hsrc := (args.byteAt k (j / 2)).toNat_lt
      by_cases hone : j = 1
      · -- the first unit: its high byte is not zero, so it is the sign of the low one
        subst hone
        have hne := hbyte 1 (by omega)
        have heq : 2 * (1 / 2) + 1 = 1 := rfl
        rw [heq] at hunit hhi
        split at hunit <;> omega
      · have hq := ih (j / 2) (by omega) (by omega) (by omega)
        rw [hq, if_neg (by omega)] at hunit
        rcases Nat.even_or_odd' j with ⟨c, rfl | rfl⟩
        · rw [show 2 * c / 2 = c by omega] at hunit hlo hhi
          omega
        · rw [show (2 * c + 1) / 2 = c by omega] at hunit hlo hhi
          omega
  -- the byte at which the reading by bytes is to end
  have hlast := hfull w.length (by omega) (by omega)
  have hend : args.byteAt k w.length = 0 := (str_eq_zero h).mp hnarrow.2.1
  rw [hend] at hlast
  exact absurd hlast (by decide)

/-- **When the bytes of a wide string are that string**: it is empty or one character of ASCII. -/
theorem spells_both_iff {w : List UInt16} (hwide : (Piece.string (args.wstr k)).Spells w) :
    (Piece.string (args.str k)).Spells w ↔ args.slot k = 0 ∨ w = [] ∨ ∃ u < 128, w = [u] := by
  by_cases h : args.slot k = 0
  · rw [wstr_null h] at hwide
    exact ⟨fun _ => Or.inl h, fun _ => hwide⟩
  rw [or_iff_right h]
  constructor
  · intro hnarrow
    have hle := length_le_one_of_spells h hnarrow hwide
    match w, hle with
    | [], _ => exact Or.inl rfl
    | [u], _ =>
      refine Or.inr ⟨u, ?_, rfl⟩
      have hn : (args.str k 0).toNat = u.toNat := congrArg UInt16.toNat (hnarrow.1 0 (Nat.zero_lt_succ 0))
      have hw : (args.wstr k 0).toNat = u.toNat := congrArg UInt16.toNat (hwide.1 0 (Nat.zero_lt_succ 0))
      have hend : args.byteAt k 1 = 0 := (str_eq_zero h).mp hnarrow.2.1
      have hzero : (0 : UInt8).toNat = 0 := rfl
      rw [toNat_str h] at hn
      rw [toNat_wstr h, show 2 * 0 + 1 = 1 from rfl, show 2 * 0 = 0 from rfl, hend, hzero] at hw
      show u.toNat < 128
      split at hn <;> omega
  · rintro (rfl | ⟨u, hu, rfl⟩)
    · have hend := congrArg UInt16.toNat hwide.2.1
      rw [toNat_wstr h] at hend
      have hzero : (0 : UInt16).toNat = 0 := rfl
      have hbyte : args.byteAt k 0 = 0 := by
        apply UInt8.toNat_inj.mp
        show (args.byteAt k 0).toNat = 0
        rw [List.length_nil, show 2 * 0 = 0 from rfl] at hend
        omega
      exact ⟨fun j hj => absurd hj (Nat.not_lt_zero j), (str_eq_zero h).mpr hbyte, List.not_mem_nil⟩
    · have hw : (args.wstr k 0).toNat = u.toNat := congrArg UInt16.toNat (hwide.1 0 (Nat.zero_lt_succ 0))
      have hlt : u.toNat < 128 := hu
      rw [toNat_wstr h, show 2 * 0 + 1 = 1 from rfl, show 2 * 0 = 0 from rfl] at hw
      have hbyte : args.byteAt k 1 = 0 := by
        apply UInt8.toNat_inj.mp
        show (args.byteAt k 1).toNat = 0
        omega
      refine ⟨fun j hj => ?_, (str_eq_zero h).mpr hbyte, hwide.2.2⟩
      obtain rfl : j = 0 := by
        rw [List.length_singleton] at hj
        omega
      apply UInt16.toNat_inj.mp
      rw [toNat_str h, if_pos (by omega), List.getElem_singleton]
      omega

end

/-- Text without `%` is taken as it is. -/
theorem scan_literals {a : List UInt8} (h : '%'.toUInt8 ∉ a) (rest : List UInt8) :
    scan (a ++ rest) = ⟨a.map .literal ++ (scan rest).directives, (scan rest).overrun⟩ := by
  induction a with
  | nil => rfl
  | cons c a ih =>
    rw [List.mem_cons, not_or] at h
    rw [List.cons_append, scan_literal (Ne.symm h.1), ih h.2]
    rfl

theorem writes_literals {args : Arguments} {k : Nat} {a : List UInt8} {ds : List Directive} {us : List UInt16}
    (ha : 0 ∉ a) (h : Writes args k ds us) : Writes args k (a.map .literal ++ ds) (a.map widen ++ us) := by
  induction a with
  | nil => exact h
  | cons c a ih =>
    rw [List.mem_cons, not_or] at ha
    refine ⟨[widen c], _, ⟨rfl, ?_⟩, ih ha.2, rfl⟩
    rw [List.mem_singleton]
    exact fun hzero => ha.1 (widen_eq_zero.mp hzero.symm).symm

section

variable {format : CString} {args : Arguments} {a b : List UInt8} {w : List UInt16}

/-- `%ls` shows its argument as bytes. -/
theorem shows_wide {n : List UInt16} (hformat : format.content = a ++ ['%'.toUInt8, 'l'.toUInt8, 's'.toUInt8] ++ b)
    (ha : '%'.toUInt8 ∉ a) (hb : '%'.toUInt8 ∉ b) (hn : (Piece.string (args.str 0)).Spells n) :
    Shows format args (a.map widen ++ n ++ b.map widen) := by
  have hzero : 0 ∉ a ∧ 0 ∉ b := by
    have hcontent := format.zero_not_mem_content
    rw [hformat, List.mem_append, List.mem_append, not_or, not_or] at hcontent
    exact ⟨hcontent.1.1, hcontent.2⟩
  have hlast : scan b = ⟨b.map .literal, false⟩ := by
    have hb := scan_literals hb []
    rw [List.append_nil] at hb
    rw [hb]
    show Scan.mk (b.map .literal ++ []) false = _
    rw [List.append_nil]
  -- the one `l` is the modifier, and the letter is `s`
  have hscan : scan format.content = ⟨a.map .literal ++ .string :: b.map .literal, false⟩ := by
    rw [hformat, List.append_assoc, scan_literals ha, List.cons_append, List.cons_append, List.cons_append,
      List.nil_append, scan_l (by decide), hlast]
    rfl
  apply shows_of_writes
  · rw [hscan]
  · have hrest : Writes args 1 (b.map .literal) (b.map widen) := by
      have hb := writes_literals hzero.2 (show Writes args 1 [] [] from rfl)
      rwa [List.append_nil, List.append_nil] at hb
    rw [hscan, List.append_assoc]
    exact writes_literals hzero.1 ⟨n, _, hn, hrest, rfl⟩

/-- **`%ls`** shows the wide string exactly when that is null, empty, or one character of ASCII. -/
theorem formatWide_iff (hformat : format.content = a ++ ['%'.toUInt8, 'l'.toUInt8, 's'.toUInt8] ++ b)
    (ha : '%'.toUInt8 ∉ a) (hb : '%'.toUInt8 ∉ b) (hw : (Piece.string (args.wstr 0)).Spells w) :
    Shows format args (a.map widen ++ w ++ b.map widen) ↔ args.slot 0 = 0 ∨ w = [] ∨ ∃ u < 128, w = [u] := by
  obtain ⟨n, hn⟩ := (ends_str hw).exists_spells
  have hshows := shows_wide hformat ha hb hn
  rw [← spells_both_iff hw]
  constructor
  · intro hall
    have heq := hall.unique hshows
    rw [List.append_left_inj, List.append_right_inj] at heq
    rwa [heq]
  · intro hboth
    rwa [hboth.unique hn]

/-- `"%ls"` with `u"a"`. -/
theorem formatWide_iff_a :
    Shows (.ofBytes ['%'.toUInt8, 'l'.toUInt8, 's'.toUInt8]) ⟨fun _ => 0x1000, fun x => if x = 0x1000 then 97 else 0⟩
        ([].map widen ++ [97] ++ [].map widen) ↔
      (0x1000 : UInt64) = 0 ∨ ([97] : List UInt16) = [] ∨ ∃ u < 128, ([97] : List UInt16) = [u] := by
  refine formatWide_iff (a := []) (b := []) (CString.content_ofBytes (by decide)) List.not_mem_nil List.not_mem_nil
    ⟨?_, rfl, by decide⟩
  intro j hj
  obtain rfl : j = 0 := by
    rw [List.length_singleton] at hj
    omega
  rfl

/-- `"%ls"` with `u"ab"`. -/
theorem not_formatWide :
    ¬ ∀ (format : CString) (args : Arguments) (a b : List UInt8) (w : List UInt16),
      format.content = a ++ ['%'.toUInt8, 'l'.toUInt8, 's'.toUInt8] ++ b → '%'.toUInt8 ∉ a → '%'.toUInt8 ∉ b →
      (Piece.string (args.wstr 0)).Spells w → Shows format args (a.map widen ++ w ++ b.map widen) := by
  intro h
  let args : Arguments := ⟨fun _ => 0x1000, fun x => if x = 0x1000 then 97 else if x = 0x1002 then 98 else 0⟩
  have hcontent : (CString.ofBytes ['%'.toUInt8, 'l'.toUInt8, 's'.toUInt8]).content =
      [] ++ ['%'.toUInt8, 'l'.toUInt8, 's'.toUInt8] ++ [] := CString.content_ofBytes (by decide)
  have hwide : (Piece.string (args.wstr 0)).Spells [97, 98] := by
    refine ⟨fun j hj => ?_, by decide, by decide⟩
    have hcases : j = 0 ∨ j = 1 := by
      have : j < 2 := hj
      omega
    obtain rfl | rfl := hcases
    · exact (by decide : args.wstr 0 0 = 97)
    · exact (by decide : args.wstr 0 1 = 98)
  have hnarrow : (Piece.string (args.str 0)).Spells [97] := by
    refine ⟨fun j hj => ?_, rfl, by decide⟩
    obtain rfl : j = 0 := by
      rw [List.length_singleton] at hj
      omega
    rfl
  have hall := h _ args [] [] [97, 98] hcontent List.not_mem_nil List.not_mem_nil hwide
  have hshown := shows_wide hcontent List.not_mem_nil List.not_mem_nil hnarrow
  exact absurd (hall.unique hshown) (by decide)

end

end EFIConsole
end UefiBoot
