import UefiBoot.Lib.CString
import UefiBoot.Lib.Digits

/-!
# `Boot.Formatted` — the bootloader's `PrintFormattedValist`

The formatter reads its format byte by byte, takes the arguments from the `va_list` as conversions name them, and
collects 16-bit units in `out_buf`, which it hands to the firmware when 1000 of 1024 are taken: before the next
directive, and within a string before its next unit. What it may do wrong is a property of the log of its
accesses; what it prints is the `text` of its output, the strings handed over and the units still waiting.

A directive gives a `Piece`: units that are known at once, at most 23 of them, or a string that is copied until it
ends. So the index stays below the size of the buffer whatever the format and the arguments are
(`all_inside_printFormattedValist`).
-/

namespace UefiBoot
namespace EFIConsole

open Lib

/-! ## Output -/

/-- An access of `PrintFormattedValist` to an array: `format` at `i` is read, `out_buf` at `i` gets a unit or the
    terminator. -/
inductive Access where
  | format (i : Nat)
  | put (i : Nat)
  | terminate (i : Nat)

/-- `out_buf` up to `out_idx`, and the strings that `OutputString` has received. -/
structure Output where
  conOut : Bool
  outBuf : List UInt16 := []
  shown  : List (List UInt16) := []

/-- `Print(const char16_t*)`. A string ends at its first zero. -/
def print (o : Output) (string : List UInt16) : Output :=
  if o.conOut then { o with shown := o.shown ++ [string.takeWhile (· ≠ 0)] } else o

/-- `out_buf[out_idx++] = unit`. -/
def put (o : Output) (unit : UInt16) : Traced Access Output := do
  Traced.emit (.put o.outBuf.length)
  pure { o with outBuf := o.outBuf ++ [unit] }

def flushBuf (o : Output) : Traced Access Output := do
  Traced.emit (.terminate o.outBuf.length)
  pure { print o o.outBuf with outBuf := [] }

/-- `if (out_idx >= 1000) flush_buf();` -/
def makeRoom (o : Output) : Traced Access Output :=
  if o.outBuf.length ≥ 1000 then flushBuf o else pure o

/-- The loop that copies `num_buf`, and single assignments one after the other. -/
def putAll (o : Output) : List UInt16 → Traced Access Output
  | []            => pure o
  | unit :: units => do
    let o ← put o unit
    putAll o units

/-- The loop that copies a string, from its unit `n` on. -/
def putString (unit : Nat → UInt16) : Nat → Nat → Output → Traced Access (Option Output)
  | 0, _, _        => pure none
  | fuel + 1, n, o =>
    if unit n = 0 then pure (some o)
    else do
      let o ← makeRoom o
      let o ← put o (unit n)
      putString unit fuel (n + 1) o

/-! ## Numbers -/

/-- `static_cast<char16_t>(c)` of a `char`, which has a sign. -/
def widen (c : UInt8) : UInt16 := c.toInt8.toInt16.toUInt16

def intDigit (rem : UInt64) : UInt16 := if rem < 10 then (48 + rem).toUInt16 else (97 + (rem - 10)).toUInt16

/-- The `while` loop of `IntToString`, with the room left in `tmp`. -/
def intDigits (base : UInt64) : Nat → UInt64 → List UInt16
  | 0, _           => []
  | room + 1, uval => if uval > 0 then intDigit (uval % base) :: intDigits base room (uval / base) else []

/-- `IntToString`: what it writes before the terminator. `-val` overflows for the smallest value, where the language
    promises nothing. -/
def intToString (val : Int64) (base : UInt64) (isSigned : Bool) : List UInt16 :=
  let negative := isSigned && decide (val < 0)
  let uval := if negative then (-val).toUInt64 else val.toUInt64
  let tmp := if uval = 0 then [48] else intDigits base 64 uval
  (if negative then [45] else []) ++ tmp.reverse

/-! ## Arguments -/

/-- The slots of a `va_list`, eight bytes each, and the memory that pointers among them lead to. -/
structure Arguments where
  slot   : Nat → UInt64
  memory : UInt64 → UInt8

def nullText : List UInt16 := "(null)".toList.map fun c => UInt16.ofNat c.toNat

namespace Arguments

def byteAt (args : Arguments) (k j : Nat) : UInt8 := args.memory (args.slot k + UInt64.ofNat j)

/-- `str[n]` as it is copied, for the `const char*` in slot `k`. -/
def str (args : Arguments) (k n : Nat) : UInt16 :=
  if args.slot k = 0 then nullText.getD n 0 else widen (args.byteAt k n)

/-- `wstr[n]`, for the `const char16_t*` in slot `k`. -/
def wstr (args : Arguments) (k n : Nat) : UInt16 :=
  if args.slot k = 0 then nullText.getD n 0
  else (args.byteAt k (2 * n)).toUInt16 ||| ((args.byteAt k (2 * n + 1)).toUInt16 <<< 8)

end Arguments

/-! ## Directives -/

/-- What the format asks for: a character of its own, or a conversion. -/
inductive Directive where
  | literal (c : UInt8)
  | percent
  | char
  | signed (isLongLong : Bool)
  | unsigned (isLongLong : Bool)
  | hex (isLongLong : Bool)
  | pointer
  | string
  | wide
  | unknown (spec : UInt8)
  deriving DecidableEq

/-- What a directive puts: known units, or the units of a string up to its zero. -/
inductive Piece where
  | units (us : List UInt16)
  | string (unit : Nat → UInt16)

namespace Directive

/-- How many arguments it takes. -/
def arity : Directive → Nat
  | literal _ | percent | unknown _ => 0
  | _                               => 1

/-- `is_long_long ? va_arg(args, int64_t) : va_arg(args, int)`. -/
def signedValue (isLongLong : Bool) (slot : UInt64) : Int64 :=
  if isLongLong then slot.toInt64 else slot.toUInt32.toInt32.toInt64

/-- `is_long_long ? va_arg(args, uint64_t) : va_arg(args, unsigned int)`. -/
def unsignedValue (isLongLong : Bool) (slot : UInt64) : Int64 :=
  if isLongLong then slot.toInt64 else slot.toUInt32.toUInt64.toInt64

/-- With the arguments from slot `k` on. -/
def piece (args : Arguments) (k : Nat) : Directive → Piece
  | literal c           => .units [widen c]
  | percent             => .units [37]
  | char                => .units [widen (args.slot k).toUInt8]
  | signed isLongLong   => .units (intToString (signedValue isLongLong (args.slot k)) 10 true)
  | unsigned isLongLong => .units (intToString (unsignedValue isLongLong (args.slot k)) 10 false)
  | hex isLongLong      => .units (intToString (unsignedValue isLongLong (args.slot k)) 16 false)
  | pointer             => .units (48 :: 120 :: intToString (args.slot k).toInt64 16 false)
  | string              => .string (args.str k)
  | wide                => .string (args.wstr k)
  | unknown spec        => .units [37, widen spec]

end Directive

def Piece.write (fuel : Nat) (o : Output) : Piece → Traced Access (Option Output)
  | units us    => do
    let o ← putAll o us
    pure (some o)
  | string unit => putString unit fuel 0 o

/-- The branches on `spec` that read no more of the format. -/
def specifier (isLongLong : Bool) (spec : UInt8) : Directive :=
  if spec = '%'.toUInt8 then .percent
  else if spec = 'c'.toUInt8 then .char
  else if spec = 'd'.toUInt8 ∨ spec = 'i'.toUInt8 then .signed isLongLong
  else if spec = 'u'.toUInt8 then .unsigned isLongLong
  else if spec = 'x'.toUInt8 ∨ spec = 'X'.toUInt8 then .hex isLongLong
  else if spec = 'p'.toUInt8 then .pointer
  else if spec = 's'.toUInt8 then .string
  else .unknown spec

/-! ## Reading the format -/

def readFormat (format : CString) (i : Nat) : Traced Access UInt8 := do
  Traced.emit (.format i)
  pure (format.byte i)

/-- `is_long_long`, and the index behind the modifier at `i`. -/
def modifier (format : CString) (i : Nat) : Traced Access (Bool × Nat) := do
  let c ← readFormat format i
  if c = 'l'.toUInt8 then do
    let c ← readFormat format (i + 1)
    if c = 'l'.toUInt8 then pure (true, i + 2) else pure (false, i + 1)
  else pure (false, i)

/-- The conversion with its letter at `i`, and the index of its last byte. -/
def letter (format : CString) (isLongLong : Bool) (i : Nat) : Traced Access (Directive × Nat) := do
  let spec ← readFormat format i
  if spec = 'l'.toUInt8 then do
    let s ← readFormat format (i + 1)
    if s = 's'.toUInt8 then pure (.wide, i + 1) else pure (.unknown spec, i)
  else pure (specifier isLongLong spec, i)

/-- The conversion whose `%` stands before `i`; `none` where the loop is left. -/
def conversion (format : CString) (i : Nat) : Traced Access (Option (Directive × Nat)) := do
  let c ← readFormat format i
  if c = 0 then pure none
  else do
    let m ← modifier format i
    let d ← letter format m.1 m.2
    pure (some d)

/-- The directive that begins with the byte `c` at `i`. -/
def directive (format : CString) (i : Nat) (c : UInt8) : Traced Access (Option (Directive × Nat)) :=
  if c = '%'.toUInt8 then conversion format (i + 1) else pure (some (.literal c, i))

/-! ## The loop -/

/-- The main loop, at index `i` of the format and with the arguments from slot `k` on. -/
def printLoop (format : CString) (args : Arguments) : Nat → Nat → Nat → Output → Traced Access (Option Output)
  | 0, _, _, _        => pure none
  | fuel + 1, i, k, o => do
    let c ← readFormat format i
    if c = 0 then pure (some o)
    else do
      let o ← makeRoom o
      let found ← directive format i c
      match found with
      | none   => pure (some o)
      | some d =>
        Traced.andThen ((d.1.piece args k).write fuel o) fun o => printLoop format args fuel (d.2 + 1) (k + d.1.arity) o

def printFormattedValist (conOut : Bool) (format : CString) (args : Arguments) (fuel : Nat) :
    Traced Access (Option Output) :=
  Traced.andThen (printLoop format args fuel 0 0 { conOut }) fun o =>
    if o.outBuf.length > 0 then do
      let o ← flushBuf o
      pure (some o)
    else pure (some o)

/-! ## Numbers are numerals -/

/-- A text of the firmware. -/
def wideText (chars : List Char) : List UInt16 := chars.map fun c => UInt16.ofNat c.toNat

theorem intDigit_eq {rem : UInt64} (h : rem.toNat < 16) : intDigit rem = UInt16.ofNat (Nat.digitChar rem.toNat).toNat := by
  have hall : ∀ d < 16, intDigit (UInt64.ofNat d) = UInt16.ofNat (Nat.digitChar d).toNat := by decide
  have hd := hall rem.toNat h
  rwa [UInt64.ofNat_toNat] at hd

theorem intDigits_eq {base uval : UInt64} (hbase : base.toNat ≤ 16) (hone : 1 < base.toNat) (hpos : 0 < uval) (room : Nat) :
    intDigits base room uval =
      (digitsUp base.toNat room uval.toNat).map fun d => UInt16.ofNat (Nat.digitChar d).toNat := by
  induction room generalizing uval with
  | zero => rfl
  | succ room ih =>
    have hmod : (uval % base).toNat = uval.toNat % base.toNat := UInt64.toNat_mod uval base
    have hdiv : (uval / base).toNat = uval.toNat / base.toNat := UInt64.toNat_div uval base
    have hlt : (uval % base).toNat < 16 := by
      have := Nat.mod_lt uval.toNat (show base.toNat > 0 by omega)
      omega
    unfold intDigits digitsUp
    rw [if_pos hpos, List.map_cons, intDigit_eq hlt, hmod]
    congr 1
    by_cases hlast : uval.toNat / base.toNat = 0
    · -- the next test of the loop fails
      have hzero : uval / base = 0 := UInt64.toNat_inj.mp (hdiv.trans hlast)
      rw [if_pos hlast, hzero]
      cases room with
      | zero => rfl
      | succ room => rfl
    · have hnext : 0 < uval / base := by
        rw [UInt64.lt_iff_toNat_lt, hdiv]
        exact Nat.pos_of_ne_zero hlast
      rw [if_neg hlast, ih hnext, hdiv]

/-- The digits of `IntToString` are those of the numeral, the last one first, and there are at most twenty. -/
theorem tmp_eq {base : UInt64} (hbase : base.toNat ≤ 16) (hten : 10 ≤ base.toNat) (uval : UInt64) :
    (if uval = 0 then [48] else intDigits base 64 uval).reverse = wideText (Nat.toDigits base.toNat uval.toNat) ∧
      (if uval = 0 then [48] else intDigits base 64 uval).length ≤ 20 := by
  have hlt := uval.toNat_lt
  have hpow : (10 : Nat) ^ (19 + 1) ≤ base.toNat ^ (19 + 1) := Nat.pow_le_pow_left hten (19 + 1)
  -- `digitsUp` has its first turn without a test, so that zero is no case of its own
  have hdigits : (if uval = 0 then [48] else intDigits base 64 uval) =
      (digitsUp base.toNat 64 uval.toNat).map fun d => UInt16.ofNat (Nat.digitChar d).toNat := by
    by_cases hzero : uval = 0
    · rw [if_pos hzero, hzero]
      unfold digitsUp
      have hdiv : (0 : UInt64).toNat / base.toNat = 0 := Nat.zero_div base.toNat
      have hmod : (0 : UInt64).toNat % base.toNat = 0 := Nat.zero_mod base.toNat
      rw [if_pos hdiv, hmod]
      rfl
    · rw [if_neg hzero, intDigits_eq hbase (by omega) (UInt64.pos_iff_ne_zero.mpr hzero)]
  rw [hdigits, List.length_map]
  constructor
  · rw [← List.map_reverse]
    unfold wideText
    have hwide : base.toNat ^ (19 + 1) ≤ base.toNat ^ (63 + 1) := Nat.pow_le_pow_right (by omega) (by omega)
    rw [← digitsUp_reverse (by omega) (show uval.toNat < base.toNat ^ (63 + 1) by omega), List.map_map]
    rfl
  · exact length_digitsUp_le_of_lt (by omega)

/-- **`IntToString`** writes the sign and the numeral. -/
theorem intToString_eq {base : UInt64} (hbase : base.toNat ≤ 16) (hten : 10 ≤ base.toNat) (val : Int64) (isSigned : Bool) :
    intToString val base isSigned =
      (if isSigned && decide (val < 0) then [45] else []) ++
        wideText (Nat.toDigits base.toNat
          (if isSigned && decide (val < 0) then (-val).toUInt64 else val.toUInt64).toNat) := by
  unfold intToString
  dsimp only
  rw [(tmp_eq hbase hten _).1]

theorem length_intToString_le {base : UInt64} (hbase : base.toNat ≤ 16) (hten : 10 ≤ base.toNat) (val : Int64)
    (isSigned : Bool) : (intToString val base isSigned).length ≤ 21 := by
  unfold intToString
  dsimp only
  rw [List.length_append, List.length_reverse]
  have hdigits := (tmp_eq hbase hten (if isSigned && decide (val < 0) then (-val).toUInt64 else val.toUInt64)).2
  have hsign : (if isSigned && decide (val < 0) then [(45 : UInt16)] else []).length ≤ 1 := by
    split <;> simp
  omega

/-- No directive knows more than 23 units at once. -/
theorem Directive.length_piece_le {args : Arguments} {k : Nat} {d : Directive} {us : List UInt16}
    (h : d.piece args k = .units us) : us.length ≤ 23 := by
  have hten : ∀ val isSigned, (intToString val 10 isSigned).length ≤ 21 :=
    length_intToString_le (by decide) (by decide)
  have hhex : ∀ val isSigned, (intToString val 16 isSigned).length ≤ 21 :=
    length_intToString_le (by decide) (by decide)
  cases d with
  | literal c =>
    cases h
    exact Nat.le_add_left 1 22
  | percent =>
    cases h
    exact Nat.le_add_left 1 22
  | char =>
    cases h
    exact Nat.le_add_left 1 22
  | signed isLongLong =>
    cases h
    exact Nat.le_trans (hten _ _) (by omega)
  | unsigned isLongLong =>
    cases h
    exact Nat.le_trans (hten _ _) (by omega)
  | hex isLongLong =>
    cases h
    exact Nat.le_trans (hhex _ _) (by omega)
  | pointer =>
    cases h
    rw [List.length_cons, List.length_cons]
    exact Nat.add_le_add_right (hhex _ _) 2
  | string => cases h
  | wide => cases h
  | unknown spec =>
    cases h
    exact Nat.le_add_left 2 21

/-! ## The index -/

/-- The access is inside `out_buf`, and so is the index after it. -/
def Access.Inside : Access → Prop
  | format _    => True
  | put i       => i + 1 < 1024
  | terminate i => i < 1024

theorem all_inside_makeRoom {o : Output} (h : o.outBuf.length < 1024) :
    (makeRoom o).All Access.Inside ∧ (makeRoom o).value.outBuf.length < 1000 := by
  unfold makeRoom
  by_cases hfull : o.outBuf.length ≥ 1000
  · rw [if_pos hfull]
    refine ⟨?_, Nat.zero_lt_succ 999⟩
    unfold flushBuf
    rw [Traced.all_bind, Traced.all_emit]
    exact ⟨h, Traced.all_pure _⟩
  · rw [if_neg hfull]
    exact ⟨Traced.all_pure o, Nat.not_le.mp hfull⟩

theorem all_put {P : Access → Prop} (o : Output) (unit : UInt16) : (put o unit).All P ↔ P (.put o.outBuf.length) := by
  unfold put
  rw [Traced.all_bind, Traced.all_emit]
  exact ⟨fun h => h.1, fun h => ⟨h, Traced.all_pure _⟩⟩

@[simp] theorem value_put (o : Output) (unit : UInt16) : (put o unit).value = { o with outBuf := o.outBuf ++ [unit] } :=
  rfl

theorem all_inside_putAll {us : List UInt16} {o : Output} (h : o.outBuf.length + us.length < 1024) :
    (putAll o us).All Access.Inside ∧ (putAll o us).value.outBuf.length < 1024 := by
  induction us generalizing o with
  | nil => exact ⟨Traced.all_pure o, h⟩
  | cons u us ih =>
    rw [List.length_cons] at h
    have hrest : ({ o with outBuf := o.outBuf ++ [u] } : Output).outBuf.length + us.length < 1024 := by
      rw [List.length_append, List.length_singleton]
      omega
    obtain ⟨hall, hlength⟩ := ih hrest
    unfold putAll
    rw [Traced.all_bind, all_put, Traced.value_bind, value_put]
    exact ⟨⟨show o.outBuf.length + 1 < 1024 by omega, hall⟩, hlength⟩

theorem all_inside_putString (unit : Nat → UInt16) {fuel n : Nat} {o : Output} (h : o.outBuf.length < 1024) :
    (putString unit fuel n o).All Access.Inside ∧
      ∀ o', (putString unit fuel n o).value = some o' → o'.outBuf.length < 1024 := by
  induction fuel generalizing n o with
  | zero =>
    refine ⟨Traced.all_pure none, fun o' h' => ?_⟩
    cases h'
  | succ fuel ih =>
    unfold putString
    by_cases hend : unit n = 0
    · rw [if_pos hend]
      refine ⟨Traced.all_pure _, fun o' h' => ?_⟩
      cases h'
      exact h
    · rw [if_neg hend]
      obtain ⟨hroom, hlength⟩ := all_inside_makeRoom h
      -- a unit is put behind fewer than 1000
      have hnext : ({ (makeRoom o).value with outBuf := (makeRoom o).value.outBuf ++ [unit n] } : Output).outBuf.length <
          1024 := by
        rw [List.length_append, List.length_singleton]
        omega
      obtain ⟨hall, hvalue⟩ := ih (n := n + 1) hnext
      rw [Traced.all_bind, Traced.all_bind, all_put, Traced.value_bind, Traced.value_bind, value_put]
      exact ⟨⟨hroom, show (makeRoom o).value.outBuf.length + 1 < 1024 by omega, hall⟩, hvalue⟩

theorem all_inside_write {d : Directive} (args : Arguments) (k fuel : Nat) {o : Output} (h : o.outBuf.length < 1000) :
    ((d.piece args k).write fuel o).All Access.Inside ∧
      ∀ o', ((d.piece args k).write fuel o).value = some o' → o'.outBuf.length < 1024 := by
  cases hpiece : d.piece args k with
  | units us =>
    have hle := d.length_piece_le hpiece
    obtain ⟨hall, hlength⟩ := all_inside_putAll (show o.outBuf.length + us.length < 1024 by omega)
    unfold Piece.write
    dsimp only
    rw [Traced.all_bind]
    refine ⟨⟨hall, Traced.all_pure _⟩, fun o' h' => ?_⟩
    cases h'
    exact hlength
  | string unit => exact all_inside_putString unit (by omega)

/-! ## One turn of the loop -/

section

variable {P : Access → Prop} {format : CString} {args : Arguments} {fuel i k : Nat} {o : Output}

@[simp] theorem value_readFormat (format : CString) (i : Nat) : (readFormat format i).value = format.byte i := rfl

theorem all_readFormat (format : CString) (i : Nat) : (readFormat format i).All P ↔ P (.format i) := by
  unfold readFormat
  rw [Traced.all_bind, Traced.all_emit]
  exact ⟨fun h => h.1, fun h => ⟨h, Traced.all_pure _⟩⟩

theorem printLoop_end (h : format.byte i = 0) : (printLoop format args (fuel + 1) i k o).value = some o := by
  unfold printLoop
  rw [Traced.value_bind, value_readFormat, if_pos h]
  rfl

theorem printLoop_break (h : format.byte i ≠ 0) (hd : (directive format i (format.byte i)).value = none) :
    (printLoop format args (fuel + 1) i k o).value = some (makeRoom o).value := by
  unfold printLoop
  rw [Traced.value_bind, value_readFormat, if_neg h, Traced.value_bind, Traced.value_bind, hd]
  rfl

/-- A turn that writes a directive. -/
theorem printLoop_directive {d : Directive × Nat} {o' : Output} (h : format.byte i ≠ 0)
    (hd : (directive format i (format.byte i)).value = some d)
    (hwrite : ((d.1.piece args k).write fuel (makeRoom o).value).value = some o') :
    (printLoop format args (fuel + 1) i k o).value =
      (printLoop format args fuel (d.2 + 1) (k + d.1.arity) o').value := by
  conv => lhs; unfold printLoop
  rw [Traced.value_bind, value_readFormat, if_neg h, Traced.value_bind, Traced.value_bind, hd]
  exact Traced.value_andThen hwrite _

/-- The accesses of a turn, and of those behind it. -/
theorem all_printLoop :
    (printLoop format args (fuel + 1) i k o).All P ↔
      P (.format i) ∧ (format.byte i ≠ 0 →
        (makeRoom o).All P ∧ (directive format i (format.byte i)).All P ∧
          ∀ d, (directive format i (format.byte i)).value = some d →
            ((d.1.piece args k).write fuel (makeRoom o).value).All P ∧
              ∀ o', ((d.1.piece args k).write fuel (makeRoom o).value).value = some o' →
                (printLoop format args fuel (d.2 + 1) (k + d.1.arity) o').All P) := by
  conv => lhs; unfold printLoop
  rw [Traced.all_bind, all_readFormat, value_readFormat]
  refine and_congr_right fun _ => ?_
  by_cases h : format.byte i = 0
  · rw [if_pos h]
    exact ⟨fun _ hne => absurd h hne, fun _ => Traced.all_pure _⟩
  · rw [if_neg h, Traced.all_bind, Traced.all_bind]
    -- what follows depends on whether there is a directive at all
    cases hd : (directive format i (format.byte i)).value with
    | none =>
      constructor
      · rintro ⟨hroom, hdirective, -⟩ -
        refine ⟨hroom, hdirective, fun d h' => ?_⟩
        cases h'
      · intro hall
        exact ⟨(hall h).1, (hall h).2.1, Traced.all_pure _⟩
    | some d =>
      dsimp only
      rw [Traced.all_andThen_iff]
      constructor
      · rintro ⟨hroom, hdirective, hwrite⟩ -
        refine ⟨hroom, hdirective, fun d' h' => ?_⟩
        cases h'
        exact hwrite
      · intro hall
        obtain ⟨hroom, hdirective, hwrite⟩ := hall h
        exact ⟨hroom, hdirective, hwrite d rfl⟩

/-! ### What a directive reads -/

/-- A byte is read, and after an `l` the one behind it. -/
theorem all_readBehind_l {α : Type} {f : UInt8 → UInt8 → Traced Access α} {g : UInt8 → Traced Access α}
    (hf : ∀ c s, (f c s).All P) (hg : ∀ c, (g c).All P) :
    Traced.All P (readFormat format i >>= fun c =>
      if c = 'l'.toUInt8 then readFormat format (i + 1) >>= f c else g c) ↔
      P (.format i) ∧ (format.byte i = 'l'.toUInt8 → P (.format (i + 1))) := by
  rw [Traced.all_bind, all_readFormat, value_readFormat]
  refine and_congr_right fun _ => ?_
  by_cases h : format.byte i = 'l'.toUInt8
  · rw [if_pos h, Traced.all_bind, all_readFormat]
    exact ⟨fun hall _ => hall.1, fun hread => ⟨hread h, hf _ _⟩⟩
  · rw [if_neg h]
    exact ⟨fun _ h' => absurd h' h, fun _ => hg _⟩

theorem all_modifier :
    (modifier format i).All P ↔ P (.format i) ∧ (format.byte i = 'l'.toUInt8 → P (.format (i + 1))) := by
  unfold modifier
  apply all_readBehind_l
  · intro _ c
    split <;> exact Traced.all_pure _
  · exact fun _ => Traced.all_pure _

theorem all_letter (isLongLong : Bool) :
    (letter format isLongLong i).All P ↔ P (.format i) ∧ (format.byte i = 'l'.toUInt8 → P (.format (i + 1))) := by
  unfold letter
  apply all_readBehind_l
  · intro spec s
    split <;> exact Traced.all_pure _
  · exact fun _ => Traced.all_pure _

theorem all_conversion :
    (conversion format i).All P ↔
      P (.format i) ∧ (format.byte i ≠ 0 →
        (modifier format i).All P ∧
          (letter format (modifier format i).value.1 (modifier format i).value.2).All P) := by
  unfold conversion
  rw [Traced.all_bind, all_readFormat, value_readFormat]
  refine and_congr_right fun _ => ?_
  by_cases h : format.byte i = 0
  · rw [if_pos h]
    exact ⟨fun _ h' => absurd h h', fun _ => Traced.all_pure _⟩
  · rw [if_neg h, Traced.all_bind, Traced.all_bind]
    constructor
    · rintro ⟨hmodifier, hletter, -⟩ -
      exact ⟨hmodifier, hletter⟩
    · intro hall
      exact ⟨(hall h).1, (hall h).2, Traced.all_pure _⟩

/-- A directive reads the format and nothing else. -/
theorem all_directive (h : ∀ i, P (.format i)) (c : UInt8) : (directive format i c).All P := by
  unfold directive
  split
  · rw [all_conversion, all_modifier, all_letter]
    exact ⟨h _, fun _ => ⟨⟨h _, fun _ => h _⟩, h _, fun _ => h _⟩⟩
  · exact Traced.all_pure _

end

/-! ## The index stays below the size of the buffer -/

theorem all_inside_printLoop (format : CString) (args : Arguments) (fuel i k : Nat) {o : Output}
    (h : o.outBuf.length < 1024) :
    (printLoop format args fuel i k o).All Access.Inside ∧
      ∀ o', (printLoop format args fuel i k o).value = some o' → o'.outBuf.length < 1024 := by
  induction fuel generalizing i k o with
  | zero =>
    refine ⟨Traced.all_pure none, fun o' h' => ?_⟩
    cases h'
  | succ fuel ih =>
    obtain ⟨hroom, hlength⟩ := all_inside_makeRoom h
    constructor
    · -- the accesses of this turn, and by induction those behind it
      rw [all_printLoop]
      refine ⟨trivial, fun _ => ⟨hroom, all_directive (fun _ => trivial) _, fun d _ => ?_⟩⟩
      obtain ⟨hwrite, hbelow⟩ := all_inside_write (d := d.1) args k fuel hlength
      exact ⟨hwrite, fun o' ho' => (ih _ _ (hbelow o' ho')).1⟩
    · intro o' ho'
      by_cases hend : format.byte i = 0
      · rw [printLoop_end hend] at ho'
        cases ho'
        exact h
      cases hd : (directive format i (format.byte i)).value with
      | none =>
        rw [printLoop_break hend hd] at ho'
        cases ho'
        omega
      | some d =>
        cases hw : ((d.1.piece args k).write fuel (makeRoom o).value).value with
        | none =>
          -- the string has not ended within the fuel
          unfold printLoop at ho'
          rw [Traced.value_bind, value_readFormat, if_neg hend, Traced.value_bind, Traced.value_bind, hd] at ho'
          dsimp only at ho'
          rw [Traced.value_andThen_none hw] at ho'
          cases ho'
        | some o₁ =>
          rw [printLoop_directive hend hd hw] at ho'
          exact (ih _ _ ((all_inside_write (d := d.1) args k fuel hlength).2 o₁ hw)).2 o' ho'

/-- **The index never reaches 1024**, whatever is formatted. -/
theorem all_inside_printFormattedValist (conOut : Bool) (format : CString) (args : Arguments) (fuel : Nat) :
    (printFormattedValist conOut format args fuel).All Access.Inside := by
  have hstart : ({ conOut } : Output).outBuf.length < 1024 := Nat.zero_lt_succ 1023
  obtain ⟨hall, hlength⟩ := all_inside_printLoop format args fuel 0 0 hstart
  unfold printFormattedValist
  refine Traced.all_andThen hall fun o ho => ?_
  split
  · unfold flushBuf
    rw [Traced.all_bind, Traced.all_bind, Traced.all_emit]
    exact ⟨⟨hlength o ho, Traced.all_pure _⟩, Traced.all_pure _⟩
  · exact Traced.all_pure _

end EFIConsole
end UefiBoot
