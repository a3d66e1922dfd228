import UefiBoot.Lib.CString
import UefiBoot.Lib.Digits
import UefiBoot.Gui.Terminal

/-!
# `Gui.AnsiLine` — `TerminalParseAnsiLine` on a string in memory

The scanner of the terminal copies a line and takes the sequences `ESC [ digits m` out of it, each of which sets the
colour. It looks one character ahead of an `ESC`, steps over the digits in a loop of its own and, if the letter after
them is not an `m`, copies that letter and forgets the rest.

`terminalParseAnsiLine` is this scanner with its index and its reads. Every turn moves the index on, and none reads
beyond a byte that was not zero, so it ends at the terminator at the latest (`ansiLoop_value`, `ansiLoop_reads`); what it
computes is `terminalParseAnsi` on the characters of the string. A line that is made of plain runs and of complete
sequences is taken apart into exactly these (`terminalParseAnsi_pieces`).
-/

namespace UefiBoot
namespace Gui

open Lib (CString Traced)

/-- The characters written so far, the colour, and whether a sequence was seen. The characters are written one behind
    the other, so the terminator that follows them is at index `length`. -/
abbrev AnsiResult := Text × UInt32 × Bool

/-- The inner loop, which steps over digits: the index behind them, the number they add up to and whether there are
    any. -/
def digitRun (text : CString) : Nat → Nat → UInt32 → Bool → Traced CString.Read (Option (Nat × UInt32 × Bool))
  | 0, _, _, _ => pure none
  | fuel + 1, i, code, hasDigit => do
    let c ← text.read i
    if isDigit c then digitRun text fuel (i + 1) (code * 10 + (c - '0'.toUInt8).toUInt32) true
    else pure (some (i, code, hasDigit))

/-- The loop of `TerminalParseAnsiLine`, from index `i` on. -/
def ansiLoop (text : CString) (capacity : Nat) :
    Nat → Nat → Text → UInt32 → Bool → Traced CString.Read (Option AnsiResult)
  | 0, _, _, _, _ => pure none
  | fuel + 1, i, out, color, parsed => do
    let c ← text.read i
    if c = 0 ∨ ¬ out.length + 1 < capacity then pure (some (out, color, parsed))
    else if c = 0x1B then
      let next ← text.read (i + 1)
      if next = '['.toUInt8 then
        Traced.andThen (digitRun text fuel (i + 2) 0 false) fun digits => do
          let c ← text.read digits.1
          if c = 'm'.toUInt8 then
            ansiLoop text capacity fuel (digits.1 + 1) out
              (terminalColorFromAnsiCode (if digits.2.2 then digits.2.1 else 0) color) true
          -- cut off inside a sequence
          else if c = 0 then pure (some (out, color, parsed))
          else ansiLoop text capacity fuel (digits.1 + 1) (out ++ [c]) color parsed
      else ansiLoop text capacity fuel (i + 1) (out ++ [c]) color parsed
    else ansiLoop text capacity fuel (i + 1) (out ++ [c]) color parsed

/-- `TerminalParseAnsiLine`, with a bound on the turns of its loops. -/
def terminalParseAnsiLine (text : CString) (capacity : Nat) (color : UInt32) (fuel : Nat) :
    Traced CString.Read (Option AnsiResult) :=
  if capacity = 0 then pure (some ([], color, false)) else ansiLoop text capacity fuel 0 [] color false

variable {text : CString} {capacity fuel i : Nat} {out : Text} {color : UInt32} {parsed : Bool}

/-! ## The loops end -/

/-- Behind the digits there is at least the terminator. -/
theorem digitRun_value (fuel : Nat) (code : UInt32) (hasDigit : Bool) (hi : i ≤ text.length) (hfuel : text.length - i < fuel) :
    (digitRun text fuel i code hasDigit).value =
      some (i + ((text.content.drop i).takeWhile isDigit).length,
        ((text.content.drop i).takeWhile isDigit).foldl (fun code c => code * 10 + (c - '0'.toUInt8).toUInt32) code,
        hasDigit || !((text.content.drop i).takeWhile isDigit).isEmpty) := by
  induction fuel generalizing i code hasDigit with
  | zero => omega
  | succ fuel ih =>
    unfold digitRun
    rw [Traced.value_bind, CString.value_read]
    rcases Nat.eq_or_lt_of_le hi with rfl | hlt
    · rw [CString.byte_length, CString.drop_length_content, if_neg (by decide), Traced.value_pure]
      simp
    · rw [CString.drop_content hlt]
      by_cases hdigit : isDigit (text.byte i)
      · rw [if_pos hdigit, ih _ _ hlt (by omega), List.takeWhile_cons_of_pos hdigit]
        simp [Nat.add_assoc, Nat.add_comm 1]
      · rw [if_neg hdigit, Traced.value_pure, List.takeWhile_cons_of_neg hdigit]
        simp

/-- A digit is not the terminator. -/
theorem ne_zero_of_isDigit {c : UInt8} (h : isDigit c = true) : c ≠ 0 := by
  rintro rfl
  exact absurd h (by decide)

theorem digitRun_reads (code : UInt32) (hasDigit : Bool) (hi : i ≤ text.length) :
    (digitRun text fuel i code hasDigit).All CString.Read.InBounds := by
  induction fuel generalizing i code hasDigit with
  | zero => exact Traced.all_pure none
  | succ fuel ih =>
    unfold digitRun
    rw [Traced.all_bind, CString.all_read, CString.value_read]
    refine ⟨hi, ?_⟩
    by_cases hdigit : isDigit (text.byte i)
    · rw [if_pos hdigit]
      exact ih _ _ (CString.lt_length_of_ne_zero hi (ne_zero_of_isDigit hdigit))
    · rw [if_neg hdigit]
      exact Traced.all_pure _

/-- The index at which the inner loop stops is still one of the string. -/
theorem digitRun_le {digits : Nat × UInt32 × Bool} {code : UInt32} {hasDigit : Bool} (hi : i ≤ text.length)
    (h : (digitRun text fuel i code hasDigit).value = some digits) : digits.1 ≤ text.length := by
  induction fuel generalizing i code hasDigit with
  | zero => cases h
  | succ fuel ih =>
    unfold digitRun at h
    rw [Traced.value_bind, CString.value_read] at h
    by_cases hdigit : isDigit (text.byte i)
    · rw [if_pos hdigit] at h
      exact ih (CString.lt_length_of_ne_zero hi (ne_zero_of_isDigit hdigit)) h
    · rw [if_neg hdigit, Traced.value_pure, Option.some.injEq] at h
      rw [← h]
      exact hi

/-- **No read beyond the terminator**, whatever the line ends with and however long the loops are let run. -/
theorem ansiLoop_reads (hi : i ≤ text.length) :
    (ansiLoop text capacity fuel i out color parsed).All CString.Read.InBounds := by
  induction fuel generalizing i out color parsed with
  | zero => exact Traced.all_pure none
  | succ fuel ih =>
    unfold ansiLoop
    rw [Traced.all_bind, CString.all_read, CString.value_read]
    refine ⟨hi, ?_⟩
    by_cases hstop : text.byte i = 0 ∨ ¬ out.length + 1 < capacity
    · rw [if_pos hstop]
      exact Traced.all_pure _
    · rw [if_neg hstop]
      have hlt := CString.lt_length_of_ne_zero hi (not_or.mp hstop).1
      by_cases hescape : text.byte i = 0x1B
      · -- one character ahead of an `ESC`, which is not the terminator
        rw [if_pos hescape, Traced.all_bind, CString.all_read, CString.value_read]
        refine ⟨hlt, ?_⟩
        by_cases hbracket : text.byte (i + 1) = '['.toUInt8
        · have hlt' : i + 1 < text.length := CString.lt_length_of_ne_zero hlt (by rw [hbracket]; decide)
          rw [if_pos hbracket]
          refine Traced.all_andThen (digitRun_reads 0 false hlt') fun digits hdigits => ?_
          have hle := digitRun_le hlt' hdigits
          rw [Traced.all_bind, CString.all_read, CString.value_read]
          refine ⟨hle, ?_⟩
          by_cases hm : text.byte digits.1 = 'm'.toUInt8
          · rw [if_pos hm]
            exact ih (CString.lt_length_of_ne_zero hle (by rw [hm]; decide))
          · rw [if_neg hm]
            by_cases hzero : text.byte digits.1 = 0
            · rw [if_pos hzero]
              exact Traced.all_pure _
            · rw [if_neg hzero]
              exact ih (CString.lt_length_of_ne_zero hle hzero)
        · rw [if_neg hbracket]
          exact ih hlt
      · rw [if_neg hescape]
        exact ih hlt

/-- What the digits leave of a text. -/
theorem drop_length_takeWhile (l : Text) : l.drop (l.takeWhile isDigit).length = l.dropWhile isDigit := by
  have h : (l.takeWhile isDigit ++ l.dropWhile isDigit).drop (l.takeWhile isDigit).length = l.dropWhile isDigit :=
    List.drop_left
  rwa [List.takeWhile_append_dropWhile] at h

theorem terminalParseAnsi_nil (turns : Nat) :
    terminalParseAnsi capacity turns [] out color parsed = (out, color, parsed) := by
  cases turns with
  | zero => rfl
  | succ turns => rfl

/-- **The scanner ends** when it may take a turn for every character that is left and one for the terminator, and
    then has computed `terminalParseAnsi` of these characters. -/
theorem ansiLoop_value {turns : Nat} (hi : i ≤ text.length) (hfuel : text.length - i < fuel)
    (hturns : text.length - i ≤ turns) :
    (ansiLoop text capacity fuel i out color parsed).value =
      some (terminalParseAnsi capacity turns (text.content.drop i) out color parsed) := by
  induction fuel generalizing i out color parsed turns with
  | zero => omega
  | succ fuel ih =>
    unfold ansiLoop
    rw [Traced.value_bind, CString.value_read]
    rcases Nat.eq_or_lt_of_le hi with rfl | hlt
    · rw [if_pos (Or.inl text.byte_length), CString.drop_length_content, terminalParseAnsi_nil, Traced.value_pure]
    · obtain ⟨turns, rfl⟩ : ∃ k, turns = k + 1 := ⟨turns - 1, by omega⟩
      have hne : text.byte i ≠ 0 := CString.byte_ne_zero hlt
      have hchar : (ansiLoop text capacity fuel (i + 1) (out ++ [text.byte i]) color parsed).value =
          some (terminalParseAnsi capacity turns (text.content.drop (i + 1)) (out ++ [text.byte i]) color parsed) :=
        ih hlt (by omega) (by omega)
      rw [CString.drop_content hlt]
      unfold terminalParseAnsi
      by_cases hroom : out.length + 1 < capacity
      · rw [if_neg (by rintro (h | h); exacts [hne h, h hroom]), if_neg (not_not.mpr hroom)]
        by_cases hescape : text.byte i = 0x1B
        · rw [if_pos hescape, Traced.value_bind, CString.value_read]
          rcases Nat.eq_or_lt_of_le (show i + 1 ≤ text.length from hlt) with hend | hlt'
          · -- an `ESC` at the end
            have hnext : text.byte (i + 1) ≠ '['.toUInt8 := by
              rw [hend, CString.byte_length]
              decide
            rw [if_neg hnext, hchar, hend, CString.drop_length_content, if_neg (by simp)]
          · by_cases hbracket : text.byte (i + 1) = '['.toUInt8
            · have hsequence : text.byte i = 0x1B ∧ some (text.byte (i + 1)) = some '['.toUInt8 :=
                ⟨hescape, congrArg some hbracket⟩
              rw [if_pos hbracket, Traced.value_andThen (digitRun_value fuel 0 false hlt' (by omega)), Traced.value_bind,
                CString.value_read, CString.drop_content hlt', List.head?_cons, if_pos hsequence,
                List.drop_one, List.tail_cons, ← drop_length_takeWhile, List.drop_drop]
              have hle := digitRun_le hlt' (digitRun_value fuel 0 false hlt' (by omega))
              dsimp only at hle ⊢
              generalize hdigits : (text.content.drop (i + 1 + 1)).takeWhile isDigit = digits at hle ⊢
              have hcode : (if (false || !digits.isEmpty) = true then
                  digits.foldl (fun code c => code * 10 + (c - '0'.toUInt8).toUInt32) 0 else 0) =
                    if digits.isEmpty then 0 else ansiCode digits := by
                cases digits with
                | nil => rfl
                | cons d digits => rfl
              rw [hcode]
              generalize hj : i + 1 + 1 + digits.length = j
              rw [show (i + 1).succ + digits.length = j from hj] at hle
              rcases Nat.eq_or_lt_of_le hle with hend | hlt''
              · -- cut off inside the sequence
                rw [hend, CString.byte_length, if_neg (by decide), if_pos rfl, CString.drop_length_content,
                  Traced.value_pure]
              · rw [CString.drop_content hlt'']
                dsimp only
                by_cases hm : text.byte j = 'm'.toUInt8
                · rw [if_pos hm, if_pos hm]
                  exact ih hlt'' (by omega) (by omega)
                · rw [if_neg hm, if_neg hm, if_neg (CString.byte_ne_zero hlt'')]
                  exact ih hlt'' (by omega) (by omega)
            · rw [if_neg hbracket, hchar, CString.drop_content hlt', List.head?_cons,
                if_neg (fun h => hbracket (Option.some.inj h.2))]
        · rw [if_neg hescape, hchar, if_neg (fun h => hescape h.1)]
      · rw [if_pos (Or.inr hroom), if_pos hroom, Traced.value_pure]

/-! ## What is written -/

/-- The output leaves room for its terminator, and has none before it. -/
theorem terminalParseAnsi_fits (turns : Nat) (color : UInt32) (parsed : Bool) {line : Text}
    (hout : out.length < capacity) (hzero : 0 ∉ out) (hline : 0 ∉ line) :
    (terminalParseAnsi capacity turns line out color parsed).1.length < capacity ∧
      0 ∉ (terminalParseAnsi capacity turns line out color parsed).1 := by
  induction turns generalizing line out color parsed with
  | zero => exact ⟨hout, hzero⟩
  | succ turns ih =>
    cases line with
    | nil => exact ⟨hout, hzero⟩
    | cons c rest =>
      unfold terminalParseAnsi
      have hrest : 0 ∉ rest := fun h => hline (List.mem_cons_of_mem c h)
      by_cases hroom : out.length + 1 < capacity
      · have hwrite : ∀ d : UInt8, d ≠ 0 → (out ++ [d]).length < capacity ∧ 0 ∉ out ++ [d] := by
          intro d hd
          refine ⟨by rwa [List.length_append, List.length_singleton], ?_⟩
          simp [hzero, hd.symm]
        rw [if_neg (not_not.mpr hroom)]
        by_cases hsequence : c = 0x1B ∧ rest.head? = some '['.toUInt8
        · rw [if_pos hsequence]
          have hleft : 0 ∉ (rest.drop 1).dropWhile isDigit :=
            fun h => hrest (List.mem_of_mem_drop (List.dropWhile_subset _ h))
          revert hleft
          dsimp only
          cases (rest.drop 1).dropWhile isDigit with
          | nil => exact fun _ => ⟨hout, hzero⟩
          | cons d left =>
            intro hleft
            have hd : d ≠ 0 := fun h => hleft (h ▸ List.mem_cons_self)
            have hleft' : 0 ∉ left := fun h => hleft (List.mem_cons_of_mem d h)
            dsimp only
            by_cases hm : d = 'm'.toUInt8
            · rw [if_pos hm]
              exact ih _ _ hout hzero hleft'
            · rw [if_neg hm]
              exact ih _ _ (hwrite d hd).1 (hwrite d hd).2 hleft'
        · rw [if_neg hsequence]
          have hc : c ≠ 0 := fun h => hline (h ▸ List.mem_cons_self)
          exact ih _ _ (hwrite c hc).1 (hwrite c hc).2 hrest
      · rw [if_pos hroom]
        exact ⟨hout, hzero⟩

/-! ## Lines made of runs and sequences -/

/-- A part of a line: characters without `ESC`, or the sequence that a code is written in. -/
inductive AnsiPiece where
  | plain (run : Text) (h : (0x1B : UInt8) ∉ run)
  | sequence (digits : Text) (h : ∀ c ∈ digits, isDigit c = true)

namespace AnsiPiece

def bytes : AnsiPiece → Text
  | plain run _       => run
  | sequence digits _ => [0x1B, '['.toUInt8] ++ digits ++ ['m'.toUInt8]

/-- What a piece adds to the line. -/
def kept : AnsiPiece → Text
  | plain run _  => run
  | sequence _ _ => []

/-- What a piece makes of the colour: a code counts modulo `2 ^ 32`, and is 0 when it has no digits. -/
def recolor (color : UInt32) : AnsiPiece → UInt32
  | plain _ _         => color
  | sequence digits _ => terminalColorFromAnsiCode (UInt32.ofNat (Lib.decimal digits)) color

def isSequence : AnsiPiece → Bool
  | plain _ _    => false
  | sequence _ _ => true

end AnsiPiece

/-- A run without `ESC` in front of a line. -/
theorem terminalParseAnsi_run {turns : Nat} {run : Text} (line : Text) (h : (0x1B : UInt8) ∉ run)
    (hroom : out.length + run.length < capacity) :
    terminalParseAnsi capacity (run.length + turns) (run ++ line) out color parsed =
      terminalParseAnsi capacity turns line (out ++ run) color parsed := by
  induction run generalizing out with
  | nil => rw [List.length_nil, Nat.zero_add, List.nil_append, List.append_nil]
  | cons c rest ih =>
    have hc : c ≠ 0x1B := fun hc => h (hc ▸ List.mem_cons_self)
    rw [List.length_cons] at hroom
    rw [List.length_cons, Nat.add_right_comm, List.cons_append]
    conv => lhs; unfold terminalParseAnsi
    rw [if_neg (by omega), if_neg (fun hsequence => hc hsequence.1),
      ih (fun hrest => h (List.mem_cons_of_mem c hrest)) (by rw [List.length_append, List.length_singleton]; omega),
      List.append_assoc, List.singleton_append]

/-- A sequence in front of a line. -/
theorem terminalParseAnsi_sequence {turns : Nat} {digits : Text} (line : Text) (h : ∀ c ∈ digits, isDigit c = true)
    (hroom : out.length + 1 < capacity) :
    terminalParseAnsi capacity (turns + 1) ((AnsiPiece.sequence digits h).bytes ++ line) out color parsed =
      terminalParseAnsi capacity turns line out ((AnsiPiece.sequence digits h).recolor color) true := by
  have hm : isDigit 'm'.toUInt8 = false := rfl
  have htake : (digits ++ 'm'.toUInt8 :: line).takeWhile isDigit = digits := by
    rw [List.takeWhile_append_of_pos h, List.takeWhile_cons_of_neg (by rw [hm]; decide), List.append_nil]
  have hdrop : (digits ++ 'm'.toUInt8 :: line).dropWhile isDigit = 'm'.toUInt8 :: line := by
    rw [List.dropWhile_append_of_pos h, List.dropWhile_cons_of_neg (by rw [hm]; decide)]
  have hbytes : (AnsiPiece.sequence digits h).bytes ++ line =
      0x1B :: '['.toUInt8 :: (digits ++ 'm'.toUInt8 :: line) := by
    simp [AnsiPiece.bytes]
  have hcode : (if digits.isEmpty then 0 else ansiCode digits) = ansiCode digits := by
    cases digits with
    | nil => rfl
    | cons d digits => rfl
  have hdecimal : ansiCode digits = UInt32.ofNat (Lib.decimal digits) := Lib.foldl_decimal_uint32 digits
  rw [hbytes]
  conv => lhs; unfold terminalParseAnsi
  rw [if_neg (not_not.mpr hroom), if_pos ⟨rfl, rfl⟩, List.drop_one, List.tail_cons, htake, hdrop]
  dsimp only
  rw [if_pos rfl, hcode, hdecimal]
  rfl

/-- **A line made of pieces** is taken apart into them, as long as what is kept of it fits. -/
theorem terminalParseAnsi_pieces {pieces : List AnsiPiece} {turns : Nat}
    (hturns : (pieces.flatMap AnsiPiece.bytes).length ≤ turns)
    (hroom : out.length + (pieces.flatMap AnsiPiece.kept).length + 1 < capacity) :
    terminalParseAnsi capacity turns (pieces.flatMap AnsiPiece.bytes) out color parsed =
      (out ++ pieces.flatMap AnsiPiece.kept, pieces.foldl AnsiPiece.recolor color,
        parsed || pieces.any AnsiPiece.isSequence) := by
  induction pieces generalizing turns out color parsed with
  | nil =>
    rw [List.flatMap_nil, List.flatMap_nil, terminalParseAnsi_nil, List.append_nil, List.any_nil, Bool.or_false]
    rfl
  | cons piece rest ih =>
    rw [List.flatMap_cons, List.length_append] at hturns hroom
    rw [List.flatMap_cons, List.flatMap_cons, List.foldl_cons, List.any_cons]
    cases piece with
    | plain run h =>
      have hlength : (AnsiPiece.plain run h).kept.length = run.length := rfl
      have hbytes : (AnsiPiece.plain run h).bytes.length = run.length := rfl
      obtain ⟨turns, rfl⟩ : ∃ k, turns = run.length + k := ⟨turns - run.length, by omega⟩
      rw [show (AnsiPiece.plain run h).bytes = run from rfl, terminalParseAnsi_run _ h (by omega),
        ih (by omega) (by rw [List.length_append]; omega), List.append_assoc]
      rfl
    | sequence digits h =>
      have hbytes : (AnsiPiece.sequence digits h).bytes.length = digits.length + 3 := by
        simp [AnsiPiece.bytes, Nat.add_comm, Nat.add_left_comm]
      obtain ⟨turns, rfl⟩ : ∃ k, turns = k + 1 := ⟨turns - 1, by omega⟩
      rw [terminalParseAnsi_sequence _ h (by omega), ih (by omega) (by omega)]
      simp [AnsiPiece.kept, AnsiPiece.isSequence]

/-- A line without `ESC` keeps its colour. -/
theorem terminalParseAnsi_plain {turns : Nat} {line : Text} (h : (0x1B : UInt8) ∉ line) :
    (terminalParseAnsi capacity turns line out color parsed).2 = (color, parsed) := by
  induction turns generalizing line out with
  | zero => rfl
  | succ turns ih =>
    cases line with
    | nil => rfl
    | cons c rest =>
      have hc : c ≠ 0x1B := fun hc => h (hc ▸ List.mem_cons_self)
      unfold terminalParseAnsi
      by_cases hroom : out.length + 1 < capacity
      · rw [if_neg (not_not.mpr hroom), if_neg (fun hsequence => hc hsequence.1)]
        exact ih fun hrest => h (List.mem_cons_of_mem c hrest)
      · rw [if_pos hroom]

end Gui
end UefiBoot
