import UefiBoot.Lib.Digits
import UefiBoot.Lib.Run
import UefiBoot.Lib.Signed
import UefiBoot.Gui.NativeApps

/-!
# `Gui.Calculator` — the calculator evaluates from left to right

The keys of the calculator work on an accumulator, the number that is being typed and a pending operator. What counts
of such a state is its `value`: the accumulator once the pending operation is carried out. An operator carries it out
and remembers itself, a numeral supplies the operand, and `=` shows the value without changing it (`Shows`). So a
session that begins with `C` shows, at every `=`, the strict left-to-right evaluation of what has been typed
(`calculator_evaluates`), as long as every number in it is one of 32 bits.

The display is written by a loop that divides by ten and one that copies the digits backwards; `calculatorDisplay` is
these loops, and what they write is the decimal numeral (`calculatorDisplay_eq`).
-/

namespace UefiBoot
namespace Gui

namespace Apps

/-! ## The display -/

/-- The `do` loop of `CalculatorSetDisplay` that fills `temp`, with the room left in it. -/
def displayTemp : Nat → UInt32 → Text
  | 0, _                => []
  | room + 1, magnitude =>
    ('0'.toUInt8 + (magnitude % 10).toUInt8) :: if magnitude / 10 ≠ 0 then displayTemp room (magnitude / 10) else []

/-- What the loops of `CalculatorSetDisplay` write into `g_Calculator.expression`. -/
def calculatorDisplay (value : Int32) : Text :=
  let negative := decide (value < 0)
  let magnitude := if negative then (-value).toUInt32 else value.toUInt32
  let sign := if negative then text "-" else []
  sign ++ (displayTemp 12 magnitude).reverse.take (kCalculatorExpressionLength - 1 - sign.length)

theorem displayTemp_eq (room : Nat) (magnitude : UInt32) :
    displayTemp room magnitude = (Lib.digitsUp 10 room magnitude.toNat).map fun d => (Nat.digitChar d).toUInt8 := by
  induction room generalizing magnitude with
  | zero => rfl
  | succ room ih =>
    have hten : (10 : UInt32).toNat = 10 := rfl
    have hdigit : '0'.toUInt8 + (magnitude % 10).toUInt8 = (Nat.digitChar (magnitude.toNat % 10)).toUInt8 := by
      have hmod : (magnitude % 10).toUInt8 = UInt8.ofNat (magnitude.toNat % 10) := by
        apply UInt8.toNat_inj.mp
        rw [UInt32.toNat_toUInt8, UInt32.toNat_mod, hten, UInt8.toNat_ofNat']
      have hall : ∀ d < 10, '0'.toUInt8 + UInt8.ofNat d = (Nat.digitChar d).toUInt8 := by decide
      rw [hmod]
      exact hall _ (Nat.mod_lt _ (by omega))
    have hzero : magnitude / 10 ≠ 0 ↔ ¬ magnitude.toNat / 10 = 0 := by
      rw [ne_eq, ← UInt32.toNat_inj, UInt32.toNat_div, hten]
      exact Iff.rfl
    unfold displayTemp Lib.digitsUp
    rw [List.map_cons, hdigit]
    congr 1
    by_cases hlast : magnitude.toNat / 10 = 0
    · rw [if_neg (fun h => hzero.mp h hlast), if_pos hlast]
      rfl
    · rw [if_pos (hzero.mpr hlast), if_neg hlast, ih, UInt32.toNat_div, hten]

/-- Ten digits are enough for 32 bits, so that neither array is too short. -/
theorem displayTemp_reverse (magnitude : UInt32) :
    (displayTemp 12 magnitude).reverse = (Nat.toDigits 10 magnitude.toNat).map Char.toUInt8 := by
  have hlt := magnitude.toNat_lt
  rw [displayTemp_eq, ← Lib.digitsUp_reverse (by omega) (show magnitude.toNat < 10 ^ (11 + 1) by omega), List.map_map,
    ← List.map_reverse]
  rfl

theorem length_displayTemp_le (room : Nat) (magnitude : UInt32) : (displayTemp room magnitude).length ≤ room := by
  rw [displayTemp_eq, List.length_map]
  exact Lib.length_digitsUp_le room _

theorem magnitude_eq (value : Int32) :
    (if decide (value < 0) then (-value).toUInt32 else value.toUInt32).toNat = value.toInt.natAbs := by
  have hneg : value < 0 ↔ value.toInt < 0 := Int32.lt_iff_toInt_lt
  refine Eq.trans ?_ (Lib.toNat_magnitude value.toBitVec)
  by_cases h : value < 0
  · rw [decide_eq_true h, if_pos rfl, if_pos (show value.toBitVec.toInt < 0 from hneg.mp h)]
    rfl
  · rw [decide_eq_false h, if_neg (by simp), if_neg (show ¬ value.toBitVec.toInt < 0 from fun h' => h (hneg.mpr h'))]
    rfl

/-- Sign and digits fit in `expression`. -/
theorem take_displayTemp (negative : Bool) (magnitude : UInt32) :
    (displayTemp 12 magnitude).reverse.take
        (kCalculatorExpressionLength - 1 - (if negative then text "-" else []).length) =
      (Nat.toDigits 10 magnitude.toNat).map Char.toUInt8 := by
  rw [← displayTemp_reverse]
  apply List.take_of_length_le
  have hlength := length_displayTemp_le 12 magnitude
  have hsign : (if negative then text "-" else []).length ≤ 1 := by cases negative <;> decide
  have hcapacity : kCalculatorExpressionLength = 32 := rfl
  rw [List.length_reverse]
  omega

/-- **The display is the decimal numeral.** -/
theorem calculatorDisplay_eq (value : Int32) : calculatorDisplay value = text (toString value.toInt) := by
  have hneg : value < 0 ↔ value.toInt < 0 := Int32.lt_iff_toInt_lt
  have hsign : (if decide (value < 0) then text "-" else []) =
      (if value.toInt < 0 then ['-'] else []).map Char.toUInt8 := by
    by_cases h : value < 0
    · rw [decide_eq_true h, if_pos rfl, if_pos (hneg.mp h)]
      rfl
    · rw [decide_eq_false h, if_neg (by simp), if_neg (fun h' => h (hneg.mpr h'))]
      rfl
  have htext : text (toString value.toInt) = (toString value.toInt).toList.map Char.toUInt8 := rfl
  rw [htext, Lib.toList_toString_int, List.map_append, ← hsign, ← magnitude_eq]
  unfold calculatorDisplay
  dsimp only
  rw [take_displayTemp]

/-- The display is what its two loops write. -/
theorem calculatorSetDisplay_eq (c : CalculatorState) (value : Int32) :
    calculatorSetDisplay c value = { c with expression := calculatorDisplay value } := by
  unfold calculatorSetDisplay calculatorDisplay
  dsimp only
  rw [take_displayTemp]

end Apps

/-! ## Expressions -/

namespace Calculator

/-- A row of digits. -/
structure Numeral where
  digits   : List (Fin 10)
  nonempty : digits ≠ []

inductive Operator where
  | plus
  | minus
  | times
  | divide
  deriving DecidableEq

namespace Operator

def char : Operator → Char
  | plus   => '+'
  | minus  => '-'
  | times  => '*'
  | divide => '/'

/-- What an operator does to the value so far. Division truncates, and a division by zero is not carried out. -/
def apply : Operator → Int → Int → Int
  | plus, v, n   => v + n
  | minus, v, n  => v - n
  | times, v, n  => v * n
  | divide, v, n => if n = 0 then v else v.tdiv n

end Operator

def digitKey (d : Fin 10) : UInt32 := '0'.toNat.toUInt32 + UInt32.ofNat d.val

/-- What a row of digits adds to a value. -/
def appendDigits (v : Nat) (digits : List (Fin 10)) : Nat := digits.foldl (fun v d => v * 10 + d.val) v

namespace Numeral

def value (n : Numeral) : Nat := appendDigits 0 n.digits

def keys (n : Numeral) : List UInt32 := n.digits.map digitKey

end Numeral

/-- An operator and its operand. -/
abbrev Term := Operator × Numeral

def Term.keys (t : Term) : List UInt32 := t.1.char.toNat.toUInt32 :: t.2.keys

/-- The terms are carried out from left to right. -/
def evaluate (v : Int) (terms : List Term) : Int := terms.foldl (fun v t => t.1.apply v t.2.value) v

/-- A number that the calculator can hold, and negate. -/
def InRange (v : Int) : Prop := -2 ^ 31 < v ∧ v < 2 ^ 31

instance (v : Int) : Decidable (InRange v) := by unfold InRange; infer_instance

/-- No numeral and no intermediate result leaves the range. -/
def Bounded : Int → List Term → Prop
  | v, []        => InRange v
  | v, t :: rest => InRange v ∧ InRange t.2.value ∧ Bounded (t.1.apply v t.2.value) rest

instance Bounded.decidable : ∀ (v : Int) (terms : List Term), Decidable (Bounded v terms)
  | v, []        => inferInstanceAs (Decidable (InRange v))
  | v, t :: rest =>
    have := Bounded.decidable (t.1.apply v t.2.value) rest
    inferInstanceAs (Decidable (InRange v ∧ InRange t.2.value ∧ Bounded (t.1.apply v t.2.value) rest))

/-- Terms, and the key `=`. -/
def entryKeys (terms : List Term) : List UInt32 := terms.flatMap Term.keys ++ ['='.toNat.toUInt32]

/-- `C`, an expression with its `=`, and further terms each time with their `=`. -/
def sessionKeys (first : Numeral) (terms : List Term) (further : List (List Term)) : List UInt32 :=
  'C'.toNat.toUInt32 :: first.keys ++ entryKeys terms ++ further.flatMap entryKeys

/-- A key of `CalculatorHandleKey`. -/
def press (c : CalculatorState) (key : UInt32) : CalculatorState := (Apps.calculatorHandleKey c key).2

/-- The value of a state: its accumulator once the pending operation is carried out. -/
def valueOf (c : CalculatorState) : Int := (Apps.calculatorApplyPending c).accumulator.toInt

variable {c : CalculatorState} {v : Int}

theorem evaluate_append (v : Int) (terms terms' : List Term) :
    evaluate v (terms ++ terms') = evaluate (evaluate v terms) terms' := List.foldl_append

theorem Bounded.head {terms : List Term} (h : Bounded v terms) : InRange v := by
  cases terms with
  | nil => exact h
  | cons t rest => exact h.1

theorem bounded_append {terms terms' : List Term} (h : Bounded v (terms ++ terms')) :
    Bounded v terms ∧ Bounded (evaluate v terms) terms' := by
  induction terms generalizing v with
  | nil => exact ⟨h.head, h⟩
  | cons t rest ih =>
    obtain ⟨hv, hn, hrest⟩ := h
    obtain ⟨hleft, hright⟩ := ih hrest
    exact ⟨⟨hv, hn, hleft⟩, hright⟩

/-- A numeral only grows with its digits. -/
theorem le_appendDigits (v : Nat) (digits : List (Fin 10)) : v ≤ appendDigits v digits := by
  induction digits generalizing v with
  | nil => exact Nat.le_refl v
  | cons d rest ih =>
    have hle := ih (v * 10 + d.val)
    show v ≤ appendDigits (v * 10 + d.val) rest
    omega

/-- The pending operation as the code carries it out. -/
theorem valueOf_pending (op : Operator) (hpending : c.hasPendingOperator = true)
    (hop : c.pendingOperator = op.char.toUInt8) (h : InRange (op.apply c.accumulator.toInt c.current.toInt)) :
    valueOf c = op.apply c.accumulator.toInt c.current.toInt := by
  obtain ⟨hlow, hhigh⟩ := h
  replace hlow := Int.le_of_lt hlow
  obtain ⟨expression, accumulator, current, pendingOperator, hasPendingOperator, showingResult⟩ := c
  dsimp only at hpending hop hlow hhigh ⊢
  subst hpending hop
  cases op with
  | plus => exact Lib.toInt_add_of_range hlow hhigh
  | minus => exact Lib.toInt_sub_of_range hlow hhigh
  | times => exact Lib.toInt_mul_of_range hlow hhigh
  | divide =>
    have hzero : current ≠ 0 ↔ ¬ current.toInt = 0 := not_congr Int32.toInt_inj.symm
    unfold Operator.apply at hlow hhigh ⊢
    dsimp only at hlow hhigh ⊢
    by_cases h0 : current.toInt = 0
    · -- the operation is dropped
      rw [if_pos h0]
      have hcur : ¬ current ≠ 0 := fun hne => hzero.mp hne h0
      exact congrArg (fun c : CalculatorState => c.accumulator.toInt) (if_neg hcur)
    · rw [if_neg h0] at hlow hhigh ⊢
      rw [← Lib.toInt_div_of_range hlow hhigh]
      exact congrArg (fun c : CalculatorState => c.accumulator.toInt) (if_pos (hzero.mpr h0))

theorem valueOf_not_pending (h : c.hasPendingOperator = false) : valueOf c = c.current.toInt := by
  unfold valueOf Apps.calculatorApplyPending
  rw [h]
  rfl

/-! ## Keys -/

theorem press_digit (c : CalculatorState) (d : Fin 10) :
    press c (digitKey d) =
      let current := (if c.showingResult then 0 else c.current) * 10 + Int32.ofNat d.val
      { c with current := current, showingResult := false, expression := Apps.calculatorDisplay current } := by
  have hdigit : digitKey d ≥ '0'.toNat.toUInt32 ∧ digitKey d ≤ '9'.toNat.toUInt32 := by
    revert d
    decide
  have hsub : (digitKey d - '0'.toNat.toUInt32).toInt32 = Int32.ofNat d.val := by
    revert d
    decide
  unfold press Apps.calculatorHandleKey
  rw [if_pos hdigit]
  dsimp only
  rw [hsub, Apps.calculatorSetDisplay_eq]
  obtain ⟨expression, accumulator, current, pendingOperator, hasPendingOperator, showingResult⟩ := c
  cases showingResult with
  | true => rfl
  | false => rfl

theorem press_operator (c : CalculatorState) (op : Operator) :
    press c op.char.toNat.toUInt32 =
      { Apps.calculatorApplyPending c with
        pendingOperator := op.char.toUInt8
        hasPendingOperator := true
        current := 0
        showingResult := true
        expression := Apps.calculatorDisplay (Apps.calculatorApplyPending c).accumulator } := by
  cases op with
  | plus => exact Apps.calculatorSetDisplay_eq _ _
  | minus => exact Apps.calculatorSetDisplay_eq _ _
  | times => exact Apps.calculatorSetDisplay_eq _ _
  | divide => exact Apps.calculatorSetDisplay_eq _ _

theorem press_equals (c : CalculatorState) :
    press c '='.toNat.toUInt32 =
      { Apps.calculatorApplyPending c with
        hasPendingOperator := false
        current := (Apps.calculatorApplyPending c).accumulator
        showingResult := true
        expression := Apps.calculatorDisplay (Apps.calculatorApplyPending c).accumulator } :=
  Apps.calculatorSetDisplay_eq _ _

/-- The number `n` has been typed since a state, and nothing else. -/
structure Typed (c c' : CalculatorState) (n : Nat) : Prop where
  current            : c'.current.toInt = n
  accumulator        : c'.accumulator = c.accumulator
  pendingOperator    : c'.pendingOperator = c.pendingOperator
  hasPendingOperator : c'.hasPendingOperator = c.hasPendingOperator

theorem Typed.trans {c' c'' : CalculatorState} {m n : Nat} (h : Typed c c' m) (h' : Typed c' c'' n) : Typed c c'' n :=
  ⟨h'.current, h'.accumulator.trans h.accumulator, h'.pendingOperator.trans h.pendingOperator,
    h'.hasPendingOperator.trans h.hasPendingOperator⟩

/-- A digit behind the digits of `v`. -/
theorem typed_digit {v : Nat} (d : Fin 10) (hv : (if c.showingResult then 0 else c.current).toInt = v)
    (h : v * 10 + d.val < 2 ^ 31) : Typed c (press c (digitKey d)) (v * 10 + d.val) := by
  rw [press_digit]
  refine ⟨?_, rfl, rfl, rfl⟩
  have hd := d.isLt
  dsimp only
  rw [Int32.toInt_add, Int32.toInt_mul, hv, Int32.toInt_ofNat_of_lt (by omega), show (10 : Int32).toInt = 10 from rfl,
    Int.bmod_add_bmod, Lib.bmod_of_range (by omega) (by omega)]
  push_cast
  rfl

/-- The digits of a numeral, once the first of them has been typed. -/
theorem typed_digits {v : Nat} {digits : List (Fin 10)} (hshowing : c.showingResult = false) (hv : c.current.toInt = v)
    (h : appendDigits v digits < 2 ^ 31) :
    Typed c (Lib.run press c (digits.map digitKey)) (appendDigits v digits) := by
  induction digits generalizing c v with
  | nil => exact ⟨hv, rfl, rfl, rfl⟩
  | cons d rest ih =>
    have hle : v * 10 + d.val < 2 ^ 31 := Nat.lt_of_le_of_lt (le_appendDigits _ rest) h
    have hd := typed_digit d (show (if c.showingResult then 0 else c.current).toInt = v by rw [hshowing]; exact hv) hle
    exact hd.trans (ih (c := press c (digitKey d)) (by rw [press_digit]) hd.current h)

/-- A numeral after a key that shows a result. -/
theorem typed_numeral {n : Numeral} (hshowing : c.showingResult = true) (h : n.value < 2 ^ 31) :
    Typed c (Lib.run press c n.keys) n.value := by
  obtain ⟨digits, hne⟩ := n
  cases digits with
  | nil => exact absurd rfl hne
  | cons d rest =>
    have hle : 0 * 10 + d.val < 2 ^ 31 := Nat.lt_of_le_of_lt (le_appendDigits _ rest) h
    have hd := typed_digit d
      (show (if c.showingResult then 0 else c.current).toInt = ((0 : Nat) : Int) by rw [hshowing]; rfl) hle
    exact hd.trans (typed_digits (c := press c (digitKey d)) (by rw [press_digit]) hd.current h)

/-! ## Sessions -/

/-- An operator and its operand. -/
theorem run_term {t : Term} (hv : valueOf c = v) (hn : InRange t.2.value) (h : InRange (t.1.apply v t.2.value)) :
    valueOf (Lib.run press c t.keys) = t.1.apply v t.2.value := by
  have hpress := press_operator c t.1
  have htyped := typed_numeral (c := press c t.1.char.toNat.toUInt32) (n := t.2) (by rw [hpress])
    (by have := hn.2; omega)
  have hop := htyped.pendingOperator.trans (by rw [hpress] : _ = t.1.char.toUInt8)
  have hpending := htyped.hasPendingOperator.trans (by rw [hpress] : _ = true)
  have haccumulator : (Lib.run press (press c t.1.char.toNat.toUInt32) t.2.keys).accumulator.toInt = v := by
    rw [htyped.accumulator, hpress]
    exact hv
  have hvalue := valueOf_pending t.1 hpending hop (by rw [haccumulator, htyped.current]; exact h)
  rw [haccumulator, htyped.current] at hvalue
  exact hvalue

theorem run_terms {terms : List Term} (hv : valueOf c = v) (h : Bounded v terms) :
    valueOf (Lib.run press c (terms.flatMap Term.keys)) = evaluate v terms := by
  induction terms generalizing c v with
  | nil => exact hv
  | cons t rest ih =>
    obtain ⟨-, hn, hrest⟩ := h
    rw [List.flatMap_cons, Lib.run_append]
    exact ih (run_term hv hn hrest.head) hrest

/-- **The key `=`** shows the value and leaves it as it is. -/
theorem press_equals_shows (hv : valueOf c = v) :
    (press c '='.toNat.toUInt32).expression = text (toString v) ∧ valueOf (press c '='.toNat.toUInt32) = v := by
  have hpress := press_equals c
  constructor
  · rw [hpress, ← hv]
    exact Apps.calculatorDisplay_eq _
  · rw [valueOf_not_pending (by rw [hpress]), hpress]
    exact hv

theorem run_entry {terms : List Term} (hv : valueOf c = v) (h : Bounded v terms) :
    (Lib.run press c (entryKeys terms)).expression = text (toString (evaluate v terms)) ∧
      valueOf (Lib.run press c (entryKeys terms)) = evaluate v terms := by
  unfold entryKeys
  rw [Lib.run_append]
  exact press_equals_shows (run_terms hv h)

theorem run_entries {further : List (List Term)} (hv : valueOf c = v) (hshows : c.expression = text (toString v))
    (h : Bounded v further.flatten) :
    (Lib.run press c (further.flatMap entryKeys)).expression = text (toString (evaluate v further.flatten)) := by
  induction further generalizing c v with
  | nil => exact hshows
  | cons terms rest ih =>
    rw [List.flatten_cons] at h ⊢
    obtain ⟨hterms, hrest⟩ := bounded_append h
    obtain ⟨hexpression, hvalue⟩ := run_entry hv hterms
    rw [List.flatMap_cons, Lib.run_append, evaluate_append]
    exact ih hvalue hexpression hrest

/-- **The calculator.** Whatever it showed before: after `C`, an expression and `=`, and then any number of further
    terms each time with their `=`, the display is the numeral of the left-to-right evaluation of all that was typed. -/
theorem calculator_evaluates (c : CalculatorState) (first : Numeral) (terms : List Term) (further : List (List Term))
    (h : Bounded first.value (terms ++ further.flatten)) :
    (Lib.run press c (sessionKeys first terms further)).expression =
      text (toString (evaluate first.value (terms ++ further.flatten))) := by
  obtain ⟨hterms, hfurther⟩ := bounded_append h
  have hfirst := typed_numeral (c := press c 'C'.toNat.toUInt32) (n := first) rfl (by have := h.head.2; omega)
  have hvalue : valueOf (Lib.run press (press c 'C'.toNat.toUInt32) first.keys) = first.value := by
    rw [valueOf_not_pending hfirst.hasPendingOperator, hfirst.current]
  obtain ⟨hexpression, hentry⟩ := run_entry hvalue hterms
  unfold sessionKeys
  rw [List.cons_append, List.cons_append, Lib.run_cons, Lib.run_append, Lib.run_append, evaluate_append]
  exact run_entries hentry hexpression hfurther

/-- `12 + 3 =`, `* 2 =` and `/ 0 =`. -/
theorem calculator_evaluates_thirty :
    (Lib.run press {} (sessionKeys ⟨[1, 2], List.cons_ne_nil _ _⟩ [(.plus, ⟨[3], List.cons_ne_nil _ _⟩)]
      [[(.times, ⟨[2], List.cons_ne_nil _ _⟩)], [(.divide, ⟨[0], List.cons_ne_nil _ _⟩)]])).expression =
        text (toString (30 : Int)) :=
  calculator_evaluates {} ⟨[1, 2], List.cons_ne_nil _ _⟩ [(.plus, ⟨[3], List.cons_ne_nil _ _⟩)]
    [[(.times, ⟨[2], List.cons_ne_nil _ _⟩)], [(.divide, ⟨[0], List.cons_ne_nil _ _⟩)]] (by decide)

end Calculator
end Gui
end UefiBoot
