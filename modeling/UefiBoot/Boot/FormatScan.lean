import Mathlib.Data.List.TakeWhile
import UefiBoot.Boot.Formatted

/-!
# `Boot.FormatScan` — what a format says, and where reading it ends

`scan` reads the bytes of a format as a list: its directives in order, and whether it `overrun`s, which is to end
behind `%l` or `%ll`. The formatter reads the same directives at the same places (`directive_spec`) and nothing
behind the terminator as long as there is no overrun. A format that ends behind `%l` makes it take the terminator
for the conversion's letter and go on behind it. Of all the ways a format can end inside a conversion these two are
the only ones, since `%` alone is tested for (`staysInFormat_iff`).
-/

namespace UefiBoot
namespace EFIConsole

open Lib

structure Scan where
  directives : List Directive
  overrun    : Bool

def Scan.cons (d : Directive) (s : Scan) : Scan := { s with directives := d :: s.directives }

/-- The directives of a format. -/
def scan : List UInt8 → Scan
  | []        => ⟨[], false⟩
  | c :: rest =>
    if c ≠ '%'.toUInt8 then (scan rest).cons (.literal c)
    else match rest with
      | []         => ⟨[], false⟩
      | c₁ :: rest =>
        if c₁ ≠ 'l'.toUInt8 then (scan rest).cons (specifier false c₁)
        else match rest with
          | []         => ⟨[], true⟩
          | c₂ :: rest =>
            if c₂ ≠ 'l'.toUInt8 then (scan rest).cons (specifier false c₂)
            else match rest with
              | []         => ⟨[], true⟩
              | c₃ :: rest =>
                if c₃ ≠ 'l'.toUInt8 then (scan rest).cons (specifier true c₃)
                else match rest with
                  | []         => ⟨[.unknown 'l'.toUInt8], false⟩
                  | c₄ :: rest =>
                    if c₄ = 's'.toUInt8 then (scan rest).cons .wide
                    else (scan (c₄ :: rest)).cons (.unknown 'l'.toUInt8)

section

variable {c c₁ c₂ c₃ : UInt8} {rest : List UInt8}

theorem scan_literal (h : c ≠ '%'.toUInt8) : scan (c :: rest) = (scan rest).cons (.literal c) := by
  conv => lhs; unfold scan
  rw [if_pos h]

theorem scan_conversion (h : c₁ ≠ 'l'.toUInt8) :
    scan ('%'.toUInt8 :: c₁ :: rest) = (scan rest).cons (specifier false c₁) := by
  conv => lhs; unfold scan
  rw [if_neg (not_not.mpr rfl)]
  dsimp only
  rw [if_pos h]

theorem scan_l (h : c₂ ≠ 'l'.toUInt8) :
    scan ('%'.toUInt8 :: 'l'.toUInt8 :: c₂ :: rest) = (scan rest).cons (specifier false c₂) := by
  conv => lhs; unfold scan
  rw [if_neg (not_not.mpr rfl)]
  dsimp only
  rw [if_neg (not_not.mpr rfl), if_pos h]

theorem scan_ll (h : c₃ ≠ 'l'.toUInt8) :
    scan ('%'.toUInt8 :: 'l'.toUInt8 :: 'l'.toUInt8 :: c₃ :: rest) = (scan rest).cons (specifier true c₃) := by
  conv => lhs; unfold scan
  rw [if_neg (not_not.mpr rfl)]
  dsimp only
  rw [if_neg (not_not.mpr rfl), if_neg (not_not.mpr rfl), if_pos h]

theorem scan_lll_s :
    scan ('%'.toUInt8 :: 'l'.toUInt8 :: 'l'.toUInt8 :: 'l'.toUInt8 :: 's'.toUInt8 :: rest) = (scan rest).cons .wide := by
  conv => lhs; unfold scan
  rw [if_neg (not_not.mpr rfl)]
  dsimp only
  rw [if_neg (not_not.mpr rfl), if_neg (not_not.mpr rfl), if_neg (not_not.mpr rfl), if_pos rfl]

theorem scan_lll (h : rest.head? ≠ some 's'.toUInt8) :
    scan ('%'.toUInt8 :: 'l'.toUInt8 :: 'l'.toUInt8 :: 'l'.toUInt8 :: rest) =
      (scan rest).cons (.unknown 'l'.toUInt8) := by
  cases rest with
  | nil => rfl
  | cons c rest =>
    have hne : ¬ c = 's'.toUInt8 := fun hs => h (congrArg some hs)
    conv => lhs; unfold scan
    rw [if_neg (not_not.mpr rfl)]
    dsimp only
    rw [if_neg (not_not.mpr rfl), if_neg (not_not.mpr rfl), if_neg (not_not.mpr rfl), if_neg hne]

end

/-! ## The formatter reads what `scan` reads -/

/-- The access does not read the format behind its terminator. -/
def Access.InFormat (length : Nat) : Access → Prop
  | format i => i ≤ length
  | _        => True

section

variable {P : Access → Prop} {format : CString} {i : Nat}

/-- What stands at `i`, and whether it is the end. -/
theorem drop_content_cases (hi : i ≤ format.length) :
    (i = format.length ∧ format.byte i = 0 ∧ format.content.drop i = []) ∨
      (i < format.length ∧ format.byte i ≠ 0 ∧
        format.content.drop i = format.byte i :: format.content.drop (i + 1)) := by
  rcases Nat.eq_or_lt_of_le hi with rfl | hlt
  · exact Or.inl ⟨rfl, format.byte_length, format.drop_length_content⟩
  · exact Or.inr ⟨hlt, CString.byte_ne_zero hlt, CString.drop_content hlt⟩

/-- How a directive at `i` is read: its modifier and its letter, in order, and the `s` of `%llls`. -/
theorem directive_literal (h : format.byte i ≠ '%'.toUInt8) :
    (directive format i (format.byte i)).value = some (.literal (format.byte i), i) ∧
      (directive format i (format.byte i)).All P := by
  unfold directive
  rw [if_neg h]
  exact ⟨rfl, Traced.all_pure _⟩

theorem value_modifier_none (h : format.byte i ≠ 'l'.toUInt8) : (modifier format i).value = (false, i) := by
  unfold modifier
  rw [Traced.value_bind, value_readFormat, if_neg h]
  rfl

theorem value_modifier_l (h : format.byte i = 'l'.toUInt8) (h' : format.byte (i + 1) ≠ 'l'.toUInt8) :
    (modifier format i).value = (false, i + 1) := by
  unfold modifier
  rw [Traced.value_bind, value_readFormat, if_pos h, Traced.value_bind, value_readFormat, if_neg h']
  rfl

theorem value_modifier_ll (h : format.byte i = 'l'.toUInt8) (h' : format.byte (i + 1) = 'l'.toUInt8) :
    (modifier format i).value = (true, i + 2) := by
  unfold modifier
  rw [Traced.value_bind, value_readFormat, if_pos h, Traced.value_bind, value_readFormat, if_pos h']
  rfl

theorem value_letter {isLongLong : Bool} (h : format.byte i ≠ 'l'.toUInt8) :
    (letter format isLongLong i).value = (specifier isLongLong (format.byte i), i) := by
  unfold letter
  rw [Traced.value_bind, value_readFormat, if_neg h]
  rfl

theorem value_letter_wide {isLongLong : Bool} (h : format.byte i = 'l'.toUInt8) (hs : format.byte (i + 1) = 's'.toUInt8) :
    (letter format isLongLong i).value = (.wide, i + 1) := by
  unfold letter
  rw [Traced.value_bind, value_readFormat, if_pos h, Traced.value_bind, value_readFormat, if_pos hs]
  rfl

theorem value_letter_l {isLongLong : Bool} (h : format.byte i = 'l'.toUInt8) (hs : format.byte (i + 1) ≠ 's'.toUInt8) :
    (letter format isLongLong i).value = (.unknown 'l'.toUInt8, i) := by
  unfold letter
  rw [Traced.value_bind, value_readFormat, if_pos h, Traced.value_bind, value_readFormat, if_neg hs, h]
  rfl

theorem value_conversion (h : format.byte i ≠ 0) :
    (conversion format i).value =
      some (letter format (modifier format i).value.1 (modifier format i).value.2).value := by
  unfold conversion
  rw [Traced.value_bind, value_readFormat, if_neg h]
  rfl

/-- What the formatter finds at `i`, next to what `scan` finds there. -/
inductive Found (format : CString) (i : Nat) : Option (Directive × Nat) → Prop where
  | leave (h : scan (format.content.drop i) = ⟨[], false⟩) : Found format i none
  | next {d : Directive} {j : Nat} (hij : i ≤ j) (hj : j < format.length)
      (h : scan (format.content.drop i) = (scan (format.content.drop (j + 1))).cons d) : Found format i (some (d, j))
  | overrun (h : scan (format.content.drop i) = ⟨[], true⟩) : Found format i (some (.unknown 0, format.length))

/-- A conversion, read behind its `%`. -/
theorem conversion_spec (hi : i < format.length) (hc : format.byte i = '%'.toUInt8) :
    Found format i (conversion format (i + 1)).value ∧ (conversion format (i + 1)).All (Access.InFormat format.length) := by
  have hdrop : format.content.drop i = '%'.toUInt8 :: format.content.drop (i + 1) := hc ▸ CString.drop_content hi
  have hzero : (0 : UInt8) ≠ 'l'.toUInt8 := by decide
  rw [all_conversion, all_modifier, all_letter]
  rcases drop_content_cases (show i + 1 ≤ format.length by omega) with ⟨hend, h₁, hrest⟩ | ⟨hlt₁, h₁, hdrop₁⟩
  · -- a `%` at the end, the one case that is tested for
    have hvalue : (conversion format (i + 1)).value = none := by
      unfold conversion
      rw [Traced.value_bind, value_readFormat, if_pos h₁]
      rfl
    rw [hvalue]
    rw [hrest] at hdrop
    refine ⟨.leave ?_, show i + 1 ≤ format.length by omega, fun hne => absurd h₁ hne⟩
    rw [hdrop]
    rfl
  rw [value_conversion h₁]
  by_cases hl₁ : format.byte (i + 1) = 'l'.toUInt8
  swap
  · rw [value_modifier_none hl₁, value_letter hl₁]
    refine ⟨.next (by omega) hlt₁ ?_, hlt₁.le, fun _ => ⟨⟨hlt₁.le, fun h => absurd h hl₁⟩, hlt₁.le, fun h => absurd h hl₁⟩⟩
    rw [hdrop, hdrop₁]
    exact scan_conversion hl₁
  rw [hdrop₁, hl₁, show i + 1 + 1 = i + 2 from rfl] at hdrop
  rcases drop_content_cases (show i + 2 ≤ format.length by omega) with ⟨hend, h₂, hrest⟩ | ⟨hlt₂, h₂, hdrop₂⟩
  · -- the format ends behind `%l`
    have hl₂ : format.byte (i + 1 + 1) ≠ 'l'.toUInt8 := fun h => hzero (h₂.symm.trans h)
    rw [value_modifier_l hl₁ hl₂, value_letter hl₂]
    refine ⟨?_, hlt₁.le, fun _ => ⟨⟨hlt₁.le, fun _ => hlt₁⟩, hlt₁, fun h => absurd h hl₂⟩⟩
    have hspec : specifier false (format.byte (i + 1 + 1)) = .unknown 0 := by
      rw [show format.byte (i + 1 + 1) = 0 from h₂]
      rfl
    dsimp only
    rw [hspec, show i + 1 + 1 = format.length from hend]
    apply Found.overrun
    rw [hdrop, hrest]
    rfl
  by_cases hl₂ : format.byte (i + 2) = 'l'.toUInt8
  swap
  · rw [value_modifier_l hl₁ hl₂, value_letter hl₂]
    refine ⟨.next (by omega) hlt₂ ?_, hlt₁.le, fun _ => ⟨⟨hlt₁.le, fun _ => hlt₂.le⟩, hlt₂.le, fun h => absurd h hl₂⟩⟩
    rw [hdrop, hdrop₂]
    exact scan_l hl₂
  rw [hdrop₂, hl₂, show i + 2 + 1 = i + 3 from rfl] at hdrop
  rw [value_modifier_ll hl₁ hl₂]
  rcases drop_content_cases (show i + 3 ≤ format.length by omega) with ⟨hend, h₃, hrest⟩ | ⟨hlt₃, h₃, hdrop₃⟩
  · -- the format ends behind `%ll`
    have hl₃ : format.byte (i + 1 + 2) ≠ 'l'.toUInt8 := fun h => hzero (h₃.symm.trans h)
    rw [value_letter hl₃]
    refine ⟨?_, hlt₁.le, fun _ => ⟨⟨hlt₁.le, fun _ => hlt₂.le⟩, hlt₂, fun h => absurd h hl₃⟩⟩
    have hspec : specifier true (format.byte (i + 1 + 2)) = .unknown 0 := by
      rw [show format.byte (i + 1 + 2) = 0 from h₃]
      rfl
    dsimp only
    rw [hspec, show i + 1 + 2 = format.length from hend]
    apply Found.overrun
    rw [hdrop, hrest]
    rfl
  by_cases hl₃ : format.byte (i + 3) = 'l'.toUInt8
  swap
  · rw [value_letter hl₃]
    refine ⟨.next (by omega) hlt₃ ?_, hlt₁.le, fun _ => ⟨⟨hlt₁.le, fun _ => hlt₂.le⟩, hlt₃.le, fun h => absurd h hl₃⟩⟩
    rw [hdrop, hdrop₃]
    exact scan_ll hl₃
  rw [hdrop₃, hl₃, show i + 3 + 1 = i + 4 from rfl] at hdrop
  refine ⟨?_, hlt₁.le, fun _ => ⟨⟨hlt₁.le, fun _ => hlt₂.le⟩, hlt₃.le, fun _ => hlt₃⟩⟩
  by_cases hs : format.byte (i + 4) = 's'.toUInt8
  · have hne : format.byte (i + 4) ≠ 0 := by
      rw [hs]
      decide
    have hlt₄ : i + 4 < format.length := CString.lt_length_of_ne_zero hlt₃ hne
    rw [value_letter_wide hl₃ hs]
    refine .next (by omega) hlt₄ ?_
    rw [hdrop, CString.drop_content hlt₄, hs]
    exact scan_lll_s
  · rw [value_letter_l hl₃ hs]
    refine .next (by omega) hlt₃ ?_
    rw [hdrop]
    apply scan_lll
    -- the letter behind the third `l` is not `s`
    rcases drop_content_cases (show i + 4 ≤ format.length from hlt₃) with ⟨-, -, hrest⟩ | ⟨-, -, hdrop₄⟩
    · rw [hrest]
      simp
    · rw [hdrop₄, List.head?_cons]
      exact fun h => hs (Option.some.inj h)

theorem directive_spec (hi : i < format.length) :
    Found format i (directive format i (format.byte i)).value ∧
      (directive format i (format.byte i)).All (Access.InFormat format.length) := by
  by_cases hc : format.byte i = '%'.toUInt8
  · unfold directive
    rw [if_pos hc]
    exact conversion_spec hi hc
  · obtain ⟨hvalue, hall⟩ := directive_literal (P := Access.InFormat format.length) hc
    rw [hvalue]
    refine ⟨.next (Nat.le_refl i) hi ?_, hall⟩
    rw [CString.drop_content hi]
    exact scan_literal hc

end

/-! ## What is written -/

/-- What has been shown, and what waits. -/
def Output.text (o : Output) : List UInt16 := o.shown.flatten ++ o.outBuf

/-- There is a console, and no zero waits to end a string early. -/
structure Output.Ready (o : Output) : Prop where
  conOut  : o.conOut = true
  nonzero : 0 ∉ o.outBuf

/-- `us` has been added to the output, nothing of it dropped and nothing twice. -/
structure Emits (o o' : Output) (us : List UInt16) : Prop where
  ready : o'.Ready
  text  : o'.text = o.text ++ us

namespace Emits

variable {o o₁ o₂ : Output} {us vs : List UInt16}

theorem refl (h : o.Ready) : Emits o o [] := ⟨h, (List.append_nil o.text).symm⟩

theorem trans (h₁ : Emits o o₁ us) (h₂ : Emits o₁ o₂ vs) : Emits o o₂ (us ++ vs) :=
  ⟨h₂.ready, by rw [h₂.text, h₁.text, List.append_assoc]⟩

end Emits

section

variable {o : Output} {u : UInt16}

theorem emits_flushBuf (h : o.Ready) : Emits o (flushBuf o).value [] := by
  have hall : o.outBuf.takeWhile (· ≠ 0) = o.outBuf := by
    rw [List.takeWhile_eq_self_iff]
    intro u hu
    have hne : u ≠ 0 := fun hzero => h.nonzero (hzero ▸ hu)
    simpa using hne
  have hvalue : (flushBuf o).value = { print o o.outBuf with outBuf := [] } := rfl
  rw [hvalue]
  unfold print
  rw [if_pos h.conOut, hall]
  refine ⟨⟨h.conOut, List.not_mem_nil⟩, ?_⟩
  unfold Output.text
  simp

theorem emits_makeRoom (h : o.Ready) : Emits o (makeRoom o).value [] := by
  unfold makeRoom
  split
  · exact emits_flushBuf h
  · exact .refl h

theorem emits_put (h : o.Ready) (hu : u ≠ 0) : Emits o (put o u).value [u] := by
  refine ⟨⟨h.conOut, ?_⟩, (List.append_assoc _ _ _).symm⟩
  intro hmem
  rcases List.mem_append.mp hmem with hmem | hmem
  · exact h.nonzero hmem
  · exact hu (List.mem_singleton.mp hmem).symm

theorem emits_putAll {us : List UInt16} (h : o.Ready) (hus : 0 ∉ us) : Emits o (putAll o us).value us := by
  induction us generalizing o with
  | nil => exact .refl h
  | cons u us ih =>
    rw [List.mem_cons, not_or] at hus
    have hput := emits_put h (Ne.symm hus.1)
    exact hput.trans (ih hput.ready hus.2)

end

/-! ## Pieces that end -/

/-- From some fuel on the result is `o`. -/
def Settles (f : Nat → Traced Access (Option Output)) (o : Output) : Prop :=
  ∃ enough, ∀ fuel, enough ≤ fuel → (f fuel).value = some o

namespace Piece

/-- A string has an end. -/
def Ends : Piece → Prop
  | units _     => True
  | string unit => ∃ n, unit n = 0

/-- The units of the piece. -/
def Spells : Piece → List UInt16 → Prop
  | units us, w    => w = us ∧ 0 ∉ w
  | string unit, w => (∀ j (hj : j < w.length), unit j = w[j]) ∧ unit w.length = 0 ∧ 0 ∉ w

theorem Spells.unique {p : Piece} {w w' : List UInt16} (h : p.Spells w) (h' : p.Spells w') : w = w' := by
  cases p with
  | units us => exact h.1.trans h'.1.symm
  | string unit =>
    -- the shorter one would have its zero within the longer one
    have hle : ∀ {v v' : List UInt16}, (string unit).Spells v → (string unit).Spells v' → v'.length ≤ v.length := by
      intro v v' hv hv'
      by_contra hlt
      have hlt := Nat.not_le.mp hlt
      have hzero : v'[v.length] = 0 := (hv'.1 v.length hlt).symm.trans hv.2.1
      exact hv'.2.2 (hzero ▸ List.getElem_mem hlt)
    apply List.ext_getElem (Nat.le_antisymm (hle h' h) (hle h h'))
    intro j hj hj'
    rw [← h.1 j hj, ← h'.1 j hj']

theorem Ends.exists_spells {unit : Nat → UInt16} (h : (string unit).Ends) : ∃ w, (string unit).Spells w := by
  classical
  have hlength : ((List.range (Nat.find h)).map unit).length = Nat.find h := by
    rw [List.length_map, List.length_range]
  refine ⟨(List.range (Nat.find h)).map unit, ?_, ?_, ?_⟩
  · intro j hj
    rw [List.getElem_map, List.getElem_range]
  · rw [hlength]
    exact Nat.find_spec h
  · intro hmem
    obtain ⟨j, hj, heq⟩ := List.mem_map.mp hmem
    exact Nat.find_min h (List.mem_range.mp hj) heq

end Piece

/-- Copying a string emits what is left of it, flushes and all. -/
theorem putString_settles {unit : Nat → UInt16} {w : List UInt16} {n : Nat} (o : Output)
    (hunits : ∀ j (hj : j < w.length), unit (n + j) = w[j]) (hend : unit (n + w.length) = 0) (hzero : 0 ∉ w) :
    ∃ o', (∀ fuel, w.length < fuel → (putString unit fuel n o).value = some o') ∧ (o.Ready → Emits o o' w) := by
  induction w generalizing n o with
  | nil =>
    refine ⟨o, fun fuel hfuel => ?_, .refl⟩
    obtain ⟨fuel, rfl⟩ := Nat.exists_eq_add_of_lt hfuel
    unfold putString
    rw [if_pos (show unit n = 0 from hend)]
    rfl
  | cons u w ih =>
    rw [List.mem_cons, not_or] at hzero
    have hu : unit n = u := hunits 0 (Nat.zero_lt_succ _)
    have hrest : ∀ j (hj : j < w.length), unit (n + 1 + j) = w[j] := by
      intro j hj
      rw [show n + 1 + j = n + (j + 1) by omega, hunits (j + 1) (Nat.succ_lt_succ hj), List.getElem_cons_succ]
    rw [List.length_cons, show n + (w.length + 1) = n + 1 + w.length by omega] at hend
    obtain ⟨o', hvalue, hemits⟩ := ih (put (makeRoom o).value u).value hrest hend hzero.2
    refine ⟨o', fun fuel hfuel => ?_, fun hready => ?_⟩
    · rw [List.length_cons] at hfuel
      obtain ⟨fuel, rfl⟩ : ∃ f, fuel = f + 1 := ⟨fuel - 1, by omega⟩
      unfold putString
      rw [if_neg (by rw [hu]; exact Ne.symm hzero.1), Traced.value_bind, Traced.value_bind, hu]
      exact hvalue fuel (by omega)
    · -- the flush, the unit, and what comes behind it
      have hroom := emits_makeRoom hready
      have hput := emits_put hroom.ready (Ne.symm hzero.1)
      exact (hroom.trans hput).trans (hemits hput.ready)

/-- A piece that ends is written, and what it spells is emitted. -/
theorem write_settles {p : Piece} (h : p.Ends) (o : Output) :
    ∃ o', Settles (fun fuel => p.write fuel o) o' ∧ ∀ w, p.Spells w → o.Ready → Emits o o' w := by
  cases p with
  | units us =>
    refine ⟨(putAll o us).value, ⟨0, fun fuel _ => rfl⟩, fun w hw hready => ?_⟩
    obtain ⟨rfl, hzero⟩ := hw
    exact emits_putAll hready hzero
  | string unit =>
    obtain ⟨w, hw⟩ := h.exists_spells
    obtain ⟨o', hvalue, hemits⟩ := putString_settles (n := 0) o
      (fun j hj => by rw [Nat.zero_add]; exact hw.1 j hj) (by rw [Nat.zero_add]; exact hw.2.1) hw.2.2
    refine ⟨o', ⟨w.length + 1, hvalue⟩, fun w' hw' hready => ?_⟩
    rw [hw'.unique hw]
    exact hemits hready

/-! ## The loop writes the directives -/

/-- The string arguments that the directives take from slot `k` on have an end. -/
def Terminated (args : Arguments) : Nat → List Directive → Prop
  | _, []      => True
  | k, d :: ds => (d.piece args k).Ends ∧ Terminated args (k + d.arity) ds

/-- The directives spell `us`, with the arguments from slot `k` on. -/
def Writes (args : Arguments) : Nat → List Directive → List UInt16 → Prop
  | _, [], us      => us = []
  | k, d :: ds, us => ∃ w rest, (d.piece args k).Spells w ∧ Writes args (k + d.arity) ds rest ∧ us = w ++ rest

section

variable {format : CString} {args : Arguments}

/-- Until the format ends, which it does where a conversion may end, the loop emits what its directives spell. -/
theorem printLoop_settles {n i k : Nat} (hn : format.length - i < n) (hi : i ≤ format.length)
    (hends : Terminated args k (scan (format.content.drop i)).directives)
    (hover : (scan (format.content.drop i)).overrun = false) (o : Output) :
    ∃ o', Settles (fun fuel => printLoop format args fuel i k o) o' ∧
      ∀ us, Writes args k (scan (format.content.drop i)).directives us → o.Ready → Emits o o' us := by
  -- on what is left of the format: the index is past the directive after each turn
  induction n generalizing i k o with
  | zero => omega
  | succ n ih =>
    rcases drop_content_cases hi with ⟨-, hzero, hdrop⟩ | ⟨hlt, hne, -⟩
    · refine ⟨o, ⟨1, fun fuel hfuel => ?_⟩, fun us hus hready => ?_⟩
      · obtain ⟨fuel, rfl⟩ : ∃ f, fuel = f + 1 := ⟨fuel - 1, by omega⟩
        exact printLoop_end hzero
      · rw [hdrop] at hus
        rw [show us = [] from hus]
        exact .refl hready
    have hfound := (directive_spec hlt).1
    cases hd : (directive format i (format.byte i)).value with
    | none =>
      -- a `%` at the end of the format
      rw [hd] at hfound
      refine ⟨(makeRoom o).value, ⟨1, fun fuel hfuel => ?_⟩, fun us hus hready => ?_⟩
      · obtain ⟨fuel, rfl⟩ : ∃ f, fuel = f + 1 := ⟨fuel - 1, by omega⟩
        exact printLoop_break hne hd
      · cases hfound with
        | leave h =>
          rw [h] at hus
          rw [show us = [] from hus]
          exact emits_makeRoom hready
    | some d =>
      rw [hd] at hfound
      cases hfound with
      | overrun h =>
        rw [h] at hover
        cases hover
      | @next d j hij hj h =>
        -- enough fuel for the piece, and enough for the rest
        rw [h] at hends hover
        obtain ⟨o₁, ⟨f₁, hwrite⟩, hpiece⟩ := write_settles hends.1 (makeRoom o).value
        obtain ⟨o', ⟨f₂, hloop⟩, hemits⟩ := ih (by omega) hj hends.2 hover o₁
        refine ⟨o', ⟨max f₁ f₂ + 1, fun fuel hfuel => ?_⟩, fun us hus hready => ?_⟩
        · obtain ⟨fuel, rfl⟩ : ∃ f, fuel = f + 1 := ⟨fuel - 1, by omega⟩
          exact (printLoop_directive hne hd (hwrite fuel (by omega))).trans (hloop fuel (by omega))
        · rw [h] at hus
          obtain ⟨w, rest, hw, hrest, rfl⟩ := hus
          have hroom := emits_makeRoom hready
          have hdirective := hpiece w hw hroom.ready
          exact (hroom.trans hdirective).trans (hemits rest hrest hdirective.ready)

/-- **The formatter** shows what the directives of the format spell. -/
theorem printFormattedValist_settles (hends : Terminated args 0 (scan format.content).directives)
    (hover : (scan format.content).overrun = false) (conOut : Bool) :
    ∃ o, Settles (printFormattedValist conOut format args) o ∧
      ∀ us, Writes args 0 (scan format.content).directives us → conOut = true → o.shown.flatten = us := by
  obtain ⟨o, ⟨enough, hloop⟩, hemits⟩ := printLoop_settles (Nat.lt_succ_self _) (Nat.zero_le _) hends hover { conOut }
  -- the units that still wait are shown last
  let last := if o.outBuf.length > 0 then (flushBuf o).value else o
  refine ⟨last, ⟨enough, fun fuel hfuel => ?_⟩, fun us hus hcon => ?_⟩
  · unfold printFormattedValist
    rw [Traced.value_andThen (hloop fuel hfuel)]
    show (if o.outBuf.length > 0 then _ else _ : Traced Access (Option Output)).value =
      some (if o.outBuf.length > 0 then (flushBuf o).value else o)
    split <;> rfl
  · have hloop := hemits us hus ⟨hcon, List.not_mem_nil⟩
    have htext : o.text = us := hloop.text
    show (if o.outBuf.length > 0 then (flushBuf o).value else o).shown.flatten = us
    by_cases hwait : o.outBuf.length > 0
    · rw [if_pos hwait, ← htext, ← List.append_nil o.text, ← (emits_flushBuf hloop.ready).text]
      exact (List.append_nil _).symm
    · have hempty : o.outBuf = [] := List.length_eq_zero_iff.mp (by omega)
      rw [if_neg hwait, ← htext]
      unfold Output.text
      rw [hempty, List.append_nil]

/-! ## Reading ends where the format does -/

theorem all_inFormat_makeRoom (length : Nat) (o : Output) : (makeRoom o).All (Access.InFormat length) := by
  unfold makeRoom
  split
  · unfold flushBuf
    rw [Traced.all_bind, Traced.all_emit]
    exact ⟨trivial, Traced.all_pure _⟩
  · exact Traced.all_pure o

theorem all_inFormat_putAll (length : Nat) (us : List UInt16) (o : Output) :
    (putAll o us).All (Access.InFormat length) := by
  induction us generalizing o with
  | nil => exact Traced.all_pure o
  | cons u us ih =>
    unfold putAll
    rw [Traced.all_bind, all_put]
    exact ⟨trivial, ih _⟩

theorem all_inFormat_putString (length : Nat) (unit : Nat → UInt16) (fuel n : Nat) (o : Output) :
    (putString unit fuel n o).All (Access.InFormat length) := by
  induction fuel generalizing n o with
  | zero => exact Traced.all_pure none
  | succ fuel ih =>
    unfold putString
    split
    · exact Traced.all_pure _
    · rw [Traced.all_bind, Traced.all_bind, all_put]
      exact ⟨all_inFormat_makeRoom length o, trivial, ih _ _⟩

theorem all_inFormat_write (length fuel : Nat) (p : Piece) (o : Output) :
    (p.write fuel o).All (Access.InFormat length) := by
  cases p with
  | units us =>
    unfold Piece.write
    rw [Traced.all_bind]
    exact ⟨all_inFormat_putAll length us o, Traced.all_pure _⟩
  | string unit => exact all_inFormat_putString length unit fuel 0 o

theorem all_inFormat_printLoop {fuel i k : Nat} (hi : i ≤ format.length)
    (hover : (scan (format.content.drop i)).overrun = false) (o : Output) :
    (printLoop format args fuel i k o).All (Access.InFormat format.length) := by
  induction fuel generalizing i k o with
  | zero => exact Traced.all_pure none
  | succ fuel ih =>
    rw [all_printLoop]
    refine ⟨hi, fun hne => ?_⟩
    have hlt := CString.lt_length_of_ne_zero hi hne
    obtain ⟨hfound, hread⟩ := directive_spec hlt
    refine ⟨all_inFormat_makeRoom _ o, hread, fun d hd => ⟨all_inFormat_write _ _ _ _, fun o' _ => ?_⟩⟩
    rw [hd] at hfound
    cases hfound with
    | overrun h =>
      rw [h] at hover
      cases hover
    | next hij hj h =>
      rw [h] at hover
      exact ih hj hover o'

/-- A format that ends behind `%l` or `%ll` is read on. -/
theorem printLoop_overrun {n i k : Nat} (hn : format.length - i < n) (hi : i ≤ format.length)
    (hends : Terminated args k (scan (format.content.drop i)).directives)
    (hover : (scan (format.content.drop i)).overrun = true) (o : Output) :
    ∃ fuel, ∀ more, ¬ (printLoop format args (fuel + more) i k o).All (Access.InFormat format.length) := by
  induction n generalizing i k o with
  | zero => omega
  | succ n ih =>
    rcases drop_content_cases hi with ⟨-, -, hdrop⟩ | ⟨hlt, hne, -⟩
    · rw [hdrop] at hover
      cases hover
    have hfound := (directive_spec hlt).1
    cases hd : (directive format i (format.byte i)).value with
    | none =>
      rw [hd] at hfound
      cases hfound with
      | leave h =>
        rw [h] at hover
        cases hover
    | some d =>
      rw [hd] at hfound
      cases hfound with
      | overrun h =>
        -- the terminator is the letter, and the loop goes on behind it
        refine ⟨2, fun more hall => ?_⟩
        rw [show 2 + more = more + 1 + 1 by omega, all_printLoop] at hall
        have hnext := ((hall.2 hne).2.2 _ hd).2 _ rfl
        rw [all_printLoop] at hnext
        exact absurd hnext.1 (Nat.not_succ_le_self _)
      | @next d j hij hj h =>
        rw [h] at hends hover
        obtain ⟨o₁, ⟨f₁, hwrite⟩, -⟩ := write_settles hends.1 (makeRoom o).value
        obtain ⟨f₂, hloop⟩ := ih (by omega) hj hends.2 hover o₁
        refine ⟨max f₁ f₂ + 1, fun more hall => ?_⟩
        rw [show max f₁ f₂ + 1 + more = max f₁ f₂ + more + 1 by omega, all_printLoop] at hall
        have hnext := ((hall.2 hne).2.2 _ hd).2 o₁ (hwrite _ (by omega))
        rw [show max f₁ f₂ + more = f₂ + (max f₁ f₂ - f₂ + more) by omega] at hnext
        exact hloop _ hnext

/-- No byte of the format is read behind its terminator, and the formatter is done after finitely many turns. -/
def StaysInFormat (conOut : Bool) (format : CString) (args : Arguments) : Prop :=
  (∀ fuel, (printFormattedValist conOut format args fuel).All (Access.InFormat format.length)) ∧
    ∃ o, Settles (printFormattedValist conOut format args) o

theorem not_staysInFormat_of_overrun (conOut : Bool) (hends : Terminated args 0 (scan format.content).directives)
    (hover : (scan format.content).overrun = true) : ¬ StaysInFormat conOut format args := by
  rintro ⟨hall, -⟩
  obtain ⟨fuel, hread⟩ := printLoop_overrun (Nat.lt_succ_self _) (Nat.zero_le _) hends hover { conOut }
  have hloop := hall (fuel + 0)
  unfold printFormattedValist at hloop
  rw [Traced.all_andThen_iff] at hloop
  exact hread 0 hloop.1

/-- **Exactly the formats that end behind `%l` or `%ll`** are read behind their end. -/
theorem staysInFormat_iff (conOut : Bool) (hends : Terminated args 0 (scan format.content).directives) :
    StaysInFormat conOut format args ↔ (scan format.content).overrun = false := by
  constructor
  · intro hstays
    by_contra hover
    exact not_staysInFormat_of_overrun conOut hends (Bool.eq_true_of_not_eq_false hover) hstays
  · intro hover
    obtain ⟨o, hsettles, -⟩ := printFormattedValist_settles hends hover conOut
    refine ⟨fun fuel => ?_, o, hsettles⟩
    unfold printFormattedValist
    refine Traced.all_andThen (all_inFormat_printLoop (Nat.zero_le _) hover _) fun o _ => ?_
    split
    · unfold flushBuf
      rw [Traced.all_bind, Traced.all_bind, Traced.all_emit]
      exact ⟨⟨trivial, Traced.all_pure _⟩, Traced.all_pure _⟩
    · exact Traced.all_pure _

end

/-- `"%s%l"` with a null pointer. -/
theorem staysInFormat_iff_percent_l :
    StaysInFormat true (.ofBytes ['%'.toUInt8, 's'.toUInt8, '%'.toUInt8, 'l'.toUInt8]) ⟨fun _ => 0, fun _ => 0⟩ ↔
      (scan (CString.ofBytes ['%'.toUInt8, 's'.toUInt8, '%'.toUInt8, 'l'.toUInt8]).content).overrun = false := by
  have hcontent : (CString.ofBytes ['%'.toUInt8, 's'.toUInt8, '%'.toUInt8, 'l'.toUInt8]).content =
      ['%'.toUInt8, 's'.toUInt8, '%'.toUInt8, 'l'.toUInt8] :=
    CString.content_ofBytes (by decide)
  apply staysInFormat_iff
  rw [hcontent]
  exact ⟨⟨6, rfl⟩, trivial⟩

/-- `"%l"`. -/
theorem not_staysInFormat :
    ¬ ∀ conOut format args, Terminated args 0 (scan format.content).directives → StaysInFormat conOut format args := by
  intro h
  have hcontent : (CString.ofBytes ['%'.toUInt8, 'l'.toUInt8]).content = ['%'.toUInt8, 'l'.toUInt8] :=
    CString.content_ofBytes (by decide)
  have hends : Terminated ⟨fun _ => 0, fun _ => 0⟩ 0
      (scan (CString.ofBytes ['%'.toUInt8, 'l'.toUInt8]).content).directives := by
    rw [hcontent]
    trivial
  refine not_staysInFormat_of_overrun true hends ?_ (h true _ _ hends)
  rw [hcontent]
  rfl

end EFIConsole
end UefiBoot
