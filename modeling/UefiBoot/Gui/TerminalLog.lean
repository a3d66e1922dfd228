import UefiBoot.Lib.Run
import UefiBoot.Lib.Signed
import UefiBoot.Lib.Window
import UefiBoot.Gui.AnsiLine
import UefiBoot.Gui.Dispatch

/-!
# `Gui.TerminalLog` — the transcript and the history of the terminal over a run

The transcript and the history are logs that keep their last 64 and their last 8 entries. Two positions go with them:
the scroll offset, which append and wheel keep at most 12 lines below the top (`LogInvariant.scroll`), and the recall
cursor, which stands behind the newest command after a record and moves one command back with each recall
(`recall_older`). Before the first record it is -1, and then the history is empty.

`sinceClear` and `commands` say what the logs are about, without the capacities: the lines since the last clear and the
commands that were not empty. `terminal_logs` is the relation between the two.
-/

namespace UefiBoot
namespace Gui

open Desktop (scrollTerminal)

/-- The directions that `TerminalRecallHistory` is called with. -/
inductive Recall where
  | older
  | newer
  deriving DecidableEq

def Recall.delta : Recall → Int32
  | older => -1
  | newer => 1

/-- What happens to the logs of the terminal. The wheel reports four bits. -/
inductive LogOp where
  | append (line : Text) (plain : (0x1B : UInt8) ∉ line) (color : UInt32)
  | clear
  | record (command : Text)
  | recallHistory (way : Recall)
  | wheel (delta : Int32) (range : -8 ≤ delta ∧ delta ≤ 7)

def logStep (t : Terminal) : LogOp → Terminal
  | .append line _ color => t.terminalAppendLine line color
  | .clear               => t.terminalClear
  | .record command      => t.terminalRecordHistory command
  | .recallHistory way   => (t.terminalRecallHistory way.delta).2
  | .wheel delta _       => scrollTerminal t delta

/-! ## What the logs are about -/

/-- The lines since the last clear, after one more step. -/
def LogOp.appendTo (lines : List TerminalLine) : LogOp → List TerminalLine
  | append line _ color => lines ++ [⟨line, color⟩]
  | clear               => []
  | _                   => lines

/-- The command that a step records. -/
def LogOp.recorded : LogOp → Option Text
  | record command => if command.isEmpty then none else some command
  | _              => none

/-- The lines that were appended since the last clear. -/
def sinceClear (ops : List LogOp) : List TerminalLine := ops.foldl LogOp.appendTo []

/-- The commands that were recorded, without the empty ones. -/
def commands (ops : List LogOp) : List Text := ops.filterMap LogOp.recorded

/-- What the transcript keeps of a line. -/
def cutLine (line : TerminalLine) : TerminalLine := { line with text := line.text.take 95 }

/-- The `n`-th newest entry of a history, counted from 1; the oldest once it is exhausted. -/
def nthNewest (history : List Text) (n : Nat) : Option Text :=
  if n ≤ history.length then history.reverse[n - 1]? else history.head?

/-- The terminal after some lines since the last clear and some commands. -/
structure LogInvariant (lines : List TerminalLine) (commands : List Text) (t : Terminal) : Prop where
  transcript : t.lines = (lines.map cutLine).rtake kMaxTerminalLines
  history    : t.history = (commands.map (·.take 63)).rtake kTerminalHistoryEntries
  cursor     : -1 ≤ t.historyCursor.toInt ∧ t.historyCursor.toInt ≤ t.history.length
  scroll     : 0 ≤ t.scrollOffset.toInt ∧ t.scrollOffset.toInt ≤ (t.lines.length - kVisibleTerminalLines : Nat)

variable {t : Terminal} {lines : List TerminalLine} {history : List Text}

theorem LogInvariant.lines_le (h : LogInvariant lines history t) : t.lines.length ≤ 64 := by
  rw [h.transcript, Lib.Window.length_rtake]
  exact Nat.min_le_left 64 _

theorem LogInvariant.history_le (h : LogInvariant lines history t) : t.history.length ≤ 8 := by
  rw [h.history, Lib.Window.length_rtake]
  exact Nat.min_le_left 8 _

/-! ## Scrolling -/

theorem maxScroll_toInt (h : t.lines.length ≤ 64) :
    t.maxScroll.toInt = (t.lines.length - kVisibleTerminalLines : Nat) := by
  have hvisible : kVisibleTerminalLines = 12 := rfl
  unfold Terminal.maxScroll
  split
  · rw [Int32.toInt_ofNat_of_lt (by omega)]
  · rw [show t.lines.length - kVisibleTerminalLines = 0 by omega]
    rfl

/-- An append on a line without `ESC`. -/
theorem terminalAppendLine_plain (t : Terminal) {line : Text} (plain : (0x1B : UInt8) ∉ line) (color : UInt32) :
    t.terminalAppendLine line color =
      let t : Terminal := { t with lines := Lib.Window.push kMaxTerminalLines t.lines ⟨line.take 95, color⟩ }
      if t.scrollOffset > t.maxScroll then { t with scrollOffset := t.maxScroll } else t := by
  have hparse : terminalParseAnsi kTerminalLineLength line.length line [] color false =
      ((terminalParseAnsi kTerminalLineLength line.length line [] color false).1, color, false) :=
    Prod.ext rfl (terminalParseAnsi_plain plain)
  unfold Terminal.terminalAppendLine
  rw [hparse]
  rfl

/-- The wheel moves by less than the transcript is long, so the sum stays far from the ends of 32 bits. -/
theorem scrollTerminal_range {delta : Int32} (hlines : t.lines.length ≤ 64) (hrange : -8 ≤ delta ∧ delta ≤ 7)
    (h : 0 ≤ t.scrollOffset.toInt ∧ t.scrollOffset.toInt ≤ (t.lines.length - kVisibleTerminalLines : Nat)) :
    0 ≤ (scrollTerminal t delta).scrollOffset.toInt ∧
      (scrollTerminal t delta).scrollOffset.toInt ≤ (t.lines.length - kVisibleTerminalLines : Nat) := by
  have hmax := maxScroll_toInt hlines
  have hlow : (-8 : Int32).toInt = -8 := rfl
  have hhigh : (7 : Int32).toInt = 7 := rfl
  have hzero : (0 : Int32).toInt = 0 := rfl
  have hvisible : kVisibleTerminalLines = 12 := rfl
  rw [Int32.le_iff_toInt_le, Int32.le_iff_toInt_le, hlow, hhigh] at hrange
  have hsum := Lib.toInt_add_of_range (a := t.scrollOffset) (b := delta) (by omega) (by omega)
  unfold scrollTerminal
  dsimp only
  simp only [gt_iff_lt, Int32.lt_iff_toInt_lt]
  split_ifs <;> omega

/-! ## Recalling -/

/-- The cursor of a recall, before it is brought back into the history. -/
theorem recall_sum (way : Recall) (hlength : t.history.length ≤ 8)
    (hcursor : -1 ≤ t.historyCursor.toInt ∧ t.historyCursor.toInt ≤ t.history.length) :
    ((if t.historyCursor < 0 then Int32.ofNat t.history.length else t.historyCursor) + way.delta).toInt =
      (if t.historyCursor.toInt < 0 then (t.history.length : Int) else t.historyCursor.toInt) + way.delta.toInt := by
  have hzero : (0 : Int32).toInt = 0 := rfl
  have hcount : (Int32.ofNat t.history.length).toInt = t.history.length := Int32.toInt_ofNat_of_lt (by omega)
  have hdelta : way.delta.toInt = -1 ∨ way.delta.toInt = 1 := by cases way <;> decide
  have hneg : t.historyCursor < 0 ↔ t.historyCursor.toInt < 0 := Int32.lt_iff_toInt_lt
  by_cases h : t.historyCursor < 0
  · rw [if_pos h, if_pos (hneg.mp h), Lib.toInt_add_of_range (by omega) (by omega), hcount]
  · rw [if_neg h, if_neg (fun h' => h (hneg.mpr h')), Lib.toInt_add_of_range (by omega) (by omega)]

/-- **A recall** moves the cursor by one command, from behind the newest if there was none before, and stays inside
    the history; the command that it returns is the one under the cursor. -/
theorem recall_spec (way : Recall) (hne : t.history ≠ []) (hlength : t.history.length ≤ 8)
    (hcursor : -1 ≤ t.historyCursor.toInt ∧ t.historyCursor.toInt ≤ t.history.length) :
    ∃ index < t.history.length,
      (index : Int) = min (max ((if t.historyCursor.toInt < 0 then (t.history.length : Int) else t.historyCursor.toInt) +
        way.delta.toInt) 0) (t.history.length - 1 : Nat) ∧
      (t.terminalRecallHistory way.delta).2 = { t with historyCursor := Int32.ofNat index } ∧
      t.history[index]? = some (t.terminalRecallHistory way.delta).1 := by
  have hpos : 0 < t.history.length := List.length_pos_iff.mpr hne
  have hzero : (0 : Int32).toInt = 0 := rfl
  have hone : (1 : Int32).toInt = 1 := rfl
  have hcount : (Int32.ofNat t.history.length).toInt = t.history.length := Int32.toInt_ofNat_of_lt (by omega)
  have hlast := Lib.toInt_sub_of_range (a := Int32.ofNat t.history.length) (b := 1) (by omega) (by omega)
  have hsum := recall_sum way hlength hcursor
  have hnonempty : ¬ t.history.length = 0 := by omega
  unfold Terminal.terminalRecallHistory
  rw [if_neg hnonempty]
  dsimp only
  generalize (if t.historyCursor < 0 then Int32.ofNat t.history.length else t.historyCursor) + way.delta = sum at hsum ⊢
  rw [← hsum]
  -- the cursor as the code brings it back into the history
  have hclamp : ∃ index < t.history.length,
      (index : Int) = min (max sum.toInt 0) (t.history.length - 1 : Nat) ∧
      (if (if sum < 0 then 0 else sum) ≥ Int32.ofNat t.history.length then Int32.ofNat t.history.length - 1
        else if sum < 0 then 0 else sum) = Int32.ofNat index := by
    refine ⟨(min (max sum.toInt 0) (t.history.length - 1 : Nat)).toNat, by omega, by omega, ?_⟩
    apply Int32.toInt_inj.mp
    rw [Int32.toInt_ofNat_of_lt (by omega)]
    simp only [ge_iff_le, Int32.lt_iff_toInt_lt, Int32.le_iff_toInt_le]
    split_ifs <;> omega
  obtain ⟨index, hlt, hindex, hcursor'⟩ := hclamp
  have hnat : (Int32.ofNat index).toInt.toNat = index := by
    rw [Int32.toInt_ofNat_of_lt (by omega), Int.toNat_natCast]
  refine ⟨index, hlt, hindex, by rw [hcursor'], ?_⟩
  rw [hcursor', hnat, List.getD_eq_getElem?_getD, List.getElem?_eq_getElem hlt, Option.getD_some]

/-- Recalls of older commands after a record: the cursor counts back from behind the newest. -/
theorem recall_older (n : Nat) (hne : t.history ≠ []) (hlength : t.history.length ≤ 8)
    (hcursor : t.historyCursor.toInt = t.history.length) :
    (Lib.run logStep t (List.replicate n (.recallHistory .older))).history = t.history ∧
      (Lib.run logStep t (List.replicate n (.recallHistory .older))).historyCursor.toInt = (t.history.length - n : Nat) := by
  induction n with
  | zero => exact ⟨rfl, hcursor⟩
  | succ n ih =>
    obtain ⟨hhistory, hn⟩ := ih
    rw [List.replicate_succ', Lib.run_append, Lib.run_cons, Lib.run_nil]
    generalize Lib.run logStep t (List.replicate n (.recallHistory .older)) = t' at hhistory hn ⊢
    rw [← hhistory] at hne hlength hn ⊢
    obtain ⟨index, hlt, hindex, hrecall, -⟩ := recall_spec .older hne hlength (by omega)
    have holder : Recall.older.delta.toInt = -1 := rfl
    rw [hn, if_neg (by omega), holder] at hindex
    show (t'.terminalRecallHistory Recall.older.delta).2.history = _ ∧
      (t'.terminalRecallHistory Recall.older.delta).2.historyCursor.toInt = _
    rw [hrecall]
    refine ⟨rfl, ?_⟩
    dsimp only
    rw [Int32.toInt_ofNat_of_lt (by omega)]
    omega

theorem nthNewest_eq {history : List Text} (hne : history ≠ []) (n : Nat) :
    nthNewest history (n + 1) = history[history.length - (n + 1)]? := by
  have hpos : 0 < history.length := List.length_pos_iff.mpr hne
  unfold nthNewest
  by_cases h : n + 1 ≤ history.length
  · rw [if_pos h, List.getElem?_reverse (by omega)]
    congr 1
    omega
  · rw [if_neg h, show history.length - (n + 1) = 0 by omega, List.head?_eq_getElem?]

/-! ## Runs -/

/-- A record of a command that is not empty: the cursor is behind it. -/
theorem terminalRecordHistory_eq (t : Terminal) {command : Text} (h : command ≠ []) :
    t.terminalRecordHistory command =
      { t with
        history := Lib.Window.push kTerminalHistoryEntries t.history (command.take 63)
        historyCursor := Int32.ofNat (Lib.Window.push kTerminalHistoryEntries t.history (command.take 63)).length } := by
  cases command with
  | nil => exact absurd rfl h
  | cons c rest => rfl

/-- What every step keeps. -/
theorem logStep_invariant (op : LogOp) (h : LogInvariant lines history t) :
    LogInvariant (op.appendTo lines) (history ++ op.recorded.toList) (logStep t op) := by
  have hlines := h.lines_le
  have hhistory := h.history_le
  have hsame : (history ++ (none : Option Text).toList) = history := List.append_nil history
  cases op with
  | append line plain color =>
    have hpush : Lib.Window.push kMaxTerminalLines t.lines ⟨line.take 95, color⟩ =
        ((lines ++ [(⟨line, color⟩ : TerminalLine)]).map cutLine).rtake kMaxTerminalLines := by
      rw [h.transcript, Lib.Window.push_rtake (by decide), List.map_append]
      rfl
    have hgrows := Lib.Window.le_length_push kMaxTerminalLines t.lines ⟨line.take 95, color⟩
    have hfits := Lib.Window.length_push_le (by decide) hlines (⟨line.take 95, color⟩ : TerminalLine)
    show LogInvariant (lines ++ [⟨line, color⟩]) (history ++ (none : Option Text).toList)
      (t.terminalAppendLine line color)
    rw [hsame, terminalAppendLine_plain t plain]
    have hmax := maxScroll_toInt
      (t := { t with lines := Lib.Window.push kMaxTerminalLines t.lines ⟨line.take 95, color⟩ }) hfits
    dsimp only at hmax ⊢
    split
    · exact ⟨hpush, h.history, h.cursor, by dsimp only; omega⟩
    · rename_i hkept
      rw [gt_iff_lt, Int32.lt_iff_toInt_lt] at hkept
      exact ⟨hpush, h.history, h.cursor, by have := h.scroll; dsimp only at hkept ⊢; omega⟩
  | clear =>
    show LogInvariant [] (history ++ (none : Option Text).toList) t.terminalClear
    rw [hsame]
    exact ⟨rfl, h.history, h.cursor, Int.le_refl 0, Int.le_refl 0⟩
  | record command =>
    cases command with
    | nil =>
      show LogInvariant lines (history ++ (none : Option Text).toList) t
      rw [hsame]
      exact h
    | cons c rest =>
      show LogInvariant lines (history ++ [c :: rest]) (t.terminalRecordHistory (c :: rest))
      rw [terminalRecordHistory_eq t (List.cons_ne_nil c rest)]
      have hpush : Lib.Window.push kTerminalHistoryEntries t.history ((c :: rest).take 63) =
          ((history ++ [c :: rest]).map (·.take 63)).rtake kTerminalHistoryEntries := by
        rw [h.history, Lib.Window.push_rtake (by decide), List.map_append]
        rfl
      refine ⟨h.transcript, hpush, ?_, h.scroll⟩
      have hle : (Lib.Window.push kTerminalHistoryEntries t.history ((c :: rest).take 63)).length ≤ 8 := by
        rw [hpush, Lib.Window.length_rtake]
        exact Nat.min_le_left 8 _
      dsimp only
      rw [Int32.toInt_ofNat_of_lt (by omega)]
      omega
  | recallHistory way =>
    show LogInvariant lines (history ++ (none : Option Text).toList) (t.terminalRecallHistory way.delta).2
    rw [hsame]
    by_cases hne : t.history = []
    · have hnone : (t.terminalRecallHistory way.delta).2 = t := by
        unfold Terminal.terminalRecallHistory
        rw [if_pos (by rw [hne]; rfl)]
      rw [hnone]
      exact h
    · obtain ⟨index, hlt, -, hrecall, -⟩ := recall_spec way hne hhistory h.cursor
      rw [hrecall]
      refine ⟨h.transcript, h.history, ?_, h.scroll⟩
      dsimp only
      rw [Int32.toInt_ofNat_of_lt (by omega)]
      omega
  | wheel delta range =>
    show LogInvariant lines (history ++ (none : Option Text).toList) (scrollTerminal t delta)
    rw [hsame]
    exact ⟨h.transcript, h.history, h.cursor, scrollTerminal_range hlines range h.scroll⟩

/-- What every run keeps. -/
theorem run_logInvariant (ops : List LogOp) (h : LogInvariant lines history t) :
    LogInvariant (ops.foldl LogOp.appendTo lines) (history ++ commands ops) (Lib.run logStep t ops) := by
  induction ops generalizing lines history t with
  | nil =>
    show LogInvariant lines (history ++ []) t
    rw [List.append_nil]
    exact h
  | cons op rest ih =>
    have hrest := ih (logStep_invariant op h)
    have hcommands : commands (op :: rest) = op.recorded.toList ++ commands rest := by
      unfold commands
      cases hop : op.recorded with
      | none => rw [List.filterMap_cons_none hop]; rfl
      | some command => rw [List.filterMap_cons_some hop]; rfl
    rw [List.append_assoc, ← hcommands] at hrest
    exact hrest

theorem logInvariant_init : LogInvariant [] [] {} :=
  ⟨rfl, rfl, ⟨by decide, by decide⟩, Int.le_refl 0, Int.le_refl 0⟩

/-- **The logs of the terminal.** After every run the transcript is the end of what was appended since the last clear
    and the history the end of what was recorded, a recall returns the entry of the history that its cursor stands on,
    the `n`-th recall of an older command after a record returns the `n`-th newest one, and the scroll offset is one
    of the transcript. -/
theorem terminal_logs (ops : List LogOp) :
    let t := Lib.run logStep {} ops
    t.lines = ((sinceClear ops).rtake 64).map cutLine ∧
      t.history = ((commands ops).rtake 8).map (·.take 63) ∧
      (∀ way : Recall, t.history ≠ [] →
        0 ≤ (t.terminalRecallHistory way.delta).2.historyCursor.toInt ∧
        (t.terminalRecallHistory way.delta).2.historyCursor.toInt < t.history.length ∧
        t.history[(t.terminalRecallHistory way.delta).2.historyCursor.toInt.toNat]? =
          some (t.terminalRecallHistory way.delta).1) ∧
      (∀ (command : Text) (n : Nat), command ≠ [] →
        let t' := Lib.run logStep t (.record command :: List.replicate n (.recallHistory .older))
        nthNewest t'.history (n + 1) = some (t'.terminalRecallHistory Recall.older.delta).1) ∧
      0 ≤ t.scrollOffset.toInt ∧ t.scrollOffset.toInt ≤ max 0 ((t.lines.length : Int) - 12) := by
  intro t
  have h : LogInvariant (sinceClear ops) (commands ops) t := run_logInvariant ops logInvariant_init
  refine ⟨?_, ?_, fun way hne => ?_, fun command n hcommand => ?_, h.scroll.1, ?_⟩
  · rw [h.transcript, Lib.Window.map_rtake]
  · rw [h.history, Lib.Window.map_rtake]
  · obtain ⟨index, hlt, -, hrecall, hentry⟩ := recall_spec way hne h.history_le h.cursor
    have hcursor : (t.terminalRecallHistory way.delta).2.historyCursor.toInt = index := by
      rw [hrecall]
      exact Int32.toInt_ofNat_of_lt (by have := h.history_le; omega)
    rw [hcursor, Int.toNat_natCast]
    exact ⟨by omega, by omega, hentry⟩
  · have hrecord := logStep_invariant (.record command) h
    have hstep : logStep t (.record command) = _ := terminalRecordHistory_eq t hcommand
    have hne : (logStep t (.record command)).history ≠ [] := by
      rw [hstep]
      exact List.append_ne_nil_of_right_ne_nil _ (List.cons_ne_nil _ _)
    have hbehind : (logStep t (.record command)).historyCursor.toInt = (logStep t (.record command)).history.length := by
      have hle := hrecord.history_le
      rw [hstep] at hle ⊢
      exact Int32.toInt_ofNat_of_lt (by dsimp only at hle ⊢; omega)
    obtain ⟨hhistory, hcursor⟩ := recall_older n hne hrecord.history_le hbehind
    intro t'
    have hrecorded : t' = Lib.run logStep (logStep t (.record command)) (List.replicate n (.recallHistory .older)) := rfl
    rw [← hrecorded] at hhistory hcursor
    have hpos : 0 < t'.history.length := by
      rw [hhistory]
      exact List.length_pos_iff.mpr hne
    rw [← hhistory] at hcursor
    have hle : t'.history.length ≤ 8 := hhistory ▸ hrecord.history_le
    obtain ⟨index, hlt, hindex, -, hentry⟩ := recall_spec .older (List.length_pos_iff.mp hpos) hle (by omega)
    have holder : Recall.older.delta.toInt = -1 := rfl
    rw [hcursor, if_neg (by omega), holder] at hindex
    rw [nthNewest_eq (List.length_pos_iff.mp hpos), ← hentry]
    congr 1
    omega
  · have hscroll := h.scroll.2
    have hvisible : kVisibleTerminalLines = 12 := rfl
    omega

end Gui
end UefiBoot
