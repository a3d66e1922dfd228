import UefiBoot.Gui.Terminal

/-!
# `Gui.Script` — a script is its commands, one after the other

`ExecuteTerminalScript` goes through the script a character at a time and gathers the next command in a buffer of 64
bytes. A segment is what stands between two semicolons; what the loop has in its buffer is the beginning of the
current segment, as much of it as fits (`scriptLoop_eq`). The rest of a longer segment is dropped, so a script is
the sequence of its segments cut to 63 characters, and in full only when all of them are that short
(`executeTerminalScript_short`).
-/

namespace UefiBoot
namespace Gui

/-- What stands between the semicolons of a script, without the segments that are empty. -/
def scriptSegments (script : Text) : List Text := (script.splitOn ';'.toUInt8).filter fun segment => !segment.isEmpty

namespace Apps

/-- Commands one after the other: what each of them returned, and the state at the end. -/
def executeEach (execute : Apps → Text → Bool × Apps) : Apps → List Text → List Bool × Apps
  | a, []              => ([], a)
  | a, command :: rest =>
    let (ok, a) := execute a command
    let (oks, a) := executeEach execute a rest
    (ok :: oks, a)

variable {execute : Apps → Text → Bool × Apps} {a : Apps}

/-! ## The buffer -/

/-- A character that arrives after the beginning of a segment. -/
theorem copyText_append_singleton (segment : Text) (c : UInt8) :
    copyText kTerminalCommandLength (segment ++ [c]) =
      if (copyText kTerminalCommandLength segment).length + 1 < kTerminalCommandLength then
        copyText kTerminalCommandLength segment ++ [c]
      else copyText kTerminalCommandLength segment := by
  rw [length_copyText]
  unfold copyText
  by_cases hfull : segment.length < kTerminalCommandLength - 1
  · rw [if_pos (by omega), List.take_of_length_le (by rw [List.length_append, List.length_singleton]; omega),
      List.take_of_length_le (Nat.le_of_lt hfull)]
  · rw [if_neg (by omega), List.take_append_of_le_length (Nat.not_lt.mp hfull)]

/-- A segment of which nothing has been read yet. -/
theorem modifyHead_nil_append (segments : List Text) : segments.modifyHead (([] : Text) ++ ·) = segments := by
  cases segments with
  | nil => rfl
  | cons segment rest => rfl

/-- The end of a segment: what is in the buffer is executed unless it is empty. -/
theorem executeEach_segment (segment : Text) (rest : List Text) :
    executeEach execute a (((segment :: rest).filter fun s => !s.isEmpty).map (copyText kTerminalCommandLength)) =
      if (copyText kTerminalCommandLength segment).length > 0 then
        ((execute a (copyText kTerminalCommandLength segment)).1 ::
          (executeEach execute (execute a (copyText kTerminalCommandLength segment)).2
            ((rest.filter fun s => !s.isEmpty).map (copyText kTerminalCommandLength))).1,
          (executeEach execute (execute a (copyText kTerminalCommandLength segment)).2
            ((rest.filter fun s => !s.isEmpty).map (copyText kTerminalCommandLength))).2)
      else executeEach execute a ((rest.filter fun s => !s.isEmpty).map (copyText kTerminalCommandLength)) := by
  cases segment with
  | nil => rfl
  | cons c segment => rfl

/-! ## The loop -/

/-- **The loop of the script.** With the beginning of a segment in the buffer, the commands that are left are this
    segment, continued to its end, and those that follow. -/
theorem scriptLoop_eq (rest segment : Text) (allOk : Bool) (a : Apps) :
    scriptLoop execute rest (copyText kTerminalCommandLength segment) allOk a =
      let each := executeEach execute a
        ((((rest.splitOn ';'.toUInt8).modifyHead (segment ++ ·)).filter fun s => !s.isEmpty).map
          (copyText kTerminalCommandLength))
      (allOk && each.1.all id, each.2) := by
  induction rest generalizing segment allOk a with
  | nil =>
    rw [List.splitOn_nil, List.modifyHead_cons, List.append_nil, executeEach_segment]
    unfold scriptLoop
    split
    · simp [executeEach]
    · simp [executeEach]
  | cons c rest ih =>
    rw [List.splitOn_cons_eq_if_modifyHead]
    unfold scriptLoop
    have hempty : copyText kTerminalCommandLength [] = [] := rfl
    have hnil := ih []
    rw [hempty] at hnil
    by_cases hc : c = ';'.toUInt8
    · -- the segment ends here, and the next one starts empty
      rw [if_pos hc, if_pos (beq_iff_eq.mpr hc), List.modifyHead_cons, List.append_nil, executeEach_segment]
      split
      · dsimp only
        rw [hnil, modifyHead_nil_append]
        simp [Bool.and_assoc]
      · rw [hnil, modifyHead_nil_append]
    · rw [if_neg hc, if_neg (fun h => hc (beq_iff_eq.mp h)), ← copyText_append_singleton, ih]
      have hhead : ((rest.splitOn ';'.toUInt8).modifyHead (List.cons c)).modifyHead (segment ++ ·) =
          (rest.splitOn ';'.toUInt8).modifyHead (segment ++ [c] ++ ·) := by
        cases rest.splitOn ';'.toUInt8 with
        | nil => rfl
        | cons s ss => simp
      rw [hhead]

theorem executeScriptWith_eq (script : Text) (a : Apps) :
    executeScriptWith execute a script =
      let each := executeEach execute a ((scriptSegments script).map (copyText kTerminalCommandLength))
      (each.1.all id, each.2) := by
  unfold executeScriptWith scriptSegments
  rw [← modifyHead_nil_append (script.splitOn ';'.toUInt8)]
  exact scriptLoop_eq script [] true a

/-- **Scripts.** A script has the effect of its segments, each cut to the 63 characters that the buffer holds, and
    succeeds when every one of them does. -/
theorem executeTerminalScript_segments (a : Apps) (script : Text) :
    let each := executeEach executeTerminalCommand a ((scriptSegments script).map (copyText kTerminalCommandLength))
    (a.executeTerminalScript script).2 = each.2 ∧
      ((a.executeTerminalScript script).1 = true ↔ ∀ ok ∈ each.1, ok = true) := by
  have h : a.executeTerminalScript script = _ := executeScriptWith_eq script a
  refine ⟨congrArg Prod.snd h, ?_⟩
  rw [show (a.executeTerminalScript script).1 = _ from congrArg Prod.fst h]
  exact List.all_eq_true

/-- A script whose segments fit in the buffer is executed in full. -/
theorem executeTerminalScript_short (a : Apps) {script : Text}
    (h : ∀ segment ∈ scriptSegments script, segment.length < kTerminalCommandLength) :
    (a.executeTerminalScript script).2 = (executeEach executeTerminalCommand a (scriptSegments script)).2 := by
  have hscript : a.executeTerminalScript script = _ := executeScriptWith_eq script a
  have hwhole : (scriptSegments script).map (copyText kTerminalCommandLength) = scriptSegments script := by
    conv => rhs; rw [← List.map_id (scriptSegments script)]
    apply List.map_congr_left
    intro segment hmem
    exact List.take_of_length_le (Nat.le_sub_one_of_lt (h segment hmem))
  rw [hwhole] at hscript
  exact congrArg Prod.snd hscript

/-- Of the 60 characters that this `echo` is to print, a script prints 58. -/
theorem executeTerminalScript_cuts :
    ¬ ∀ (a : Apps) (script : Text),
      let each := executeEach executeTerminalCommand a (scriptSegments script)
      (a.executeTerminalScript script).2 = each.2 ∧
        ((a.executeTerminalScript script).1 = true ↔ ∀ ok ∈ each.1, ok = true) := by
  intro h
  have heffect := (h {} (text "echo " ++ List.replicate 60 'x'.toUInt8)).1
  have hlines := congrArg (fun a : Apps => a.terminal.lines.map (·.text.length)) heffect
  exact absurd hlines (by decide +kernel)

end Apps

end Gui
end UefiBoot
