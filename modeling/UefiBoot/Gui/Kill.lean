import UefiBoot.Gui.Orphans
import UefiBoot.Lib.Digits

/-!
# `Gui.Kill` — what `TerminalKillProcess` finds and what it ends

The command `kill` takes a number, looks for the application that has it as process id and clears the entry of that
application. `KillLaw` is what the command promises. Three things are between the two. The number is gathered in 64
bits, so that a larger one stands for its remainder. The entry of a launch that failed has the id 0 and is not
`NotRunning`, so that `kill 0` finds it. And the process of the kernel is not ended: it is inactive afterwards only if
it was before (`killLaw_iff`).
-/

namespace UefiBoot
namespace Gui
namespace Desktop

open Scheduler (HasProcess)

/-- A row of digits, at least one. -/
def IsNumeral (argument : Text) : Prop := argument ≠ [] ∧ ∀ c ∈ argument, isDigit c = true

instance (argument : Text) : Decidable (IsNumeral argument) :=
  decidable_of_iff (argument ≠ [] ∧ argument.all isDigit = true) (and_congr_right fun _ => List.all_eq_true)

/-- The application runs, or is about to, or has failed, under a process id. -/
def Carries (d : Desktop AppSystem) (i : Fin kApplicationCapacity) (processId : UInt64) : Prop :=
  (d.apps.runtimes i).valid = true ∧ (d.apps.runtimes i).state ≠ .notRunning ∧
    (d.apps.runtimes i).processId = processId

/-- The argument names the process of the application. -/
def Names (d : Desktop AppSystem) (argument : Text) (i : Fin kApplicationCapacity) : Prop :=
  IsNumeral argument ∧ ∃ processId, d.Carries i processId ∧ processId ≠ 0 ∧ processId.toNat = Lib.decimal argument

/-- What `kill` promises: it returns true when the argument names an application; then it ends the process of one that
    is named, and everything else stays as it was. -/
structure KillLaw (d : Desktop AppSystem) (argument : Text) : Prop where
  returns : (d.terminalKill argument).1 = true ↔ ∃ i, d.Names argument i
  ends    : (d.terminalKill argument).1 = true → ∃ i, d.Names argument i ∧
    ¬ HasProcess (d.terminalKill argument).2.kernel.system.kernel.sched (d.apps.runtimes i).processId ∧
    (∀ j ≠ i, (d.terminalKill argument).2.apps.runtimes j = d.apps.runtimes j) ∧
    ∀ pid ≠ (d.apps.runtimes i).processId,
      HasProcess (d.terminalKill argument).2.kernel.system.kernel.sched pid ↔
        HasProcess d.kernel.system.kernel.sched pid
  keeps   : (d.terminalKill argument).1 = false →
    (d.terminalKill argument).2.apps.runtimes = d.apps.runtimes ∧ (d.terminalKill argument).2.kernel = d.kernel

/-- Whatever the 64 bits of the number find is named by the number itself, and its process has ended before. -/
def FindsEnded (d : Desktop AppSystem) (argument : Text) : Prop :=
  IsNumeral argument → ∀ i, d.Carries i (UInt64.ofNat (Lib.decimal argument)) →
    0 < Lib.decimal argument ∧ Lib.decimal argument < 2 ^ 64 ∧
      ¬ HasProcess d.kernel.system.kernel.sched (UInt64.ofNat (Lib.decimal argument))

variable {d : Desktop AppSystem} {argument : Text} {processId : UInt64} {i : Fin kApplicationCapacity}

/-! ## What is found -/

/-- The number is gathered in 64 bits. -/
theorem killTarget_numeral (h : IsNumeral argument) :
    Apps.killTarget argument = some (UInt64.ofNat (Lib.decimal argument)) := by
  have hcond : ¬ (argument.isEmpty = true ∨ (!argument.all isDigit) = true) := by
    rintro (hempty | hdigits)
    · exact h.1 (List.isEmpty_iff.mp hempty)
    · rw [List.all_eq_true.mpr h.2] at hdigits
      exact absurd hdigits (by decide)
  unfold Apps.killTarget
  rw [if_neg hcond, Lib.foldl_decimal_uint64]

theorem killTarget_other (h : ¬ IsNumeral argument) : Apps.killTarget argument = none := by
  unfold Apps.killTarget
  refine if_pos ?_
  by_contra hcond
  rw [not_or, List.isEmpty_iff, Bool.not_eq_true', Bool.not_eq_false, List.all_eq_true] at hcond
  exact h hcond

theorem test_iff : ((d.apps.runtimes i).valid && (d.apps.runtimes i).processId == processId &&
    (d.apps.runtimes i).state != .notRunning) = true ↔ d.Carries i processId := by
  rw [Bool.and_eq_true, Bool.and_eq_true, beq_iff_eq, bne_iff_ne]
  exact ⟨fun h => ⟨h.1.1, h.2, h.1.2⟩, fun h => ⟨⟨h.1, h.2.2⟩, h.2.1⟩⟩

theorem findKillTarget_carries (h : d.apps.findKillTarget processId = some i) : d.Carries i processId :=
  test_iff.mp (Lib.firstSlot_true h)

theorem findKillTarget_none (h : d.apps.findKillTarget processId = none) (i : Fin kApplicationCapacity) :
    ¬ d.Carries i processId := by
  intro hcarries
  have hfalse := Lib.firstSlot_eq_none_iff.mp h i
  rw [test_iff.mpr hcarries] at hfalse
  cases hfalse

/-- An application that an argument names carries the number in 64 bits. -/
theorem Names.carries (h : d.Names argument i) : d.Carries i (UInt64.ofNat (Lib.decimal argument)) := by
  obtain ⟨-, processId, hcarries, -, hvalue⟩ := h
  rwa [← hvalue, UInt64.ofNat_toNat]

/-! ## What the command does -/

/-- Something is found: its entry is cleared, and nothing else happens to applications or to the kernel. -/
theorem terminalKill_finds (h : Apps.killTarget argument = some processId)
    (hfind : d.apps.findKillTarget processId = some i) :
    (d.terminalKill argument).1 = true ∧
      (∀ j ≠ i, (d.terminalKill argument).2.apps.runtimes j = d.apps.runtimes j) ∧
      (d.terminalKill argument).2.kernel = d.kernel := by
  unfold terminalKill Apps.terminalKillProcess
  rw [h]
  dsimp only
  rw [hfind]
  exact ⟨rfl, fun j hj => Function.update_of_ne hj _ _, rfl⟩

theorem killLaw_misses (hmisses : d.terminalKill argument = (false, d)) (hno : ∀ i, ¬ d.Names argument i) :
    KillLaw d argument := by
  refine ⟨?_, fun htrue => ?_, fun _ => ?_⟩
  · rw [hmisses]
    exact iff_of_false Bool.false_ne_true fun ⟨i, hi⟩ => hno i hi
  · rw [hmisses] at htrue
    exact absurd htrue Bool.false_ne_true
  · rw [hmisses]
    exact ⟨rfl, rfl⟩

/-- **The command `kill`.** It keeps its promise, on every desktop and for every argument, exactly when whatever the
    number finds in 64 bits is named by the number, and its process has ended before. -/
theorem killLaw_iff (d : Desktop AppSystem) (argument : Text) : KillLaw d argument ↔ FindsEnded d argument := by
  by_cases hnumeral : IsNumeral argument
  · have htarget := killTarget_numeral hnumeral
    cases hfind : d.apps.findKillTarget (UInt64.ofNat (Lib.decimal argument)) with
    | none =>
      have hmisses : d.terminalKill argument = (false, d) := by
        refine terminalKill_misses fun processId i htarget' hfind' => ?_
        rw [htarget] at htarget'
        rw [← Option.some.inj htarget', hfind] at hfind'
        cases hfind'
      refine iff_of_true (killLaw_misses hmisses fun i hi => findKillTarget_none hfind i hi.carries) ?_
      exact fun _ i hi => absurd hi (findKillTarget_none hfind i)
    | some i =>
      obtain ⟨htrue, hothers, hkernel⟩ := terminalKill_finds htarget hfind
      have hcarries := findKillTarget_carries hfind
      constructor
      · -- the application that is named carries the number, whatever else does
        intro hlaw _ j hj
        obtain ⟨k, hk, hended, -, -⟩ := hlaw.ends htrue
        have hkcarries := hk.carries.2.2
        obtain ⟨-, processId, -, hne, hvalue⟩ := hk
        rw [hkernel, hkcarries] at hended
        refine ⟨?_, ?_, hended⟩
        · rw [← hvalue]
          exact Nat.pos_of_ne_zero fun h0 => hne (UInt64.toNat_inj.mp h0)
        · rw [← hvalue]
          exact processId.toNat_lt
      · intro hended
        obtain ⟨hpos, hlt, hinactive⟩ := hended hnumeral i hcarries
        have hvalue : (UInt64.ofNat (Lib.decimal argument)).toNat = Lib.decimal argument := by
          rw [UInt64.toNat_ofNat']
          exact Nat.mod_eq_of_lt hlt
        have hnames : d.Names argument i := by
          refine ⟨hnumeral, _, hcarries, fun h0 => ?_, hvalue⟩
          rw [h0] at hvalue
          rw [← hvalue] at hpos
          exact absurd hpos (by decide)
        refine ⟨iff_of_true htrue ⟨i, hnames⟩, fun _ => ⟨i, hnames, ?_, hothers, fun pid _ => ?_⟩, fun hfalse => ?_⟩
        · rw [hkernel, hcarries.2.2]
          exact hinactive
        · rw [hkernel]
        · rw [htrue] at hfalse
          cases hfalse
  · have hmisses : d.terminalKill argument = (false, d) := by
      refine terminalKill_misses fun processId i htarget => ?_
      rw [killTarget_other hnumeral] at htarget
      cases htarget
    exact iff_of_true (killLaw_misses hmisses fun i hi => hnumeral hi.1) fun h => absurd h hnumeral

/-- The file manager is launched, as process 2. The command `kill 2` returns true, and process 2 is still active. -/
theorem not_killLaw : ¬ ∀ (d : Desktop AppSystem) (argument : Text), KillLaw d argument := by
  intro h
  generalize hd : Lib.run (appStep Userspace.entriesAt1MiB) (registered Scheduler.heapAt2MiB smallScreen)
    [.gui (.launch (some "files"))] = d
  have hkilled : (d.terminalKill (text "2")).1 = true := by
    rw [← hd]
    decide +kernel
  have hactive : ((d.terminalKill (text "2")).2.kernel.system.kernel.sched.processes 1).active = true ∧
      ((d.terminalKill (text "2")).2.kernel.system.kernel.sched.processes 1).id = 2 := by
    rw [← hd]
    decide +kernel
  obtain ⟨i, ⟨-, processId, hcarries, -, hvalue⟩, hended, -, -⟩ := (h d (text "2")).ends hkilled
  have htwo : Lib.decimal (text "2") = (2 : UInt64).toNat := by decide
  rw [htwo] at hvalue
  apply hended
  refine ⟨1, hactive.1, ?_⟩
  rw [hactive.2, hcarries.2.2, UInt64.toNat_inj.mp hvalue]

end Desktop
end Gui
end UefiBoot
