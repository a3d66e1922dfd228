import Mathlib.Tactic

/-!
# `Lib.Run` — runs of a deterministic step function, and the rules that carry invariants along them

A system is a total step function `step : σ → α → σ` over states `σ` and actions `α`; a run is a
list of actions. Two predicates talk about a whole run:

* `Along step Safe s as` — every action of the run is taken in a state where `Safe` allows it;
* `Throughout step P s as` — `P` holds in every state the run visits, the first and last included.

The rules: an invariant kept by every step holds after any run (`run_invariant`), one kept by the
safe steps holds after any run of safe steps (`run_invariant_along`), and when a step keeps `P`
*exactly* if it is safe, the two predicates are the same (`throughout_iff_along`, `throughout_iff_of_safe`).
-/

namespace Lib

variable {σ α : Type*} (step : σ → α → σ)

/-- The state after a list of actions. -/
def run (s : σ) (as : List α) : σ := as.foldl step s

@[simp] theorem run_nil (s : σ) : run step s [] = s := rfl

@[simp] theorem run_cons (s : σ) (a : α) (as : List α) :
    run step s (a :: as) = run step (step s a) as := rfl

@[simp] theorem run_append (s : σ) (as bs : List α) :
    run step s (as ++ bs) = run step (run step s as) bs := List.foldl_append

/-- Every action of the run is `Safe` in the state it is taken in. -/
def Along (Safe : σ → α → Prop) : σ → List α → Prop
  | _, []      => True
  | s, a :: as => Safe s a ∧ Along Safe (step s a) as

/-- `P` holds in every state the run visits. -/
def Throughout (P : σ → Prop) : σ → List α → Prop
  | s, []      => P s
  | s, a :: as => P s ∧ Throughout P (step s a) as

instance Along.decidable (Safe : σ → α → Prop) [h : ∀ s a, Decidable (Safe s a)] :
    ∀ (s : σ) (as : List α), Decidable (Along step Safe s as)
  | _, []      => isTrue trivial
  | s, a :: as => @instDecidableAnd _ _ (h s a) (Along.decidable Safe (step s a) as)

instance Throughout.decidable (P : σ → Prop) [DecidablePred P] :
    ∀ (s : σ) (as : List α), Decidable (Throughout step P s as)
  | s, []      => inferInstanceAs (Decidable (P s))
  | s, a :: as => @instDecidableAnd _ _ _ (Throughout.decidable P (step s a) as)

variable {step}

theorem Throughout.head {P : σ → Prop} {s : σ} {as : List α} (h : Throughout step P s as) : P s := by
  cases as with
  | nil => exact h
  | cons a as => exact h.1

theorem Throughout.last {P : σ → Prop} {s : σ} {as : List α} (h : Throughout step P s as) :
    P (run step s as) := by
  induction as generalizing s with
  | nil => exact h
  | cons a as ih => exact ih h.2

theorem Along.append {Safe : σ → α → Prop} {s : σ} {as bs : List α} (ha : Along step Safe s as)
    (hb : Along step Safe (run step s as) bs) : Along step Safe s (as ++ bs) := by
  induction as generalizing s with
  | nil => exact hb
  | cons a as ih => exact ⟨ha.1, ih ha.2 hb⟩

theorem along_append_iff {Safe : σ → α → Prop} {s : σ} {as bs : List α} :
    Along step Safe s (as ++ bs) ↔ Along step Safe s as ∧ Along step Safe (run step s as) bs := by
  induction as generalizing s with
  | nil => exact ⟨fun h => ⟨trivial, h⟩, fun h => h.2⟩
  | cons a as ih =>
    show Safe s a ∧ Along step Safe (step s a) (as ++ bs) ↔ _
    rw [ih]
    exact and_assoc.symm

theorem along_forall_iff {ι : Type*} {Safe : ι → σ → α → Prop} {s : σ} {as : List α} :
    Along step (fun s a => ∀ i, Safe i s a) s as ↔ ∀ i, Along step (Safe i) s as := by
  induction as generalizing s with
  | nil => exact ⟨fun _ _ => trivial, fun _ => trivial⟩
  | cons a as ih =>
    show (∀ i, Safe i s a) ∧ Along step (fun s a => ∀ i, Safe i s a) (step s a) as ↔ _
    rw [ih]
    exact forall_and.symm

theorem along_congr {Safe Safe' : σ → α → Prop} (h : ∀ s a, Safe s a ↔ Safe' s a) {s : σ} {as : List α} :
    Along step Safe s as ↔ Along step Safe' s as := by
  induction as generalizing s with
  | nil => exact Iff.rfl
  | cons a as ih => exact and_congr (h s a) ih

/-- **What the single steps of a run keep**, every stretch of the run keeps, and the other way round. -/
theorem along_keeps_iff {P : σ → Prop} {s : σ} {as : List α} :
    Along step (fun s a => P s → P (step s a)) s as ↔
      ∀ bs cs ds, as = bs ++ (cs ++ ds) → P (run step s bs) → P (run step s (bs ++ cs)) := by
  constructor
  · rintro h bs cs ds rfl hp
    have hmid := (along_append_iff.mp (along_append_iff.mp h).2).1
    rw [run_append]
    generalize run step s bs = t at hp hmid
    clear h
    induction cs generalizing t with
    | nil => exact hp
    | cons c cs ih => exact ih (step t c) (hmid.1 hp) hmid.2
  · intro h
    induction as generalizing s with
    | nil => trivial
    | cons a as ih =>
      refine ⟨fun hp => h [] [a] as rfl hp, ih fun bs cs ds has hp => ?_⟩
      exact h (a :: bs) cs ds (congrArg (a :: ·) has) hp

/-- **Invariant rule.** What every step keeps holds after every run. -/
theorem run_invariant {I : σ → Prop} (hstep : ∀ s a, I s → I (step s a)) {s : σ} (h : I s)
    (as : List α) : I (run step s as) := by
  induction as generalizing s with
  | nil => exact h
  | cons a as ih => exact ih (hstep s a h)

/-- **Invariant rule for safe runs.** What the safe steps keep holds after every safe run. -/
theorem run_invariant_along {I : σ → Prop} {Safe : σ → α → Prop}
    (hstep : ∀ s a, I s → Safe s a → I (step s a)) {s : σ} (h : I s) {as : List α}
    (hs : Along step Safe s as) : I (run step s as) := by
  induction as generalizing s with
  | nil => exact h
  | cons a as ih => exact ih (hstep s a h hs.1) hs.2

/-- An invariant of the steps holds in every state of a run. -/
theorem throughout_of_invariant {I : σ → Prop} (hstep : ∀ s a, I s → I (step s a)) {s : σ} (h : I s)
    (as : List α) : Throughout step I s as := by
  induction as generalizing s with
  | nil => exact h
  | cons a as ih => exact ⟨h, ih (hstep s a h)⟩

/-- An invariant of the safe steps holds in every state of a safe run. -/
theorem throughout_of_along {I : σ → Prop} {Safe : σ → α → Prop}
    (hstep : ∀ s a, I s → Safe s a → I (step s a)) {s : σ} (h : I s) {as : List α}
    (hs : Along step Safe s as) : Throughout step I s as := by
  induction as generalizing s with
  | nil => exact h
  | cons a as ih => exact ⟨h, ih (hstep s a h hs.1) hs.2⟩

/-- **What the safe steps guarantee.** An invariant of the safe steps that makes every safe step good makes
    every step of a safe run good. -/
theorem Along.of_invariant {I : σ → Prop} {Safe Good : σ → α → Prop}
    (hstep : ∀ s a, I s → Safe s a → I (step s a)) (hgood : ∀ s a, I s → Safe s a → Good s a) {s : σ}
    (h : I s) {as : List α} (hs : Along step Safe s as) : Along step Good s as := by
  induction as generalizing s with
  | nil => trivial
  | cons a as ih => exact ⟨hgood s a h hs.1, ih (hstep s a h hs.1) hs.2⟩

/-- An invariant of the steps that makes every step good makes every step of a run good. -/
theorem along_of_invariant {I : σ → Prop} {Good : σ → α → Prop} (hstep : ∀ s a, I s → I (step s a))
    (hgood : ∀ s a, I s → Good s a) {s : σ} (h : I s) (as : List α) : Along step Good s as := by
  induction as generalizing s with
  | nil => trivial
  | cons a as ih => exact ⟨hgood s a h, ih (hstep s a h)⟩

theorem Throughout.mono {P Q : σ → Prop} (hPQ : ∀ s, P s → Q s) {s : σ} {as : List α}
    (h : Throughout step P s as) : Throughout step Q s as := by
  induction as generalizing s with
  | nil => exact hPQ s h
  | cons a as ih => exact ⟨hPQ s h.1, ih h.2⟩

/-- **Exactness rule.** Let `B` be an invariant of every step. If, in a state where `B` and `P` hold, a
    step keeps `P` exactly when it is `Safe`, then `P` holds throughout a run exactly when every step
    of the run is safe. -/
theorem throughout_iff_along {B P : σ → Prop} {Safe : σ → α → Prop}
    (hB : ∀ s a, B s → B (step s a))
    (hP : ∀ s a, B s → P s → (P (step s a) ↔ Safe s a)) {s : σ} (hb : B s) (hp : P s)
    (as : List α) : Throughout step P s as ↔ Along step Safe s as := by
  induction as generalizing s with
  | nil => exact ⟨fun _ => trivial, fun _ => hp⟩
  | cons a as ih =>
    constructor
    · rintro ⟨_, ht⟩
      have hp' : P (step s a) := ht.head
      exact ⟨(hP s a hb hp).mp hp', (ih (hB s a hb) hp').mp ht⟩
    · rintro ⟨hsafe, hs⟩
      have hp' : P (step s a) := (hP s a hb hp).mpr hsafe
      exact ⟨hp, (ih (hB s a hb) hp').mpr hs⟩

/-- **Exactness rule for a guarded invariant.** Let `B` be kept by the safe steps and imply `P`. If only safe
    steps lead from `B` to `P`, then `P` holds throughout a run exactly when every step of the run is safe. -/
theorem throughout_iff_of_safe {B P : σ → Prop} {Safe : σ → α → Prop}
    (hB : ∀ s a, B s → Safe s a → B (step s a)) (hBP : ∀ s, B s → P s)
    (hsafe : ∀ s a, B s → P (step s a) → Safe s a) {s : σ} (hb : B s) (as : List α) :
    Throughout step P s as ↔ Along step Safe s as := by
  induction as generalizing s with
  | nil => exact ⟨fun _ => trivial, fun _ => hBP s hb⟩
  | cons a as ih =>
    constructor
    · rintro ⟨_, ht⟩
      have ha : Safe s a := hsafe s a hb ht.head
      exact ⟨ha, (ih (hB s a hb ha)).mp ht⟩
    · rintro ⟨ha, hs⟩
      exact ⟨hBP s hb, (ih (hB s a hb ha)).mpr hs⟩

end Lib
