import Mathlib.Tactic

/-!
# `Lib.Ledger` — who holds what

Places hold at most one resource each; a resource is taken when the allocator has handed it out. A ledger is
*sound* when no resource has two holders, everything held is taken, and one reserved resource is taken and
held by nobody (the null address of an allocator that answers failure with it).

Ownership changes in two ways. A *grant* takes resources that were not taken, and may record them in places;
a *revoke* gives back resources that were held, and their places let go of them. Both keep soundness
(`Steps.sound`), whatever the order. A component that owns some of the places is verified over its own small
ledger, and `Steps.lift` carries its steps to the ledger of the whole system.
-/

namespace Lib

structure Ledger (P F : Type*) where
  holds : P → Option F
  taken : F → Prop

namespace Ledger

variable {P Q F : Type*}

/-- **No resource has two holders.** -/
structure Sound (reserved : F) (l : Ledger P F) : Prop where
  unique        : ∀ {p q f}, l.holds p = some f → l.holds q = some f → p = q
  taken         : ∀ {p f}, l.holds p = some f → l.taken f
  reservedTaken : l.taken reserved
  unheld        : ∀ {p f}, l.holds p = some f → f ≠ reserved

/-- Where nothing is held, there is only the reserved resource to take. -/
theorem Sound.empty {reserved : F} {l : Ledger P F} (hholds : ∀ p, l.holds p = none) (hreserved : l.taken reserved) :
    Sound reserved l := by
  have hnone : ∀ {p f}, l.holds p ≠ some f := by
    intro p f hp
    rw [hholds] at hp
    exact absurd hp (by simp)
  constructor
  · intro p q f hp
    exact absurd hp hnone
  · intro p f hp
    exact absurd hp hnone
  · exact hreserved
  · intro p f hp
    exact absurd hp hnone

/-- One change of ownership. -/
inductive Step (l l' : Ledger P F) : Prop
  /-- The resources of `A` are taken; each may go to the place `place` gives it. -/
  | grant (A : Set F) (place : F → P) (hfree : ∀ f ∈ A, ¬ l.taken f)
      (hholds : ∀ p f, l'.holds p = some f → l.holds p = some f ∨ f ∈ A ∧ p = place f)
      (htaken : ∀ f, l'.taken f ↔ f ∈ A ∨ l.taken f)
  /-- The resources of `A`, each of them held, are given back. -/
  | revoke (A : Set F) (hheld : ∀ f ∈ A, ∃ p, l.holds p = some f)
      (hholds : ∀ p f, l'.holds p = some f → l.holds p = some f ∧ f ∉ A)
      (htaken : ∀ f, l'.taken f ↔ l.taken f ∧ f ∉ A)

/-- Any number of changes. -/
abbrev Steps : Ledger P F → Ledger P F → Prop := Relation.ReflTransGen Step

variable {l l' : Ledger P F} {reserved : F}

theorem Step.sound (h : Step l l') (hs : Sound reserved l) : Sound reserved l' := by
  cases h with
  | grant A place hfree hholds htaken =>
      constructor
      · intro p q f hp hq
        rcases hholds p f hp with hp | ⟨hA, rfl⟩
        · rcases hholds q f hq with hq | ⟨hA, rfl⟩
          · exact hs.unique hp hq
          · exact absurd (hs.taken hp) (hfree f hA)
        · rcases hholds q f hq with hq | ⟨-, rfl⟩
          · exact absurd (hs.taken hq) (hfree f hA)
          · rfl
      · intro p f hp
        rw [htaken]
        rcases hholds p f hp with hp | ⟨hA, -⟩
        · exact Or.inr (hs.taken hp)
        · exact Or.inl hA
      · rw [htaken]
        exact Or.inr hs.reservedTaken
      · intro p f hp
        rcases hholds p f hp with hp | ⟨hA, -⟩
        · exact hs.unheld hp
        · rintro rfl
          exact hfree _ hA hs.reservedTaken
  | revoke A hheld hholds htaken =>
      constructor
      · intro p q f hp hq
        exact hs.unique (hholds p f hp).1 (hholds q f hq).1
      · intro p f hp
        rw [htaken]
        exact ⟨hs.taken (hholds p f hp).1, (hholds p f hp).2⟩
      · rw [htaken]
        refine ⟨hs.reservedTaken, fun hA => ?_⟩
        obtain ⟨p, hp⟩ := hheld _ hA
        exact hs.unheld hp rfl
      · intro p f hp
        exact hs.unheld (hholds p f hp).1

theorem Steps.sound (h : Steps l l') (hs : Sound reserved l) : Sound reserved l' := by
  induction h with
  | refl => exact hs
  | tail _ hstep ih => exact hstep.sound ih

/-! ## The two steps at one place -/

section OnePlace

variable [DecidableEq P] {p : P} {f : F}

/-- One resource goes to one place. -/
theorem Step.grantOne (hfree : ¬ l.taken f)
    (hholds : ∀ q, l'.holds q = if q = p then some f else l.holds q)
    (htaken : ∀ g, l'.taken g ↔ g = f ∨ l.taken g) : Step l l' := by
  refine .grant {f} (fun _ => p) ?_ ?_ htaken
  · rintro g rfl
    exact hfree
  · intro q g hq
    rw [hholds] at hq
    split at hq
    · rename_i hqp
      exact Or.inr ⟨(Option.some.inj hq).symm, hqp⟩
    · exact Or.inl hq

/-- One place gives its resource back. -/
theorem Step.revokeOne (hs : Sound reserved l) (hheld : l.holds p = some f)
    (hholds : ∀ q, l'.holds q = if q = p then none else l.holds q)
    (htaken : ∀ g, l'.taken g ↔ g ≠ f ∧ l.taken g) : Step l l' := by
  refine .revoke {f} ?_ ?_ ?_
  · rintro g rfl
    exact ⟨p, hheld⟩
  · intro q g hq
    rw [hholds] at hq
    split at hq
    · exact absurd hq (by simp)
    · rename_i hqp
      refine ⟨hq, ?_⟩
      rintro rfl
      exact hqp (hs.unique hq hheld)
  · intro g
    rw [htaken]
    exact and_comm

end OnePlace

/-- A resource is taken and recorded nowhere. -/
theorem Step.others {f : F} (p : P) (hfree : ¬ l.taken f) (hholds : ∀ q, l'.holds q = l.holds q)
    (htaken : ∀ g, l'.taken g ↔ g = f ∨ l.taken g) : Step l l' := by
  refine .grant {f} (fun _ => p) ?_ ?_ htaken
  · rintro g rfl
    exact hfree
  · intro q g hq
    rw [hholds] at hq
    exact Or.inl hq

/-- Resources go to places, each to one. -/
theorem Step.grantMany {A : Set F} (p₀ : P) (hfree : ∀ f ∈ A, ¬ l.taken f)
    (hinj : ∀ p q, ∀ f ∈ A, l'.holds p = some f → l'.holds q = some f → p = q)
    (hholds : ∀ p f, l'.holds p = some f → l.holds p = some f ∨ f ∈ A)
    (htaken : ∀ f, l'.taken f ↔ f ∈ A ∨ l.taken f) : Step l l' := by
  classical
  refine .grant A (fun f => if h : ∃ p, l'.holds p = some f then h.choose else p₀) hfree ?_ htaken
  intro p f hp
  rcases hholds p f hp with hold | hA
  · exact Or.inl hold
  · refine Or.inr ⟨hA, ?_⟩
    have hex : ∃ p, l'.holds p = some f := ⟨p, hp⟩
    rw [dif_pos hex]
    exact hinj p _ f hA hp hex.choose_spec

/-! ## The ledger of a part and of the whole -/

/-- The ledger of a system in which the places `e p` are those of the part `l`, and `rest` says what the
    other places hold. -/
noncomputable def lift (e : P → Q) (rest : Q → Option F) (l : Ledger P F) : Ledger Q F :=
  { holds := Function.extend e l.holds rest, taken := l.taken }

variable {e : P → Q} {rest : Q → Option F}

theorem lift_part (he : Function.Injective e) (l : Ledger P F) (p : P) :
    (l.lift e rest).holds (e p) = l.holds p := he.extend_apply l.holds rest p

theorem lift_rest (l : Ledger P F) {q : Q} (hq : ¬ ∃ p, e p = q) : (l.lift e rest).holds q = rest q :=
  Function.extend_apply' l.holds rest q hq

/-- A part of a sound system is sound. -/
theorem Sound.part (he : Function.Injective e) (h : Sound reserved (l.lift e rest)) : Sound reserved l := by
  constructor
  · intro p q f hp hq
    exact he (h.unique ((lift_part he l p).trans hp) ((lift_part he l q).trans hq))
  · intro p f hp
    exact h.taken ((lift_part he l p).trans hp)
  · exact h.reservedTaken
  · intro p f hp
    exact h.unheld ((lift_part he l p).trans hp)

theorem Step.lift (he : Function.Injective e) (hs : Sound reserved (l.lift e rest)) (h : Step l l') :
    Step (l.lift e rest) (l'.lift e rest) := by
  cases h with
  | grant A place hfree hholds htaken =>
      refine .grant A (e ∘ place) hfree ?_ htaken
      intro q f hq
      by_cases hmem : ∃ p, e p = q
      · obtain ⟨p, rfl⟩ := hmem
        rw [lift_part he] at hq ⊢
        rcases hholds p f hq with hold | ⟨hA, rfl⟩
        · exact Or.inl hold
        · exact Or.inr ⟨hA, rfl⟩
      · rw [lift_rest l' hmem] at hq
        rw [lift_rest l hmem]
        exact Or.inl hq
  | revoke A hheld hholds htaken =>
      refine .revoke A ?_ ?_ htaken
      · intro f hf
        obtain ⟨p, hp⟩ := hheld f hf
        exact ⟨e p, (lift_part he l p).trans hp⟩
      · intro q f hq
        by_cases hmem : ∃ p, e p = q
        · obtain ⟨p, rfl⟩ := hmem
          rw [lift_part he] at hq ⊢
          exact hholds p f hq
        · rw [lift_rest l' hmem] at hq
          refine ⟨(lift_rest l hmem).trans hq, fun hA => ?_⟩
          -- what the part gives back, no other place holds
          obtain ⟨p, hp⟩ := hheld f hA
          exact hmem ⟨p, hs.unique ((lift_part he l p).trans hp) ((lift_rest l hmem).trans hq)⟩

/-- **The steps of a part are steps of the whole.** -/
theorem Steps.lift (he : Function.Injective e) (hs : Sound reserved (l.lift e rest)) (h : Steps l l') :
    Steps (l.lift e rest) (l'.lift e rest) := by
  induction h with
  | refl => exact .refl
  | tail _ hstep ih => exact ih.tail (hstep.lift he (ih.sound hs))

/-! ## Two parts side by side -/

section Beside

variable {holds holds' : P → Option F} {others others' : Q → Option F} {taken taken' : F → Prop}

theorem lift_inl : (Ledger.mk holds taken).lift Sum.inl (Sum.elim (fun _ => none) others) =
    Ledger.mk (Sum.elim holds others) taken := by
  have hholds : Function.extend Sum.inl holds (Sum.elim (fun _ => none) others) = Sum.elim holds others := by
    funext q
    cases q with
    | inl p => exact Sum.inl_injective.extend_apply ..
    | inr p => exact Function.extend_apply' _ _ _ (by simp)
  exact congrArg (fun h => Ledger.mk h taken) hholds

theorem lift_inr : (Ledger.mk others taken).lift Sum.inr (Sum.elim holds fun _ => none) =
    Ledger.mk (Sum.elim holds others) taken := by
  have hholds : Function.extend Sum.inr others (Sum.elim holds fun _ => none) = Sum.elim holds others := by
    funext q
    cases q with
    | inl p => exact Function.extend_apply' _ _ _ (by simp)
    | inr p => exact Sum.inr_injective.extend_apply ..
  exact congrArg (fun h => Ledger.mk h taken) hholds

/-- The steps of the left part are steps of both. -/
theorem Steps.left (hs : Sound reserved (Ledger.mk (Sum.elim holds others) taken))
    (h : Steps (Ledger.mk holds taken) (Ledger.mk holds' taken')) :
    Steps (Ledger.mk (Sum.elim holds others) taken) (Ledger.mk (Sum.elim holds' others) taken') := by
  rw [← lift_inl] at hs
  rw [← lift_inl, ← lift_inl]
  exact h.lift Sum.inl_injective hs

/-- The steps of the right part are steps of both. -/
theorem Steps.right (hs : Sound reserved (Ledger.mk (Sum.elim holds others) taken))
    (h : Steps (Ledger.mk others taken) (Ledger.mk others' taken')) :
    Steps (Ledger.mk (Sum.elim holds others) taken) (Ledger.mk (Sum.elim holds others') taken') := by
  rw [← lift_inr] at hs
  rw [← lift_inr, ← lift_inr]
  exact h.lift Sum.inr_injective hs

theorem Sound.left (h : Sound reserved (Ledger.mk (Sum.elim holds others) taken)) :
    Sound reserved (Ledger.mk holds taken) := by
  rw [← lift_inl] at h
  exact h.part Sum.inl_injective

theorem Sound.right (h : Sound reserved (Ledger.mk (Sum.elim holds others) taken)) :
    Sound reserved (Ledger.mk others taken) := by
  rw [← lift_inr] at h
  exact h.part Sum.inr_injective

/-- What one part holds, the other does not. -/
theorem Sound.apart (h : Sound reserved (Ledger.mk (Sum.elim holds others) taken)) {p : P} {q : Q} {f : F}
    (hp : holds p = some f) : others q ≠ some f := by
  intro hq
  have heq := @Sound.unique _ _ _ _ h (Sum.inl p) (Sum.inr q) f hp hq
  exact absurd heq (by simp)

end Beside

end Ledger
end Lib
