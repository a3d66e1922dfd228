import UefiBoot.Lib.Run
import UefiBoot.Lib.XorLinear

/-!
# `Security.Random` — the random generator of `security.cpp` and the stack canary

`SeedSecureRandom` scrambles the seed with two odd factors between three xor-shifts, and `SecureRandom64` is
a xorshift generator on 64 bits. A zero state would be a fixed point, and a zero draw is how the callers are
told that there is no randomness; neither can come up, because seeding and every draw are bijections that
send only zero to zero.

That two draws in a row differ is the absence of any other fixed point. `kFixedPointCertificate` holds the
coefficients of the polynomial that inverts the generator plus the identity.
-/

namespace UefiBoot
namespace Security

open Lib.XorLinear

structure RandomGenerator where
  state  : UInt64 := 0
  seeded : Bool := false

structure StackCanary where
  value  : UInt64 := 0
  active : Bool := false

/-- `g_Random` and `g_StackCanary`. -/
structure Secrets where
  random      : RandomGenerator := {}
  stackCanary : StackCanary := {}

def kStackCanaryTerminator : UInt64 := 0x00FF0A0000000000

def mixSecurityEntropy (value : UInt64) : UInt64 :=
  let value := value ^^^ value >>> 33
  let value := value * 0xFF51AFD7ED558CCD
  let value := value ^^^ value >>> 33
  let value := value * 0xC4CEB9FE1A85EC53
  value ^^^ value >>> 33

/-- The three shifts of `SecureRandom64`. -/
def nextState (x : UInt64) : UInt64 :=
  let x := x ^^^ x <<< 13
  let x := x ^^^ x >>> 7
  x ^^^ x <<< 17

namespace Secrets

def seedSecureRandom (s : Secrets) (seed : UInt64) : Bool × Secrets :=
  if seed = 0 then (false, s)
  else
    let state := mixSecurityEntropy seed
    (state != 0, { s with random := { state := state, seeded := state != 0 } })

def secureRandom64 (s : Secrets) : UInt64 × Secrets :=
  if !s.random.seeded then (0, s)
  else
    let x := nextState s.random.state
    (x, { s with random := { s.random with state := x } })

def generateStackCanary (s : Secrets) (threadId : UInt64) : UInt64 × Secrets :=
  let (random, s) := s.secureRandom64
  if random = 0 ∨ threadId = 0 then (0, s)
  else
    let value := (random ^^^ threadId) ||| kStackCanaryTerminator
    (value, { s with stackCanary := { value := value, active := true } })

def checkStackCanary (s : Secrets) (expected observed : UInt64) : Bool :=
  s.stackCanary.active && expected == observed && observed == s.stackCanary.value

end Secrets

/-! ## The two functions on bits -/

theorem bijective_toBitVec : Function.Bijective UInt64.toBitVec :=
  ⟨fun _ _ h => UInt64.toBitVec_inj.mp h, fun b => ⟨UInt64.ofBitVec b, rfl⟩⟩

theorem bijective_ofBitVec : Function.Bijective UInt64.ofBitVec :=
  ⟨fun _ _ h => congrArg UInt64.toBitVec h, fun v => ⟨v.toBitVec, rfl⟩⟩

/-- `MixSecurityEntropy` as a composition of its steps. -/
def mixBits : BitVec 64 → BitVec 64 :=
  xorShiftRight 33 ∘ (fun x : BitVec 64 => x * 0xC4CEB9FE1A85EC53#64) ∘ xorShiftRight 33 ∘
    (fun x : BitVec 64 => x * 0xFF51AFD7ED558CCD#64) ∘ xorShiftRight 33

theorem mixSecurityEntropy_eq : mixSecurityEntropy = UInt64.ofBitVec ∘ mixBits ∘ UInt64.toBitVec := rfl

/-- **`MixSecurityEntropy` is a bijection.** The factors are given with their inverses modulo `2 ^ 64`. -/
theorem bijective_mixSecurityEntropy : Function.Bijective mixSecurityEntropy := by
  have hshift : Function.Bijective (xorShiftRight (w := 64) 33) := bijective_xorShiftRight (by decide)
  have hfirst : Function.Bijective fun x : BitVec 64 => x * 0xFF51AFD7ED558CCD#64 :=
    bijective_mul (d := 0x4F74430C22A54005#64) (by decide)
  have hsecond : Function.Bijective fun x : BitVec 64 => x * 0xC4CEB9FE1A85EC53#64 :=
    bijective_mul (d := 0x9CB4B2F8129337DB#64) (by decide)
  rw [mixSecurityEntropy_eq]
  exact bijective_ofBitVec.comp
    ((hshift.comp (hsecond.comp (hshift.comp (hfirst.comp hshift)))).comp bijective_toBitVec)

theorem mixSecurityEntropy_zero : mixSecurityEntropy 0 = 0 := rfl

theorem mixSecurityEntropy_eq_zero_iff (v : UInt64) : mixSecurityEntropy v = 0 ↔ v = 0 := by
  constructor
  · intro h
    exact bijective_mixSecurityEntropy.1 (h.trans mixSecurityEntropy_zero.symm)
  · intro h
    rw [h, mixSecurityEntropy_zero]

/-- The state transition as a composition of its steps. -/
def nextBits : BitVec 64 → BitVec 64 := xorShiftLeft 17 ∘ xorShiftRight 7 ∘ xorShiftLeft 13

theorem nextState_eq : nextState = UInt64.ofBitVec ∘ nextBits ∘ UInt64.toBitVec := rfl

theorem linear_nextBits : Linear nextBits :=
  (linear_xorShiftLeft 17).comp ((linear_xorShiftRight 7).comp (linear_xorShiftLeft 13))

theorem bijective_nextState : Function.Bijective nextState := by
  have hfirst : Function.Bijective (xorShiftLeft (w := 64) 13) := bijective_xorShiftLeft (by decide)
  have hsecond : Function.Bijective (xorShiftRight (w := 64) 7) := bijective_xorShiftRight (by decide)
  have hthird : Function.Bijective (xorShiftLeft (w := 64) 17) := bijective_xorShiftLeft (by decide)
  rw [nextState_eq]
  exact bijective_ofBitVec.comp ((hthird.comp (hsecond.comp hfirst)).comp bijective_toBitVec)

/-- The coefficients, lowest first, of the inverse of `nextBits + 1` as a polynomial in `nextBits`. -/
def kFixedPointCertificate : List Bool :=
  (List.range 64).map fun i => Nat.testBit 0xFF15B39EC870EE00 i

theorem fixedPointCertificate_ok : ∀ i < 64, evalAt nextBits kFixedPointCertificate
    (nextBits (BitVec.twoPow 64 i) ^^^ BitVec.twoPow 64 i) = BitVec.twoPow 64 i := by
  decide +kernel

/-- **The generator has no fixed point but zero.** -/
theorem nextState_ne {x : UInt64} (hx : x ≠ 0) : nextState x ≠ x := by
  intro hfix
  have hbits : nextBits x.toBitVec = x.toBitVec := congrArg UInt64.toBitVec hfix
  have hzero := linear_nextBits.eq_zero_of_fixed kFixedPointCertificate fixedPointCertificate_ok hbits
  exact hx (UInt64.toBitVec_inj.mp hzero)

theorem nextState_ne_zero {x : UInt64} (hx : x ≠ 0) : nextState x ≠ 0 := by
  intro h
  exact hx (bijective_nextState.1 h)

/-! ## Runs -/

/-- A call that draws from the generator. -/
inductive Draw where
  | secureRandom64
  | generateStackCanary (threadId : UInt64)

namespace Secrets

def draw (s : Secrets) : Draw → Secrets
  | .secureRandom64               => s.secureRandom64.2
  | .generateStackCanary threadId => (s.generateStackCanary threadId).2

/-- What `SecureRandom64` returns in a run of such calls, each of which calls it once. -/
def values (s : Secrets) : List Draw → List UInt64
  | []          => []
  | d :: draws  => s.secureRandom64.1 :: values (s.draw d) draws

/-- The generator has been seeded. -/
def Seeded (s : Secrets) : Prop := s.random.seeded = true ∧ s.random.state ≠ 0

variable {s : Secrets} {seed : UInt64}

theorem seedSecureRandom_seeded (s : Secrets) (hseed : seed ≠ 0) :
    (s.seedSecureRandom seed).1 = true ∧ (s.seedSecureRandom seed).2.Seeded ∧
    (s.seedSecureRandom seed).2.random.state = mixSecurityEntropy seed := by
  have hmix : mixSecurityEntropy seed ≠ 0 := mt (mixSecurityEntropy_eq_zero_iff seed).mp hseed
  have htrue : (mixSecurityEntropy seed != 0) = true := bne_iff_ne.mpr hmix
  unfold seedSecureRandom Seeded
  rw [if_neg hseed]
  exact ⟨htrue, ⟨htrue, hmix⟩, rfl⟩

theorem Seeded.secureRandom64 (h : s.Seeded) : s.secureRandom64.1 = nextState s.random.state ∧
    s.secureRandom64.2.random = { s.random with state := nextState s.random.state } := by
  unfold Secrets.secureRandom64
  rw [if_neg (by simp [h.1])]
  exact ⟨rfl, rfl⟩

/-- Whichever call draws, the generator goes one state on. -/
theorem Seeded.draw (h : s.Seeded) (d : Draw) : (s.draw d).Seeded ∧
    (s.draw d).random.state = nextState s.random.state := by
  have hrandom : (s.draw d).random = { s.random with state := nextState s.random.state } := by
    cases d with
    | secureRandom64 => exact h.secureRandom64.2
    | generateStackCanary threadId =>
        rw [← h.secureRandom64.2]
        unfold Secrets.draw Secrets.generateStackCanary
        dsimp only
        split <;> rfl
  unfold Seeded
  rw [hrandom]
  exact ⟨⟨h.1, nextState_ne_zero h.2⟩, rfl⟩

theorem Seeded.run (h : s.Seeded) (draws : List Draw) : (Lib.run Secrets.draw s draws).Seeded := by
  have hstep : ∀ s d, Seeded s → Seeded (Secrets.draw s d) := fun _ d hs => (hs.draw d).1
  exact Lib.run_invariant hstep h draws

/-- The state, followed by the values that are drawn from it, never repeats from one to the next. -/
theorem Seeded.values (h : s.Seeded) (draws : List Draw) :
    (∀ v ∈ s.values draws, v ≠ 0) ∧ (s.random.state :: s.values draws).IsChain (· ≠ ·) := by
  induction draws generalizing s with
  | nil =>
      refine ⟨fun v hv => absurd hv (List.not_mem_nil), List.isChain_singleton _⟩
  | cons d draws ih =>
      obtain ⟨hseeded, hstate⟩ := h.draw d
      obtain ⟨hnz, hchain⟩ := ih hseeded
      have hvalue := h.secureRandom64.1
      unfold Secrets.values
      rw [hvalue]
      constructor
      · intro v hv
        rcases List.mem_cons.mp hv with rfl | hv
        · exact nextState_ne_zero h.2
        · exact hnz v hv
      · rw [List.isChain_cons_cons]
        rw [hstate] at hchain
        exact ⟨Ne.symm (nextState_ne h.2), hchain⟩

theorem Seeded.generateStackCanary (h : s.Seeded) {threadId : UInt64} (hthread : threadId ≠ 0) :
    (s.generateStackCanary threadId).1 ≠ 0 := by
  have hrandom : s.secureRandom64.1 ≠ 0 := by
    rw [h.secureRandom64.1]
    exact nextState_ne_zero h.2
  unfold Secrets.generateStackCanary
  dsimp only
  rw [if_neg (not_or_intro hrandom hthread)]
  -- the bits of the terminator are set in every canary
  intro hz
  have hbit := congrArg (fun v : UInt64 => v.toBitVec.getLsbD 41) hz
  simp [kStackCanaryTerminator] at hbit

/-- **The generator does not degenerate.** Mixing is a bijection that sends only zero to zero, so every seed but
    zero is accepted; from then on no draw is zero or repeats the one before it (the first one differs from the
    mixed seed), and no stack canary fails for lack of randomness. -/
theorem never_degenerates : Function.Bijective mixSecurityEntropy ∧ (∀ v, mixSecurityEntropy v = 0 ↔ v = 0) ∧
    ∀ (s : Secrets) (seed : UInt64), seed ≠ 0 → (s.seedSecureRandom seed).1 = true ∧
      ∀ draws : List Draw,
        (∀ v ∈ (s.seedSecureRandom seed).2.values draws, v ≠ 0) ∧
        (mixSecurityEntropy seed :: (s.seedSecureRandom seed).2.values draws).IsChain (· ≠ ·) ∧
        ∀ threadId, threadId ≠ 0 →
          ((Lib.run Secrets.draw (s.seedSecureRandom seed).2 draws).generateStackCanary threadId).1 ≠ 0 := by
  refine ⟨bijective_mixSecurityEntropy, mixSecurityEntropy_eq_zero_iff, fun s seed hseed => ?_⟩
  obtain ⟨htrue, hseeded, hstate⟩ := seedSecureRandom_seeded s hseed
  refine ⟨htrue, fun draws => ?_⟩
  obtain ⟨hnz, hchain⟩ := hseeded.values draws
  rw [hstate] at hchain
  exact ⟨hnz, hchain, fun threadId hthread => (hseeded.run draws).generateStackCanary hthread⟩

/-- The seed and the draws of `RunSecureRandomSelfTest`. -/
theorem never_degenerates_selfTest :
    (({} : Secrets).seedSecureRandom 0xA5A55A5ADEADBEEF).1 = true ∧
    ∀ v ∈ (({} : Secrets).seedSecureRandom 0xA5A55A5ADEADBEEF).2.values [.secureRandom64, .secureRandom64], v ≠ 0 :=
  have h := never_degenerates.2.2 {} 0xA5A55A5ADEADBEEF (by decide)
  ⟨h.1, (h.2 [.secureRandom64, .secureRandom64]).1⟩

end Secrets

/-! ## The canary and other threads

There is one place for a canary, and the canary of the thread that asked last is in it. -/

/-- A call of the generator, of any thread. -/
inductive Call where
  | seedSecureRandom (seed : UInt64)
  | secureRandom64
  | generateStackCanary (threadId : UInt64)

namespace Secrets

def call (s : Secrets) : Call → Secrets
  | .seedSecureRandom seed        => (s.seedSecureRandom seed).2
  | .secureRandom64               => s.secureRandom64.2
  | .generateStackCanary threadId => (s.generateStackCanary threadId).2

/-- The call generates a canary, for whatever thread, and it is not `c`. -/
def Overwrites (c : UInt64) (s : Secrets) : Call → Prop
  | .generateStackCanary threadId =>
    s.random.seeded = true ∧ nextState s.random.state ≠ 0 ∧ threadId ≠ 0 ∧
      (nextState s.random.state ^^^ threadId) ||| kStackCanaryTerminator ≠ c
  | _ => False

variable {s : Secrets} {c threadId : UInt64}

theorem checkStackCanary_self :
    s.checkStackCanary c c = true ↔ s.stackCanary.active = true ∧ c = s.stackCanary.value := by
  unfold checkStackCanary
  rw [Bool.and_eq_true, Bool.and_eq_true, beq_self_eq_true, beq_iff_eq, and_iff_left rfl]

/-- What a draw finds. -/
theorem secureRandom64_ne_zero : s.secureRandom64.1 ≠ 0 ↔ s.random.seeded = true ∧ nextState s.random.state ≠ 0 := by
  unfold secureRandom64
  cases s.random.seeded <;> simp

theorem secureRandom64_eq (h : s.random.seeded = true) : s.secureRandom64.1 = nextState s.random.state := by
  unfold secureRandom64
  rw [if_neg (by simp [h])]

theorem random_stackCanary (s : Secrets) (random : RandomGenerator) :
    ({ s with random := random } : Secrets).stackCanary = s.stackCanary := rfl

@[simp] theorem secureRandom64_stackCanary : s.secureRandom64.2.stackCanary = s.stackCanary := by
  unfold secureRandom64
  cases s.random.seeded with
  | false => rfl
  | true => exact random_stackCanary s _

theorem seedSecureRandom_stackCanary (seed : UInt64) : (s.seedSecureRandom seed).2.stackCanary = s.stackCanary := by
  unfold seedSecureRandom
  by_cases h : seed = 0
  · simp only [if_pos h]
  · simp only [if_neg h, random_stackCanary]

theorem generateStackCanary_fails (h : ¬ (s.secureRandom64.1 ≠ 0 ∧ threadId ≠ 0)) :
    (s.generateStackCanary threadId).1 = 0 ∧ (s.generateStackCanary threadId).2.stackCanary = s.stackCanary := by
  unfold generateStackCanary
  dsimp only
  rw [if_pos (by tauto)]
  exact ⟨rfl, secureRandom64_stackCanary⟩

theorem generateStackCanary_succeeds (hrandom : s.secureRandom64.1 ≠ 0) (hthread : threadId ≠ 0) :
    (s.generateStackCanary threadId).1 = (s.secureRandom64.1 ^^^ threadId) ||| kStackCanaryTerminator ∧
    (s.generateStackCanary threadId).2.stackCanary =
      { value := (s.secureRandom64.1 ^^^ threadId) ||| kStackCanaryTerminator, active := true } := by
  unfold generateStackCanary
  dsimp only
  rw [if_neg (not_or_intro hrandom hthread)]
  exact ⟨rfl, rfl⟩

theorem generateStackCanary_checks (hc : (s.generateStackCanary threadId).1 = c) (hne : c ≠ 0) :
    (s.generateStackCanary threadId).2.checkStackCanary c c = true := by
  by_cases h : s.secureRandom64.1 ≠ 0 ∧ threadId ≠ 0
  · obtain ⟨hvalue, hplace⟩ := generateStackCanary_succeeds h.1 h.2
    rw [checkStackCanary_self, hplace]
    exact ⟨rfl, hc.symm.trans hvalue⟩
  · exact absurd (hc.symm.trans (generateStackCanary_fails h).1) hne

/-- One call keeps a canary valid exactly if it does not put another one in its place. -/
theorem checkStackCanary_call_iff (hs : s.checkStackCanary c c = true) (call : Call) :
    (s.call call).checkStackCanary c c = true ↔ ¬ Overwrites c s call := by
  rw [checkStackCanary_self] at hs ⊢
  cases call with
  | seedSecureRandom seed =>
      show (s.seedSecureRandom seed).2.stackCanary.active = true ∧ _ ↔ ¬ False
      rw [show s.call (.seedSecureRandom seed) = (s.seedSecureRandom seed).2 from rfl, seedSecureRandom_stackCanary]
      exact iff_of_true hs not_false
  | secureRandom64 =>
      rw [show s.call .secureRandom64 = s.secureRandom64.2 from rfl, secureRandom64_stackCanary]
      exact iff_of_true hs not_false
  | generateStackCanary threadId =>
      rw [show s.call (.generateStackCanary threadId) = (s.generateStackCanary threadId).2 from rfl]
      unfold Overwrites
      dsimp only
      by_cases h : s.secureRandom64.1 ≠ 0 ∧ threadId ≠ 0
      · have hseeded := secureRandom64_ne_zero.mp h.1
        rw [(generateStackCanary_succeeds h.1 h.2).2, secureRandom64_eq hseeded.1]
        tauto
      · rw [(generateStackCanary_fails h).2]
        rw [secureRandom64_ne_zero] at h
        tauto

/-- The generator after the seed of `RunSecureRandomSelfTest`. -/
def seeded : Secrets := (({} : Secrets).seedSecureRandom 0xA5A55A5ADEADBEEF).2

end Secrets
end Security
end UefiBoot
