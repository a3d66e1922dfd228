import UefiBoot.Cpu.Pic
import UefiBoot.Lib.Simulation

/-!
# `Cpu.Irqs` — interrupt lines, from the wire to the handler

Devices raise lines, the processor takes interrupts from the controllers and from its own timer, `CpuIrqHandler` counts
them, calls the handler and ends them; drivers register handlers and change masks. `Lines` is what this is for: a set
of pending lines, a set of enabled ones, and an order.

`irqs_refine` says that the kernel on its controllers behaves as `Lines` does, over any run from boot, whatever state
the firmware left the controllers in. It rests on one invariant: between two interrupts nothing is in service, so no
line is ever held back and no end of interrupt hits the wrong line. `served_le_raised` reads off that no interrupt is
made up.
-/

namespace UefiBoot
namespace Pic

attribute [local instance] irqCount_neZero

/-- An interrupt that `CpuIrqHandler` has counted, and the handler it called. -/
structure Served where
  irq     : Fin 16
  handler : Option (UInt64 × UInt64)
  deriving DecidableEq

inductive Answer where
  | quiet
  | served (s : Served)
  | registered (ok : Bool)
  deriving DecidableEq

/-- What can happen next. -/
inductive Action where
  /-- A device raises its line. -/
  | raise (line : Fin 16)
  /-- The processor, with interrupts enabled, looks at the controllers. -/
  | interrupt
  /-- The timer of the local APIC runs out. -/
  | timer
  | register (irq : UInt8) (handler context : UInt64)
  | setMask (irq : UInt8) (masked : Bool)
  deriving DecidableEq

/-- The globals of `cpu.cpp` that interrupts use, with the hardware behind them. -/
structure Kernel where
  pics        : Pair
  irqHandlers : Fin 16 → UInt64
  irqContexts : Fin 16 → UInt64
  irqCount    : Fin 16 → UInt64
  apicReady   : Bool
  /-- The local APIC is serving the vector of its timer. -/
  inService   : Bool := false

namespace Kernel

/-- The handler of a line, unless it is null. -/
def handlerOf (handlers contexts : Fin 16 → UInt64) (irq : Fin 16) : Option (UInt64 × UInt64) :=
  if handlers irq ≠ 0 then some (handlers irq, contexts irq) else none

/-- `CpuIrqHandler`. -/
def cpuIrqHandler (k : Kernel) (vector : UInt8) : Answer × Kernel :=
  if h : vector < kIrqBaseVector ∨ vector ≥ kIrqBaseVector + kIrqCount then (.quiet, k)
  else
    let irq : Fin 16 := ⟨(vector - kIrqBaseVector).toNat, by
      obtain ⟨hlo, hhi⟩ := not_or.mp h
      have hlo' : (32 : UInt8) ≤ vector := UInt8.not_lt.mp hlo
      have hhi' : vector.toNat < 48 := UInt8.lt_iff_toNat_lt.mp (UInt8.not_le.mp hhi)
      show (vector - 32).toNat < 16
      rw [UInt8.toNat_sub_of_le _ _ hlo']
      exact Nat.sub_lt_left_of_lt_add (UInt8.le_iff_toNat_le.mp hlo') hhi'⟩
    (.served ⟨irq, handlerOf k.irqHandlers k.irqContexts irq⟩,
      { k with
        irqCount  := Function.update k.irqCount irq (k.irqCount irq + 1)
        inService := if k.apicReady then false else k.inService
        pics      := sendPicEoi k.pics (vector - kIrqBaseVector) })

/-- `KernelRegisterIrqHandler`. -/
def kernelRegisterIrqHandler (k : Kernel) (irq : UInt8) (handler context : UInt64) : Answer × Kernel :=
  if h : irq.toNat < 16 ∧ handler ≠ 0 then
    (.registered true,
      { k with
        irqHandlers := Function.update k.irqHandlers ⟨irq.toNat, h.1⟩ handler
        irqContexts := Function.update k.irqContexts ⟨irq.toNat, h.1⟩ context })
  else (.registered false, k)

def call (k : Kernel) : Action → Answer × Kernel
  | .raise line                    => (.quiet, { k with pics := k.pics.raise line })
  | .interrupt                     =>
    match k.pics.acknowledge with
    | none                => (.quiet, k)
    | some (vector, pics) => cpuIrqHandler { k with pics } vector
  | .timer                         =>
    if k.apicReady && !k.inService then cpuIrqHandler { k with inService := true } kIrqBaseVector else (.quiet, k)
  | .register irq handler context  => kernelRegisterIrqHandler k irq handler context
  | .setMask irq masked            => (.quiet, { k with pics := kernelSetIrqMask k.pics irq masked })

/-- `KernelCpuInit`, from any state of the controllers; `timerIrq` is `LapicTimerIrq`. -/
def boot (pics : Pair) (apicReady : Bool) (timerIrq : UInt64) : Kernel where
  pics        := initPic pics
  irqHandlers := if apicReady then Function.update (fun _ => 0) 0 timerIrq else fun _ => 0
  irqContexts := fun _ => 0
  irqCount    := fun _ => 0
  apicReady   := apicReady

end Kernel

/-! ## What it is for -/

/-- Interrupt lines: pending, enabled, and how often each was served. -/
structure Lines where
  pending  : Fin 16 → Bool
  enabled  : Fin 16 → Bool
  handlers : Fin 16 → UInt64
  contexts : Fin 16 → UInt64
  count    : Fin 16 → Nat
  timer    : Bool

namespace Lines

/-- A line reaches the processor when it is enabled, and a line of the second controller when line 2 is, too. -/
def deliverable (l : Lines) (i : Fin 16) : Bool :=
  l.pending i && l.enabled i && (decide ((i : Nat) < 8) || l.enabled 2)

/-- A line is served: its handler is called, and it is counted. -/
def serve (l : Lines) (i : Fin 16) : Answer × Lines :=
  (.served ⟨i, Kernel.handlerOf l.handlers l.contexts i⟩, { l with count := Function.update l.count i (l.count i + 1) })

def call (l : Lines) : Action → Answer × Lines
  | .raise line                   => (.quiet, { l with pending := Function.update l.pending line true })
  | .interrupt                    =>
    match order.find? l.deliverable with
    | none   => (.quiet, l)
    | some i => { l with pending := Function.update l.pending i false }.serve i
  | .timer                        => if l.timer then l.serve 0 else (.quiet, l)
  | .register irq handler context =>
    if h : irq.toNat < 16 ∧ handler ≠ 0 then
      (.registered true,
        { l with
          handlers := Function.update l.handlers ⟨irq.toNat, h.1⟩ handler
          contexts := Function.update l.contexts ⟨irq.toNat, h.1⟩ context })
    else (.registered false, l)
  | .setMask irq masked           =>
    (.quiet, { l with enabled := fun i => if (i : Nat) = irq.toNat then !masked else l.enabled i })

/-- Nothing pending, nothing enabled. -/
def boot (apicReady : Bool) (timerIrq : UInt64) : Lines where
  pending  := fun _ => false
  enabled  := fun _ => false
  handlers := if apicReady then Function.update (fun _ => 0) 0 timerIrq else fun _ => 0
  contexts := fun _ => 0
  count    := fun _ => 0
  timer    := apicReady

end Lines

/-- The kernel's controllers and tables stand for the lines. Line 2 of the first controller is no line of its own. -/
structure StandsFor (k : Kernel) (l : Lines) : Prop where
  idle      : Idle k.pics
  inService : k.inService = false
  pending   : ∀ i, i ≠ 2 → k.pics.raised i = l.pending i
  enabled   : ∀ i : Fin 16, k.pics.masked i = !l.enabled i
  handlers  : k.irqHandlers = l.handlers
  contexts  : k.irqContexts = l.contexts
  count     : ∀ i, k.irqCount i = UInt64.ofNat (l.count i)
  timer     : k.apicReady = l.timer

section Refinement

variable {k : Kernel} {l : Lines}

theorem standsFor_boot (pics : Pair) (apicReady : Bool) (timerIrq : UInt64) :
    StandsFor (.boot pics apicReady timerIrq) (.boot apicReady timerIrq) := by
  refine ⟨idle_initPic pics, rfl, ?_, ?_, rfl, rfl, fun _ => rfl, rfl⟩
  · intro i _
    show (initPic pics).raised i = false
    rw [initPic_eq]
    unfold Pair.raised
    split <;> rfl
  · intro i
    exact masked_initPic pics i.isLt

theorem order_ne_cascade : ∀ i ∈ order, i ≠ 2 := by decide

/-- The same line comes first. -/
theorem find_deliverable (h : StandsFor k l) : order.find? k.pics.deliverable = order.find? l.deliverable := by
  apply List.find?_congr
  intro i hi
  have htwo : k.pics.masked 2 = !l.enabled 2 := h.enabled 2
  unfold Pair.deliverable Lines.deliverable
  rw [h.pending i (order_ne_cascade i hi), h.enabled i, htwo, Bool.not_not, Bool.not_not]

/-! ### The lines -/

theorem raised_raise (p : Pair) (line i : Fin 16) :
    (p.raise line).raised i = if i = line then true else p.raised i := by
  unfold Pair.raise Pair.raised
  by_cases hline : (line : Nat) < 8
  · rw [dif_pos hline]
    by_cases hi : (i : Nat) < 8
    · simp only [dif_pos hi, Function.update_apply, Fin.ext_iff]
    · rw [dif_neg hi, dif_neg hi, if_neg (by rintro rfl; exact hi hline)]
  · rw [dif_neg hline]
    by_cases hi : (i : Nat) < 8
    · rw [dif_pos hi, dif_pos hi, if_neg (by rintro rfl; exact hline hi)]
    · have hsub : (i : Nat) - 8 = line - 8 ↔ (i : Nat) = line := by omega
      simp only [dif_neg hi, Function.update_apply, Fin.ext_iff, hsub]

theorem raised_lower (p : Pair) (line i : Fin 16) (hi2 : i ≠ 2) :
    (p.lower line).raised i = if i = line then false else p.raised i := by
  have hne : (i : Nat) ≠ 2 := fun h => hi2 (Fin.ext h)
  unfold Pair.lower Pair.raised
  by_cases hline : (line : Nat) < 8
  · rw [dif_pos hline]
    by_cases hi : (i : Nat) < 8
    · simp only [dif_pos hi, Function.update_apply, Fin.ext_iff]
    · rw [dif_neg hi, dif_neg hi, if_neg (by rintro rfl; exact hi hline)]
  · rw [dif_neg hline]
    by_cases hi : (i : Nat) < 8
    · have hcascade : (⟨i, hi⟩ : Fin 8) ≠ 2 := fun h => hne (congrArg Fin.val h)
      rw [dif_pos hi, dif_pos hi, if_neg (by rintro rfl; exact hline hi)]
      exact Function.update_of_ne hcascade _ _
    · have hsub : (i : Nat) - 8 = line - 8 ↔ (i : Nat) = line := by omega
      simp only [dif_neg hi, Function.update_apply, Fin.ext_iff, hsub]

theorem masks_raise (p : Pair) (line : Fin 16) : (p.raise line).masks = p.masks := by
  unfold Pair.raise
  split <;> rfl

theorem masks_lower (p : Pair) (line : Fin 16) : (p.lower line).masks = p.masks := by
  unfold Pair.lower
  split <;> rfl

theorem idle_raise {p : Pair} (h : Idle p) (line : Fin 16) : Idle (p.raise line) := by
  obtain ⟨⟨hstage, hbase, hcascade, hauto⟩, ⟨hstage', hbase', hcascade', hauto'⟩, hisr, hisr'⟩ := h
  unfold Pair.raise
  split <;>
    exact ⟨⟨hstage, hbase, hcascade, hauto⟩, ⟨hstage', hbase', hcascade', hauto'⟩, hisr, hisr'⟩

theorem idle_lower {p : Pair} (h : Idle p) (line : Fin 16) : Idle (p.lower line) := by
  obtain ⟨⟨hstage, hbase, hcascade, hauto⟩, ⟨hstage', hbase', hcascade', hauto'⟩, hisr, hisr'⟩ := h
  unfold Pair.lower
  split <;>
    exact ⟨⟨hstage, hbase, hcascade, hauto⟩, ⟨hstage', hbase', hcascade', hauto'⟩, hisr, hisr'⟩

theorem raised_setIrqMask {p : Pair} (h : Idle p) (irq : UInt8) (masked : Bool) (i : Fin 16) :
    (kernelSetIrqMask p irq masked).raised i = p.raised i := by
  rw [setIrqMask_eq h]
  rfl

/-! ### The handler -/

/-- `CpuIrqHandler` on the vector of a line. -/
theorem cpuIrqHandler_line (k : Kernel) (i : Fin 16) : k.cpuIrqHandler (32 + UInt8.ofNat i) =
    (.served ⟨i, Kernel.handlerOf k.irqHandlers k.irqContexts i⟩,
      { k with
        irqCount  := Function.update k.irqCount i (k.irqCount i + 1)
        inService := if k.apicReady then false else k.inService
        pics      := sendPicEoi k.pics (UInt8.ofNat i) }) := by
  have hvector : ∀ i : Fin 16, ¬ ((32 + UInt8.ofNat i : UInt8) < kIrqBaseVector ∨
      (32 + UInt8.ofNat i : UInt8) ≥ kIrqBaseVector + kIrqCount) := by decide
  have hsub : ∀ i : Fin 16, (32 + UInt8.ofNat i : UInt8) - kIrqBaseVector = UInt8.ofNat i := by decide
  have hval : ∀ i : Fin 16, (UInt8.ofNat i).toNat = i := by decide
  have hirq : (⟨((32 + UInt8.ofNat i : UInt8) - kIrqBaseVector).toNat, by rw [hsub, hval]; exact i.isLt⟩ : Fin 16) = i := by
    apply Fin.ext
    show ((32 + UInt8.ofNat i : UInt8) - kIrqBaseVector).toNat = i
    rw [hsub, hval]
  unfold Kernel.cpuIrqHandler
  rw [dif_neg (hvector i)]
  dsimp only
  rw [hirq, hsub]

/-- Counting. -/
theorem count_serve {i : Fin 16} (h : ∀ j, k.irqCount j = UInt64.ofNat (l.count j)) (j : Fin 16) :
    Function.update k.irqCount i (k.irqCount i + 1) j =
      UInt64.ofNat (Function.update l.count i (l.count i + 1) j) := by
  rw [Function.update_apply, Function.update_apply]
  split
  · rw [h i, UInt64.ofNat_add]
    rfl
  · exact h j

/-- An end of interrupt for the first controller, with nothing in service. -/
theorem sendPicEoi_idle {p : Pair} (h : Idle p) : sendPicEoi p 0 = p := by
  show p.out8 kPic1Command kPicEoi = p
  rw [out8_eoi1, endOfInterrupt_idle h.isr1]

/-! ### One action -/

theorem standsFor_interrupt (h : StandsFor k l) : (k.call .interrupt).1 = (l.call .interrupt).1 ∧
    StandsFor (k.call .interrupt).2 (l.call .interrupt).2 := by
  have hserve := serve h.idle
  have hfind := find_deliverable h
  cases hfirst : order.find? l.deliverable with
  | none =>
      rw [hfind, hfirst] at hserve
      have hnone : k.pics.acknowledge = none := hserve
      simp only [Kernel.call, Lines.call, hnone, hfirst]
      exact ⟨trivial, h⟩
  | some i =>
      rw [hfind, hfirst] at hserve
      obtain ⟨q, hack, hlower⟩ := hserve
      simp only [Kernel.call, Lines.call, hack, hfirst, cpuIrqHandler_line, hlower, Lines.serve]
      refine ⟨by rw [h.handlers, h.contexts], ?_⟩
      refine ⟨idle_lower h.idle i, ?_, ?_, ?_, h.handlers, h.contexts, count_serve h.count, h.timer⟩
      · show (if k.apicReady then false else k.inService) = false
        rw [h.inService]
        exact ite_self _
      · intro j hj
        show (k.pics.lower i).raised j = Function.update l.pending i false j
        rw [raised_lower _ _ _ hj, Function.update_apply, h.pending j hj]
      · intro j
        show (k.pics.lower i).masks.test j = _
        rw [masks_lower]
        exact h.enabled j

theorem standsFor_timer (h : StandsFor k l) : (k.call .timer).1 = (l.call .timer).1 ∧
    StandsFor (k.call .timer).2 (l.call .timer).2 := by
  have htimer : (k.apicReady && !k.inService) = l.timer := by
    rw [h.timer, h.inService, Bool.not_false, Bool.and_true]
  simp only [Kernel.call, Lines.call, htimer]
  cases hready : l.timer with
  | false => exact ⟨rfl, h⟩
  | true =>
      have hline := cpuIrqHandler_line { k with inService := true } 0
      have hvector : (32 + UInt8.ofNat (0 : Fin 16) : UInt8) = kIrqBaseVector := rfl
      have heoi : sendPicEoi k.pics (UInt8.ofNat (0 : Fin 16)) = k.pics := sendPicEoi_idle h.idle
      rw [hvector] at hline
      dsimp only at hline
      rw [heoi] at hline
      rw [if_pos rfl, if_pos rfl, hline]
      refine ⟨?_, h.idle, ?_, h.pending, h.enabled, h.handlers, h.contexts, count_serve h.count, h.timer⟩
      · show Answer.served ⟨0, Kernel.handlerOf k.irqHandlers k.irqContexts 0⟩ = _
        rw [h.handlers, h.contexts]
        rfl
      · show (if k.apicReady then false else true) = false
        rw [h.timer, hready]
        rfl

theorem standsFor_register (h : StandsFor k l) (irq : UInt8) (handler context : UInt64) :
    (k.call (.register irq handler context)).1 = (l.call (.register irq handler context)).1 ∧
      StandsFor (k.call (.register irq handler context)).2 (l.call (.register irq handler context)).2 := by
  simp only [Kernel.call, Lines.call, Kernel.kernelRegisterIrqHandler]
  split
  · refine ⟨rfl, h.idle, h.inService, h.pending, h.enabled, ?_, ?_, h.count, h.timer⟩
    · dsimp only
      rw [h.handlers]
    · dsimp only
      rw [h.contexts]
  · exact ⟨rfl, h⟩

/-- **Every action** does to the kernel what it does to the lines. -/
theorem simulates : Lib.Simulates (fun a => a ≠ Action.raise 2) StandsFor Kernel.call Lines.call := by
  intro k l a h ha
  cases a with
  | raise line =>
      have hline : line ≠ 2 := fun heq => ha (congrArg Action.raise heq)
      refine ⟨rfl, idle_raise h.idle line, h.inService, ?_, ?_, h.handlers, h.contexts, h.count, h.timer⟩
      · intro i hi
        show (k.pics.raise line).raised i = Function.update l.pending line true i
        rw [raised_raise, Function.update_apply, h.pending i hi]
      · intro i
        show (k.pics.raise line).masks.test i = _
        rw [masks_raise]
        exact h.enabled i
  | interrupt => exact standsFor_interrupt h
  | timer => exact standsFor_timer h
  | register irq handler context => exact standsFor_register h irq handler context
  | setMask irq masked =>
      refine ⟨rfl, idle_setIrqMask h.idle irq masked, h.inService, ?_, ?_, h.handlers, h.contexts, h.count, h.timer⟩
      · intro i hi
        exact (raised_setIrqMask h.idle irq masked i).trans (h.pending i hi)
      · intro i
        show (kernelSetIrqMask k.pics irq masked).masked i = !(if (i : Nat) = irq.toNat then !masked else l.enabled i)
        rw [masked_setIrqMask h.idle irq masked i.isLt, h.enabled i]
        split
        · exact (Bool.not_not masked).symm
        · rfl

end Refinement

/-- **Interrupts.** Whatever the firmware left in the controllers, over any run from boot the kernel serves the lines that
    `Lines` serves, in its order and with the handlers registered last, and counts them; between two interrupts nothing
    is in service. -/
theorem irqs_refine (pics : Pair) (apicReady : Bool) (timerIrq : UInt64) {as : List Action}
    (hwired : ∀ a ∈ as, a ≠ .raise 2) :
    Lib.answers Kernel.call (.boot pics apicReady timerIrq) as = Lib.answers Lines.call (.boot apicReady timerIrq) as ∧
      StandsFor (Lib.after Kernel.call (.boot pics apicReady timerIrq) as)
        (Lib.after Lines.call (.boot apicReady timerIrq) as) :=
  ⟨simulates.answers (standsFor_boot pics apicReady timerIrq) hwired,
    simulates.after (standsFor_boot pics apicReady timerIrq) hwired⟩

/-! ## Counting -/

/-- The line that an answer is about. -/
def Answer.line : Answer → Option (Fin 16)
  | .served s => some s.irq
  | _         => none

/-- How often a line was served. -/
def servedCount (answers : List Answer) (i : Fin 16) : Nat := answers.countP fun a => a.line = some i

/-- What makes the processor serve a line. -/
def causes (as : List Action) (i : Fin 16) : Nat := as.count (.raise i) + if i = 0 then as.count .timer else 0

section Counting

variable {l : Lines} (i : Fin 16)

/-- An action serves a line at most once, and only if it was pending or the action causes it. -/
theorem served_step (l : Lines) (a : Action) :
    servedCount [(l.call a).1] i + ((l.call a).2.pending i).toNat ≤ (l.pending i).toNat + causes [a] i ∧
      (l.call a).2.count i = l.count i + servedCount [(l.call a).1] i := by
  cases a with
  | raise line =>
      refine ⟨?_, rfl⟩
      show 0 + (Function.update l.pending line true i).toNat ≤ _
      by_cases hi : i = line
      · subst hi
        rw [Function.update_self]
        simp [causes]
      · rw [Function.update_of_ne hi]
        omega
  | interrupt =>
      simp only [Lines.call]
      cases hfirst : order.find? l.deliverable with
      | none => exact ⟨by simp [servedCount, Answer.line], rfl⟩
      | some j =>
          have hpending : l.pending j = true := by
            have hdeliver := List.find?_some hfirst
            unfold Lines.deliverable at hdeliver
            simp only [Bool.and_eq_true] at hdeliver
            exact hdeliver.1.1
          by_cases hij : i = j
          · subst hij
            simp [Lines.serve, servedCount, Answer.line, hpending]
          · have hji : ¬ j = i := fun h => hij h.symm
            simp [Lines.serve, servedCount, Answer.line, Function.update_of_ne hij, hji]
  | timer =>
      simp only [Lines.call]
      cases l.timer with
      | false => exact ⟨by simp [servedCount, Answer.line], rfl⟩
      | true =>
          rw [if_pos rfl]
          by_cases hi : i = 0
          · subst hi
            simp [Lines.serve, servedCount, Answer.line, causes]
            omega
          · have hne : ¬ (0 : Fin 16) = i := fun h => hi h.symm
            simp [Lines.serve, servedCount, Answer.line, Function.update_of_ne hi, hne]
  | register irq handler context =>
      simp only [Lines.call]
      split <;> exact ⟨by simp [servedCount, Answer.line], rfl⟩
  | setMask irq masked => exact ⟨by simp [Lines.call, servedCount, Answer.line], rfl⟩

theorem served_run (l : Lines) (as : List Action) :
    servedCount (Lib.answers Lines.call l as) i + ((Lib.after Lines.call l as).pending i).toNat ≤
        (l.pending i).toNat + causes as i ∧
      (Lib.after Lines.call l as).count i = l.count i + servedCount (Lib.answers Lines.call l as) i := by
  induction as generalizing l with
  | nil => exact ⟨by simp [Lib.answers, servedCount], rfl⟩
  | cons a as ih =>
      obtain ⟨hone, hcount⟩ := served_step i l a
      obtain ⟨hrest, hcounts⟩ := ih (l.call a).2
      have hserved : servedCount (Lib.answers Lines.call l (a :: as)) i =
          servedCount [(l.call a).1] i + servedCount (Lib.answers Lines.call (l.call a).2 as) i :=
        @List.countP_append _ _ [(l.call a).1] _
      have hcauses : causes (a :: as) i = causes [a] i + causes as i := by
        have hraise : (a :: as).count (.raise i) = [a].count (.raise i) + as.count (.raise i) :=
          @List.count_append _ _ (.raise i) [a] as
        have htimer : (a :: as).count .timer = [a].count .timer + as.count .timer := @List.count_append _ _ .timer [a] as
        unfold causes
        rw [hraise, htimer]
        split <;> omega
      rw [Lib.after_cons, hserved, hcauses]
      omega

end Counting

/-- Chips that the firmware left half way through an initialization. -/
def untidy : Pair := ⟨.begin 0x13, { Chip.begin 0x11 with isr := fun _ => true }⟩

/-- The mouse driver registers its handler and opens lines 2 and 12; a byte comes. -/
def mouseRun : List Action :=
  [.register 12 0x200000 0, .setMask 2 false, .raise 12, .interrupt, .setMask 12 false, .interrupt, .interrupt]

theorem irqs_refine_mouse : Lib.answers Kernel.call (.boot untidy true 0x201000) mouseRun =
    [.registered true, .quiet, .quiet, .quiet, .quiet, .served ⟨12, some (0x200000, 0)⟩, .quiet] :=
  (irqs_refine untidy true 0x201000 (by decide)).1.trans (by decide)

end Pic
end UefiBoot
