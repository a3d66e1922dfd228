import UefiBoot.Scheduler.ContextSwitch

/-!
# `Scheduler.ContextRuns` — threads that share a processor

Between two switches the running thread may do anything that leaves the contexts and the stacks of the others alone
(`Confined`). Then a thread that comes back has the registers, the return address, the extended state and the stack
that it left with (`resumes_as_left`), whatever the others did, and a new one starts in `ThreadTrampoline`, on its
own stack, aligned as the calling convention asks (`starts_fresh`). `Good` is the invariant, and each action has one
lemma that says what it does to the frames.
-/

namespace UefiBoot
namespace ContextSwitch

open Irq (Reg)
open Lib (Bytes ByteRange)
open Scheduler (kMaxThreads)

/-- Where the contexts of `g_Threads` are. -/
structure Layout where
  context : Fin kMaxThreads → UInt64
  fits    : ∀ t, (context t).toNat + kContextSize ≤ 2 ^ 64
  aligned : ∀ t, (context t).toNat % 64 = 0
  apart   : ∀ s t, s ≠ t → (contextRange (context s)).Apart (contextRange (context t))

/-- What the switches rest on: the unit, the mask that the feature bits give, where the contexts are, and where new
    threads start. -/
structure Platform (E : Type) where
  u                : ExtendedUnit E
  cpuXsaveMask     : UInt64
  threadTrampoline : UInt64
  layout           : Layout
  mask             : cpuXsaveMask = 0 ∨ cpuXsaveMask = 7
  documented       : u.Documented (formatOf cpuXsaveMask)

structure Machine (E : Type) where
  cpu     : Cpu E
  current : Fin kMaxThreads
  stack   : Fin kMaxThreads → ByteRange
  live    : Fin kMaxThreads → Bool
  fault   : Bool := false

/-- What can happen next. -/
inductive Action (E : Type) where
  /-- The running thread runs on, up to the given state of the processor. -/
  | work (cpu : Cpu E)
  /-- `PrepareInitialContext` for a thread with a new stack. -/
  | create (t : Fin kMaxThreads) (stack : ByteRange)
  /-- A slot is given up. -/
  | retire (t : Fin kMaxThreads)
  /-- `KernelSchedulerYield` calls `SchedulerContextSwitch`. -/
  | switchTo (t : Fin kMaxThreads) (returnAddress : UInt64)

variable {E : Type}

def step (p : Platform E) (m : Machine E) : Action E → Machine E
  | .work cpu => { m with cpu }
  | .create t stack =>
    match prepareInitialContext p.u p.cpuXsaveMask p.threadTrampoline m.cpu.extended m.cpu.mem (p.layout.context t)
      stack with
    | none     => { m with fault := true }
    | some mem =>
      { m with
        cpu   := { m.cpu with mem }
        stack := Function.update m.stack t stack
        live  := Function.update m.live t true }
  | .retire t => { m with live := Function.update m.live t false }
  | .switchTo t returnAddress =>
    match schedulerContextSwitch p.u p.cpuXsaveMask
      (m.cpu.call (p.layout.context m.current) (p.layout.context t) returnAddress) with
    | none     => { m with fault := true }
    | some cpu => { m with cpu, current := t }

/-- **What the code that runs between the switches keeps to.** It writes no context and no stack of another thread, a
    new thread gets a free slot and a stack of its own, and a switch goes to a thread that is there, from a stack with
    room for the return address. -/
def Confined (p : Platform E) (m : Machine E) : Action E → Prop
  | .work cpu =>
    (∀ t, ∀ a ∈ contextRange (p.layout.context t), cpu.mem a = m.cpu.mem a) ∧
      ∀ t, t ≠ m.current → m.live t = true → ∀ a ∈ m.stack t, cpu.mem a = m.cpu.mem a
  | .create t stack =>
    t ≠ m.current ∧ m.live t = false ∧ stack.start.toNat + stack.size < 2 ^ 64 ∧ 32 ≤ stack.size ∧
      (∀ s, m.live s = true → stack.Apart (m.stack s)) ∧ ∀ s, stack.Apart (contextRange (p.layout.context s))
  | .retire t => t ≠ m.current
  | .switchTo t _ =>
    t ≠ m.current ∧ m.live t = true ∧ ∀ a ∈ ByteRange.mk (m.cpu.regs .rsp - 8) 8, a ∈ m.stack m.current

/-- The frame of a thread, wherever it is. -/
def frameOf (p : Platform E) (m : Machine E) (t : Fin kMaxThreads) : Frame E :=
  if t = m.current then m.cpu.frame (m.stack t)
  else contextFrame p.u p.cpuXsaveMask m.cpu.mem (p.layout.context t) (m.stack t)

/-- **The invariant.** No instruction has faulted, the stacks of the threads are apart from each other and from the
    contexts, and every context that a switch may go to can be loaded. -/
structure Good (p : Platform E) (m : Machine E) : Prop where
  fault      : m.fault = false
  running    : m.live m.current = true
  apart      : ∀ s t, m.live s = true → m.live t = true → s ≠ t → (m.stack s).Apart (m.stack t)
  contexts   : ∀ s t, m.live s = true → (m.stack s).Apart (contextRange (p.layout.context t))
  header     : ∀ t, ReservedZero (areaAt m.cpu.mem (p.layout.context t + kExtendedStateOffset))
  slot       : ∀ t, t ≠ m.current → m.live t = true →
    ∀ a ∈ returnSlot m.cpu.mem (p.layout.context t), a ∈ m.stack t
  restorable : ∀ t, t ≠ m.current → m.live t = true →
    ∃ e, p.u.restoreAt (formatOf p.cpuXsaveMask) m.cpu.mem (p.layout.context t + kExtendedStateOffset) = some e

/-- The boot thread runs, and `g_Threads` is zero. -/
structure Boot (p : Platform E) (m : Machine E) : Prop where
  fault    : m.fault = false
  current  : m.current = 0
  live     : ∀ t, m.live t = decide (t = 0)
  contexts : ∀ t, (m.stack 0).Apart (contextRange (p.layout.context t))
  zero     : ∀ t, ∀ a ∈ contextRange (p.layout.context t), m.cpu.mem a = 0

section Steps

variable {p : Platform E} {m : Machine E}

theorem Boot.good (h : Boot p m) : Good p m := by
  have honly : ∀ t, m.live t = true → t = 0 := by
    intro t ht
    rw [h.live t] at ht
    exact of_decide_eq_true ht
  refine ⟨h.fault, ?_, ?_, ?_, ?_, ?_, ?_⟩
  · rw [h.live, h.current]
    rfl
  · intro s t hs ht hne
    exact absurd ((honly s hs).trans (honly t ht).symm) hne
  · intro s t hs
    rw [honly s hs]
    exact h.contexts t
  · intro t
    exact reservedZero_congr (m := fun _ => 0) (p.layout.fits t) (fun a ha _ => h.zero t a ha) fun _ _ _ => rfl
  · intro t hne ht
    exact absurd ((honly t ht).trans h.current.symm) hne
  · intro t hne ht
    exact absurd ((honly t ht).trans h.current.symm) hne

/-- A context reads the same while its bytes do. -/
theorem restoreAt_of_context {m' : Bytes} {t : Fin kMaxThreads}
    (h : ∀ a ∈ contextRange (p.layout.context t), m' a = m.cpu.mem a) :
    p.u.restoreAt (formatOf p.cpuXsaveMask) m' (p.layout.context t + kExtendedStateOffset) =
      p.u.restoreAt (formatOf p.cpuXsaveMask) m.cpu.mem (p.layout.context t + kExtendedStateOffset) := by
  have h64 : kExtendedStateOffset.toNat = 64 := rfl
  have hsize : kContextSize = 1088 := rfl
  have hsize' : kExtendedStateSize = 1024 := rfl
  exact restoreAt_congr p.documented fun a ha => h a (ByteRange.mem_of_part (by omega) ha)

theorem returnSlot_congr {m m' : Bytes} {context : UInt64} (h : ∀ a ∈ contextRange context, m' a = m a) :
    returnSlot m' context = returnSlot m context := by
  unfold returnSlot
  have hrsp := load_context_congr h rsp_mem
  dsimp only at hrsp
  rw [hrsp]

/-- **A suspended thread is as it was** when its context and its stack are. -/
theorem frameOf_congr (hg : Good p m) {m' : Machine E} {t : Fin kMaxThreads} (hne : t ≠ m.current)
    (hne' : t ≠ m'.current) (hlive : m.live t = true) (hstack : m'.stack t = m.stack t)
    (hcontext : ∀ a ∈ contextRange (p.layout.context t), m'.cpu.mem a = m.cpu.mem a)
    (hbytes : ∀ a ∈ m.stack t, m'.cpu.mem a = m.cpu.mem a) : frameOf p m' t = frameOf p m t := by
  unfold frameOf
  rw [if_neg hne, if_neg hne', hstack]
  exact contextFrame_congr p.documented hcontext hbytes (hg.slot t hne hlive)

/-! ### The running thread works -/

theorem good_work (hg : Good p m) {cpu : Cpu E} (hc : Confined p m (.work cpu)) : Good p (step p m (.work cpu)) := by
  obtain ⟨hcontexts, -⟩ := hc
  refine ⟨hg.fault, hg.running, hg.apart, hg.contexts, ?_, ?_, ?_⟩
  · intro t
    exact reservedZero_congr (p.layout.fits t) (fun a ha _ => hcontexts t a ha) (hg.header t)
  · intro t hne hlive a ha
    have hslot : returnSlot cpu.mem (p.layout.context t) = _ := returnSlot_congr (hcontexts t)
    refine hg.slot t hne hlive a ?_
    rw [← hslot]
    exact ha
  · intro t hne hlive
    obtain ⟨e, he⟩ := hg.restorable t hne hlive
    refine ⟨e, ?_⟩
    rw [← he]
    exact restoreAt_of_context (hcontexts t)

theorem frameOf_work (hg : Good p m) {cpu : Cpu E} (hc : Confined p m (.work cpu)) {t : Fin kMaxThreads}
    (hne : t ≠ m.current) (hlive : m.live t = true) : frameOf p (step p m (.work cpu)) t = frameOf p m t :=
  frameOf_congr hg hne hne hlive rfl (hc.1 t) (hc.2 t hne hlive)

/-! ### A thread is created -/

/-- What `create` leaves. -/
theorem step_create {t : Fin kMaxThreads} {stack : ByteRange} (hc : Confined p m (.create t stack)) :
    ∃ mem, step p m (.create t stack) =
        { m with
          cpu   := { m.cpu with mem }
          stack := Function.update m.stack t stack
          live  := Function.update m.live t true } ∧
      (∀ a, a ∉ contextRange (p.layout.context t) → a ∉ stack → mem a = m.cpu.mem a) ∧
      (contextFrame p.u p.cpuXsaveMask mem (p.layout.context t) stack).saved = freshSaved stack ∧
      (contextFrame p.u p.cpuXsaveMask mem (p.layout.context t) stack).rip = p.threadTrampoline ∧
      (contextFrame p.u p.cpuXsaveMask mem (p.layout.context t) stack).extended = some m.cpu.extended ∧
      (∀ a ∈ returnSlot mem (p.layout.context t), a ∈ stack) ∧
      ReservedZero (areaAt mem (p.layout.context t + kExtendedStateOffset)) := by
  obtain ⟨-, -, hfit, hsize, -, hcontexts⟩ := hc
  obtain ⟨mem, hprepare, hrest⟩ := prepareInitialContext_spec p.documented p.threadTrampoline m.cpu.extended
    (p.layout.fits t) (p.layout.aligned t) hfit hsize (hcontexts t)
  refine ⟨mem, ?_, hrest⟩
  simp only [step, hprepare]

/-- The contexts of the other threads. -/
theorem create_context {t s : Fin kMaxThreads} {stack : ByteRange} {mem : Bytes}
    (hc : Confined p m (.create t stack))
    (hout : ∀ a, a ∉ contextRange (p.layout.context t) → a ∉ stack → mem a = m.cpu.mem a) (hst : s ≠ t) :
    ∀ a ∈ contextRange (p.layout.context s), mem a = m.cpu.mem a := by
  obtain ⟨-, -, -, -, -, hcontexts⟩ := hc
  intro a ha
  exact hout a (p.layout.apart s t hst a ha) fun hin => hcontexts s a hin ha

theorem good_create (hg : Good p m) {t : Fin kMaxThreads} {stack : ByteRange}
    (hc : Confined p m (.create t stack)) : Good p (step p m (.create t stack)) := by
  obtain ⟨mem, hstep, hout, -, -, hext, hslot, hzero⟩ := step_create hc
  have hothers := fun s (hst : s ≠ t) => create_context hc hout hst
  obtain ⟨hcur, hfree, -, -, hstacks, hcontexts⟩ := hc
  have hlive : ∀ s, s ≠ t → Function.update m.live t true s = m.live s := fun s hs => Function.update_of_ne hs _ _
  have hstack : ∀ s, s ≠ t → Function.update m.stack t stack s = m.stack s := fun s hs => Function.update_of_ne hs _ _
  rw [hstep]
  refine ⟨hg.fault, ?_, ?_, ?_, ?_, ?_, ?_⟩
  · show Function.update m.live t true m.current = true
    rw [hlive _ (Ne.symm hcur)]
    exact hg.running
  · intro r s hr hs hrs
    dsimp only at hr hs ⊢
    by_cases hrt : r = t
    · subst hrt
      rw [hlive s (Ne.symm hrs)] at hs
      rw [Function.update_self, hstack s (Ne.symm hrs)]
      exact hstacks s hs
    · by_cases hst : s = t
      · subst hst
        rw [hlive r hrs] at hr
        rw [Function.update_self, hstack r hrs]
        exact (hstacks r hr).symm
      · rw [hlive r hrt] at hr
        rw [hlive s hst] at hs
        rw [hstack r hrt, hstack s hst]
        exact hg.apart r s hr hs hrs
  · intro r s hr
    dsimp only at hr ⊢
    by_cases hrt : r = t
    · subst hrt
      rw [Function.update_self]
      exact hcontexts s
    · rw [hlive r hrt] at hr
      rw [hstack r hrt]
      exact hg.contexts r s hr
  · intro s
    by_cases hst : s = t
    · subst hst
      exact hzero
    · exact reservedZero_congr (p.layout.fits s) (fun a ha _ => hothers s hst a ha) (hg.header s)
  · intro s hne hs a ha
    dsimp only at hs ha ⊢
    by_cases hst : s = t
    · subst hst
      rw [Function.update_self]
      exact hslot a ha
    · rw [hlive s hst] at hs
      rw [hstack s hst]
      rw [returnSlot_congr (hothers s hst)] at ha
      exact hg.slot s hne hs a ha
  · intro s hne hs
    dsimp only at hs ⊢
    by_cases hst : s = t
    · subst hst
      exact ⟨m.cpu.extended, hext⟩
    · rw [hlive s hst] at hs
      obtain ⟨e, he⟩ := hg.restorable s hne hs
      exact ⟨e, (restoreAt_of_context (hothers s hst)).trans he⟩

/-- A thread that is there does not notice a new one. -/
theorem frameOf_create (hg : Good p m) {t : Fin kMaxThreads} {stack : ByteRange}
    (hc : Confined p m (.create t stack)) {s : Fin kMaxThreads} (hne : s ≠ m.current) (hlive : m.live s = true) :
    frameOf p (step p m (.create t stack)) s = frameOf p m s := by
  obtain ⟨mem, hstep, hout, -⟩ := step_create hc
  have hst : s ≠ t := by
    rintro rfl
    rw [hc.2.1] at hlive
    exact Bool.noConfusion hlive
  have hothers := create_context hc hout hst
  obtain ⟨-, -, -, -, hstacks, -⟩ := hc
  have hstack : (step p m (.create t stack)).stack s = m.stack s := by
    rw [hstep]
    exact Function.update_of_ne hst _ _
  rw [hstep] at hstack ⊢
  refine frameOf_congr hg hne hne hlive hstack hothers fun a ha => ?_
  exact hout a (hg.contexts s t hlive a ha) fun hin => hstacks s hlive a hin ha

/-! ### A switch -/

/-- What `switchTo` leaves. -/
theorem step_switchTo (hg : Good p m) {t : Fin kMaxThreads} {returnAddress : UInt64}
    (hc : Confined p m (.switchTo t returnAddress)) :
    ∃ cpu, step p m (.switchTo t returnAddress) = { m with cpu, current := t } ∧
      (∀ a, a ∉ contextRange (p.layout.context m.current) → a ∉ m.stack m.current → cpu.mem a = m.cpu.mem a) ∧
      contextFrame p.u p.cpuXsaveMask cpu.mem (p.layout.context m.current) (m.stack m.current) =
        m.cpu.callFrame (m.stack m.current) returnAddress ∧
      cpu.frame (m.stack t) = frameOf p m t ∧
      (∀ a ∈ returnSlot cpu.mem (p.layout.context m.current), a ∈ m.stack m.current) ∧
      ReservedZero (areaAt cpu.mem (p.layout.context m.current + kExtendedStateOffset)) := by
  obtain ⟨hne, hlive, hroom⟩ := hc
  obtain ⟨e, he⟩ := hg.restorable t hne hlive
  obtain ⟨cpu, hswitch, hout, hleft, hback, hslot, hzero⟩ :=
    schedulerContextSwitch_spec p.mask p.documented (p.layout.fits m.current)
      (p.layout.aligned m.current) (p.layout.apart t m.current hne) hroom (hg.contexts m.current m.current hg.running)
      (hg.contexts m.current t hg.running) (hg.contexts t m.current hlive) (hg.apart t m.current hlive hg.running hne)
      (hg.slot t hne hlive) (hg.header m.current) he
  refine ⟨cpu, ?_, hout, hleft, ?_, hslot, hzero⟩
  · simp only [step, hswitch]
  · unfold frameOf
    rw [if_neg hne]
    exact hback

/-- The contexts but the one that is left. -/
theorem switchTo_context (hg : Good p m) {s : Fin kMaxThreads} {mem : Bytes}
    (hout : ∀ a, a ∉ contextRange (p.layout.context m.current) → a ∉ m.stack m.current → mem a = m.cpu.mem a)
    (hs : s ≠ m.current) : ∀ a ∈ contextRange (p.layout.context s), mem a = m.cpu.mem a := by
  intro a ha
  exact hout a (p.layout.apart s m.current hs a ha) fun hin => hg.contexts m.current s hg.running a hin ha

theorem good_switchTo (hg : Good p m) {t : Fin kMaxThreads} {returnAddress : UInt64}
    (hc : Confined p m (.switchTo t returnAddress)) : Good p (step p m (.switchTo t returnAddress)) := by
  obtain ⟨cpu, hstep, hout, hleft, -, hslot, hzero⟩ := step_switchTo hg hc
  have hothers := fun s (hs : s ≠ m.current) => switchTo_context hg hout hs
  rw [hstep]
  refine ⟨hg.fault, hc.2.1, hg.apart, hg.contexts, ?_, ?_, ?_⟩
  · intro s
    by_cases hs : s = m.current
    · rw [hs]
      exact hzero
    · exact reservedZero_congr (p.layout.fits s) (fun a ha _ => hothers s hs a ha) (hg.header s)
  · intro s _ hlive a ha
    by_cases hs : s = m.current
    · rw [hs] at ha ⊢
      exact hslot a ha
    · rw [returnSlot_congr (hothers s hs)] at ha
      exact hg.slot s hs hlive a ha
  · intro s _ hlive
    by_cases hs : s = m.current
    · rw [hs]
      exact ⟨m.cpu.extended, congrArg Frame.extended hleft⟩
    · obtain ⟨e, he⟩ := hg.restorable s hs hlive
      exact ⟨e, (restoreAt_of_context (hothers s hs)).trans he⟩

/-- The thread that is left goes on where its call returns. -/
theorem frameOf_left (hg : Good p m) {t : Fin kMaxThreads} {returnAddress : UInt64}
    (hc : Confined p m (.switchTo t returnAddress)) :
    frameOf p (step p m (.switchTo t returnAddress)) m.current =
      m.cpu.callFrame (m.stack m.current) returnAddress := by
  obtain ⟨cpu, hstep, -, hleft, -⟩ := step_switchTo hg hc
  rw [hstep]
  unfold frameOf
  rw [if_neg hc.1.symm]
  exact hleft

/-- The others are where they were, the one that comes included. -/
theorem frameOf_switchTo (hg : Good p m) {t : Fin kMaxThreads} {returnAddress : UInt64}
    (hc : Confined p m (.switchTo t returnAddress)) {s : Fin kMaxThreads} (hne : s ≠ m.current)
    (hlive : m.live s = true) : frameOf p (step p m (.switchTo t returnAddress)) s = frameOf p m s := by
  obtain ⟨cpu, hstep, hout, -, hback, -⟩ := step_switchTo hg hc
  rw [hstep]
  by_cases hst : s = t
  · subst hst
    rw [← hback]
    exact if_pos rfl
  · refine frameOf_congr hg hne hst hlive rfl ?_ fun a ha => ?_
    · exact switchTo_context hg hout hne
    · exact hout a (hg.contexts s m.current hlive a ha) (hg.apart s m.current hlive hg.running hne a ha)

/-! ### Every action -/

theorem good_retire (hg : Good p m) {t : Fin kMaxThreads} (hc : Confined p m (.retire t)) :
    Good p (step p m (.retire t)) := by
  have hlive : ∀ s, Function.update m.live t false s = true → m.live s = true := by
    intro s hs
    by_cases hst : s = t
    · subst hst
      rw [Function.update_self] at hs
      exact Bool.noConfusion hs
    · rw [Function.update_of_ne hst] at hs
      exact hs
  refine ⟨hg.fault, ?_, ?_, ?_, hg.header, ?_, ?_⟩
  · show Function.update m.live t false m.current = true
    rw [Function.update_of_ne (Ne.symm hc)]
    exact hg.running
  · exact fun r s hr hs => hg.apart r s (hlive r hr) (hlive s hs)
  · exact fun r s hr => hg.contexts r s (hlive r hr)
  · exact fun s hne hs => hg.slot s hne (hlive s hs)
  · exact fun s hne hs => hg.restorable s hne (hlive s hs)

/-- **The invariant is kept.** -/
theorem good_step (hg : Good p m) {a : Action E} (hc : Confined p m a) : Good p (step p m a) := by
  cases a with
  | work cpu => exact good_work hg hc
  | create t stack => exact good_create hg hc
  | retire t => exact good_retire hg hc
  | switchTo t returnAddress => exact good_switchTo hg hc

/-- An action that neither gives up the thread nor goes to it. -/
def Away (t : Fin kMaxThreads) : Action E → Prop
  | .retire s     => s ≠ t
  | .switchTo s _ => s ≠ t
  | _             => True

/-- **What the others do is lost on a thread that is away**: its frame and its stack stay. -/
theorem away_step (hg : Good p m) {a : Action E} (hc : Confined p m a) {t : Fin kMaxThreads} (hne : t ≠ m.current)
    (hlive : m.live t = true) (haway : Away t a) :
    t ≠ (step p m a).current ∧ (step p m a).live t = true ∧ (step p m a).stack t = m.stack t ∧
      frameOf p (step p m a) t = frameOf p m t := by
  cases a with
  | work cpu => exact ⟨hne, hlive, rfl, frameOf_work hg hc hne hlive⟩
  | create s stack =>
      have hframe := frameOf_create hg hc hne hlive
      obtain ⟨mem, hstep, -⟩ := step_create hc
      have hts : t ≠ s := by
        rintro rfl
        rw [hc.2.1] at hlive
        exact Bool.noConfusion hlive
      rw [hstep] at hframe ⊢
      refine ⟨hne, ?_, ?_, hframe⟩
      · exact (Function.update_of_ne hts _ _).trans hlive
      · exact Function.update_of_ne hts _ _
  | retire s =>
      refine ⟨hne, ?_, rfl, rfl⟩
      exact (Function.update_of_ne (Ne.symm haway) _ _).trans hlive
  | switchTo s returnAddress =>
      have hframe := frameOf_switchTo hg hc hne hlive
      obtain ⟨cpu, hstep, -⟩ := step_switchTo hg hc
      rw [hstep] at hframe ⊢
      exact ⟨Ne.symm haway, hlive, rfl, hframe⟩

/-- The same over a run. -/
theorem away_run (hg : Good p m) {as : List (Action E)} (hc : Lib.Along (step p) (Confined p) m as)
    {t : Fin kMaxThreads} (hne : t ≠ m.current) (hlive : m.live t = true) (haway : ∀ a ∈ as, Away t a) :
    t ≠ (Lib.run (step p) m as).current ∧ (Lib.run (step p) m as).live t = true ∧
      (Lib.run (step p) m as).stack t = m.stack t ∧ frameOf p (Lib.run (step p) m as) t = frameOf p m t := by
  induction as generalizing m with
  | nil => exact ⟨hne, hlive, rfl, rfl⟩
  | cons a as ih =>
      obtain ⟨hne', hlive', hstack, hframe⟩ := away_step hg hc.1 hne hlive (haway a List.mem_cons_self)
      obtain ⟨hcur, hlive'', hstack', hframe'⟩ :=
        ih (good_step hg hc.1) hc.2 hne' hlive' fun b hb => haway b (List.mem_cons_of_mem a hb)
      exact ⟨hcur, hlive'', hstack'.trans hstack, hframe'.trans hframe⟩

theorem good_run (hg : Good p m) {as : List (Action E)} (hc : Lib.Along (step p) (Confined p) m as) :
    Good p (Lib.run (step p) m as) :=
  Lib.run_invariant_along (I := Good p) (fun _ _ hg hc => good_step hg hc) hg hc

end Steps

/-! ## Whole runs -/

section Runs

variable {p : Platform E} {m : Machine E}

/-- **A thread comes back as it left.** Whatever the others do while it is away, its call returns: to the return
    address, with the registers that a call keeps, the extended state and every byte of its stack as they were. -/
theorem resumes_as_left (hboot : Boot p m) {before away : List (Action E)} {s t : Fin kMaxThreads}
    {returnAddress returnAddress' : UInt64} (hrunning : (Lib.run (step p) m before).current = s)
    (haway : ∀ a ∈ away, Away s a)
    (hc : Lib.Along (step p) (Confined p) m
      (before ++ .switchTo t returnAddress :: (away ++ [.switchTo s returnAddress']))) :
    let left := Lib.run (step p) m before
    let back := Lib.run (step p) m (before ++ .switchTo t returnAddress :: (away ++ [.switchTo s returnAddress']))
    back.fault = false ∧ back.current = s ∧ back.stack s = left.stack s ∧
      back.cpu.frame (left.stack s) = left.cpu.callFrame (left.stack s) returnAddress := by
  intro left back
  obtain ⟨hbefore, hleave, hrest⟩ := Lib.along_append_iff.mp hc
  obtain ⟨hmid, hback, -⟩ := Lib.along_append_iff.mp hrest
  have hleft : Good p left := good_run hboot.good hbefore
  have hgood : Good p back := good_run hboot.good hc
  have hcur : left.current = s := hrunning
  -- the frame that the call leaves in the context of `s`
  have hframe := frameOf_left hleft hleave
  rw [hcur] at hframe
  have hne : s ≠ (step p left (.switchTo t returnAddress)).current := by
    obtain ⟨cpu, hstep, -⟩ := step_switchTo hleft hleave
    rw [hstep, ← hcur]
    exact hleave.1.symm
  have hlive : (step p left (.switchTo t returnAddress)).live s = true := by
    obtain ⟨cpu, hstep, -⟩ := step_switchTo hleft hleave
    rw [hstep, ← hcur]
    exact hleft.running
  have hstack : (step p left (.switchTo t returnAddress)).stack s = left.stack s := by
    obtain ⟨cpu, hstep, -⟩ := step_switchTo hleft hleave
    rw [hstep]
  obtain ⟨hne', hlive', hstack', hframe'⟩ := away_run (good_step hleft hleave) hmid hne hlive haway
  -- the switch back
  obtain ⟨cpu, hstep, -, -, hload, -⟩ := step_switchTo (good_run (good_step hleft hleave) hmid) hback
  have hrun : back = step p (Lib.run (step p) (step p left (.switchTo t returnAddress)) away)
      (.switchTo s returnAddress') := by
    show Lib.run (step p) m _ = _
    rw [Lib.run_append, Lib.run_cons, Lib.run_append]
    rfl
  rw [hframe', hframe, hstack', hstack] at hload
  rw [hstep] at hrun
  refine ⟨hgood.fault, ?_, ?_, ?_⟩
  · rw [hrun]
  · rw [hrun]
    exact hstack'.trans hstack
  · rw [hrun]
    exact hload

/-- **A new thread starts** in `ThreadTrampoline`, with its stack pointer in its own stack and aligned as at the entry
    of a function, the other registers zero, and the extended state of the thread that made it. -/
theorem starts_fresh (hboot : Boot p m) {before away : List (Action E)} {t : Fin kMaxThreads} {stack : ByteRange}
    {returnAddress : UInt64} (haway : ∀ a ∈ away, Away t a)
    (hc : Lib.Along (step p) (Confined p) m
      (before ++ .create t stack :: (away ++ [.switchTo t returnAddress]))) :
    let maker := Lib.run (step p) m before
    let started := Lib.run (step p) m (before ++ .create t stack :: (away ++ [.switchTo t returnAddress]))
    started.fault = false ∧ started.current = t ∧ started.stack t = stack ∧
      started.cpu.rip = p.threadTrampoline ∧ started.cpu.extended = maker.cpu.extended ∧
      (started.cpu.regs .rsp).toNat % 16 = 8 ∧ started.cpu.regs .rsp ∈ stack ∧
      ∀ r : Reg, r.callerSaved = false → r ≠ .rsp → started.cpu.regs r = 0 := by
  intro maker started
  obtain ⟨hbefore, hcreate, hrest⟩ := Lib.along_append_iff.mp hc
  obtain ⟨hmid, hswitch, -⟩ := Lib.along_append_iff.mp hrest
  have hmaker : Good p maker := good_run hboot.good hbefore
  have hgood : Good p started := good_run hboot.good hc
  -- the frame that `PrepareInitialContext` makes
  obtain ⟨mem, hmade, -, hsaved, hrip, hext, -⟩ := step_create hcreate
  have hne : t ≠ (step p maker (.create t stack)).current := by
    rw [hmade]
    exact hcreate.1
  have hlive : (step p maker (.create t stack)).live t = true := by
    rw [hmade]
    exact Function.update_self _ _ _
  have hstack : (step p maker (.create t stack)).stack t = stack := by
    rw [hmade]
    exact Function.update_self _ _ _
  have hframe : frameOf p (step p maker (.create t stack)) t =
      contextFrame p.u p.cpuXsaveMask mem (p.layout.context t) stack := by
    unfold frameOf
    rw [if_neg hne, hstack, hmade]
  obtain ⟨hne', hlive', hstack', hframe'⟩ := away_run (good_step hmaker hcreate) hmid hne hlive haway
  -- the first switch to it
  obtain ⟨cpu, hstep, -, -, hload, -⟩ := step_switchTo (good_run (good_step hmaker hcreate) hmid) hswitch
  have hrun : started = step p (Lib.run (step p) (step p maker (.create t stack)) away) (.switchTo t returnAddress) := by
    show Lib.run (step p) m _ = _
    rw [Lib.run_append, Lib.run_cons, Lib.run_append]
    rfl
  rw [hframe', hframe, hstack', hstack] at hload
  rw [hstep] at hrun
  have hregs : ∀ r : Reg, r.callerSaved = false → cpu.regs r = freshSaved stack r := by
    intro r hr
    have hcpu : (cpu.frame stack).saved r = freshSaved stack r := by rw [hload, hsaved]
    unfold Cpu.frame at hcpu
    dsimp only at hcpu
    rw [hr] at hcpu
    exact hcpu
  have hrsp : cpu.regs .rsp = initialStack stack + 8 := hregs .rsp rfl
  obtain ⟨-, -, hfit, hsize, -⟩ := hcreate
  obtain ⟨halign, hlo, hhi⟩ := initialStack_spec hfit hsize
  have h8 : (8 : UInt64).toNat = 8 := rfl
  have hvalue : (initialStack stack + 8).toNat = (initialStack stack).toNat + 8 := by
    rw [UInt64.toNat_add, h8, Nat.mod_eq_of_lt (by omega)]
  refine ⟨hgood.fault, ?_, ?_, ?_, ?_, ?_, ?_, ?_⟩
  · rw [hrun]
  · rw [hrun]
    exact hstack'.trans hstack
  · rw [hrun, ← hrip, ← hload]
    rfl
  · have hcpu : (cpu.frame stack).extended = some maker.cpu.extended := by rw [hload, hext]
    rw [hrun]
    exact Option.some.inj hcpu
  · rw [hrun]
    show (cpu.regs .rsp).toNat % 16 = 8
    rw [hrsp, hvalue]
    omega
  · rw [hrun]
    show cpu.regs .rsp ∈ stack
    have hfits : stack.Fits := by
      unfold ByteRange.Fits
      omega
    rw [hrsp, ByteRange.mem_iff_of_fits hfits, hvalue]
    omega
  · intro r hr hne
    rw [hrun]
    exact (hregs r hr).trans (freshSaved_of_ne hne)

end Runs

/-! ## A machine with the legacy instructions -/

namespace Legacy

/-- 512 bytes, as `fxsave64` moves them. -/
def legacyUnit : ExtendedUnit (Fin 512 → UInt8) where
  size    := fun _ => 512
  save    := fun _ e area off => if h : off.toNat < 512 then e ⟨off.toNat, h⟩ else area off
  restore := fun _ area => some fun i => area (UInt64.ofNat i)

theorem legacyUnit_documented : legacyUnit.Documented .fx where
  size := by decide
  header := by
    intro e area off hlo _
    exact dif_neg (by omega)
  reads := by
    intro area area' h
    have heq : (fun i : Fin 512 => area (UInt64.ofNat i)) = fun i : Fin 512 => area' (UInt64.ofNat i) := by
      funext i
      apply h
      show (UInt64.ofNat i).toNat < 512
      rw [UInt64.toNat_ofNat']
      omega
    exact congrArg some heq
  roundTrip := by
    intro e area _
    have heq : (fun i : Fin 512 => legacyUnit.save .fx e area (UInt64.ofNat i)) = e := by
      funext i
      have hval : (UInt64.ofNat i).toNat = i := by
        rw [UInt64.toNat_ofNat']
        omega
      show (if h : (UInt64.ofNat i).toNat < 512 then e ⟨(UInt64.ofNat i).toNat, h⟩ else area (UInt64.ofNat i)) = e i
      rw [dif_pos (by rw [hval]; exact i.isLt)]
      exact congrArg e (Fin.ext hval)
    exact congrArg some heq

/-- The contexts, one behind the other. -/
def contextAt (t : Fin kMaxThreads) : UInt64 := UInt64.ofNat (0x10000 + 1152 * t)

theorem toNat_contextAt (t : Fin kMaxThreads) : (contextAt t).toNat = 0x10000 + 1152 * t := by
  have hlt : (t : Nat) < 128 := t.isLt
  unfold contextAt
  rw [UInt64.toNat_ofNat']
  omega

theorem fits_contextAt (t : Fin kMaxThreads) : (contextRange (contextAt t)).Fits := by
  have hlt : (t : Nat) < 128 := t.isLt
  show (contextAt t).toNat + 1088 ≤ 2 ^ 64
  rw [toNat_contextAt]
  omega

def layout : Layout where
  context := contextAt
  fits    := fits_contextAt
  aligned := by
    intro t
    rw [toNat_contextAt]
    omega
  apart := by
    intro s t hst
    have hne : (s : Nat) ≠ t := fun h => hst (Fin.ext h)
    rcases Nat.lt_or_gt_of_ne hne with hlt | hgt
    · apply ByteRange.apart_of_le (fits_contextAt s) (fits_contextAt t)
      show (contextAt s).toNat + 1088 ≤ (contextAt t).toNat
      rw [toNat_contextAt, toNat_contextAt]
      omega
    · apply ByteRange.Apart.symm
      apply ByteRange.apart_of_le (fits_contextAt t) (fits_contextAt s)
      show (contextAt t).toNat + 1088 ≤ (contextAt s).toNat
      rw [toNat_contextAt, toNat_contextAt]
      omega

def platform : Platform (Fin 512 → UInt8) where
  u                := legacyUnit
  cpuXsaveMask     := 0
  threadTrampoline := 0x201000
  layout           := layout
  mask             := Or.inl rfl
  documented       := legacyUnit_documented

def bootStack : ByteRange := ⟨0x100000, 0x4000⟩
def newStack : ByteRange := ⟨0x110000, 8192⟩

/-- The boot thread, with its stack pointer in its stack. -/
def boot : Machine (Fin 512 → UInt8) where
  cpu     := { regs := fun _ => 0x103000, rip := 0x200000, extended := fun _ => 0x7F, mem := fun _ => 0 }
  current := 0
  stack   := fun _ => bootStack
  live    := fun t => decide (t = 0)

theorem stack_apart_context {stack : ByteRange} (hlo : 0x100000 ≤ stack.start.toNat) (hfit : stack.Fits)
    (t : Fin kMaxThreads) : stack.Apart (contextRange (platform.layout.context t)) := by
  have hlt : (t : Nat) < 128 := t.isLt
  apply ByteRange.Apart.symm
  apply ByteRange.apart_of_le (fits_contextAt t) hfit
  show (contextAt t).toNat + 1088 ≤ stack.start.toNat
  rw [toNat_contextAt]
  omega

theorem boot_boot : Boot platform boot where
  fault    := rfl
  current  := rfl
  live     := fun _ => rfl
  contexts := stack_apart_context (by decide) (by unfold ByteRange.Fits; decide)
  zero     := fun _ _ _ => rfl

theorem confined_create : Confined platform boot (.create 1 newStack) := by
  refine ⟨by decide, by decide, by decide, by decide, ?_, ?_⟩
  · intro s _
    apply ByteRange.Apart.symm
    exact ByteRange.apart_of_le (r := bootStack) (by unfold ByteRange.Fits; decide) (by unfold ByteRange.Fits; decide)
      (by decide)
  · exact stack_apart_context (by decide) (by unfold ByteRange.Fits; decide)

/-- The boot thread makes a thread and goes to it. -/
def there : List (Action (Fin 512 → UInt8)) := [.create 1 newStack, .switchTo 1 0x200010]

/-- The new thread runs up to its own switch. -/
def busy : Action (Fin 512 → UInt8) :=
  .work { (Lib.run (step platform) boot there).cpu with regs := fun _ => 0x111000, extended := fun _ => 0 }

theorem one_ne_boot : (1 : Fin kMaxThreads) ≠ 0 := by decide

/-- Room for a return address, on either stack. -/
theorem room_boot : ∀ a ∈ ByteRange.mk (0x103000 - 8) 8, a ∈ bootStack := by
  have hoff : (0x103000 - 8 : UInt64) = 0x100000 + 0x2FF8 := by decide
  intro a ha
  rw [hoff] at ha
  exact ByteRange.mem_of_part (by decide) ha

theorem room_new : ∀ a ∈ ByteRange.mk (0x111000 - 8) 8, a ∈ newStack := by
  have hoff : (0x111000 - 8 : UInt64) = 0x110000 + 0xFF8 := by decide
  intro a ha
  rw [hoff] at ha
  exact ByteRange.mem_of_part (by decide) ha

theorem confined_switch : Confined platform (step platform boot (.create 1 newStack)) (.switchTo 1 0x200010) := by
  obtain ⟨mem, hstep, -⟩ := step_create confined_create
  rw [hstep]
  exact ⟨one_ne_boot, rfl, room_boot⟩

theorem good_create_boot : Good platform (step platform boot (.create 1 newStack)) :=
  good_step boot_boot.good confined_create

/-- The run there and back is confined. -/
theorem confined_back : Lib.Along (step platform) (Confined platform) boot
    ([.create 1 newStack] ++ .switchTo 1 0x200010 :: ([busy] ++ [.switchTo 0 0x201010])) := by
  refine ⟨confined_create, confined_switch, ⟨fun _ _ _ => rfl, fun _ _ _ _ _ => rfl⟩, ?_, trivial⟩
  obtain ⟨mem, hmade, -⟩ := step_create confined_create
  obtain ⟨cpu, hstep, -⟩ := step_switchTo good_create_boot confined_switch
  rw [hstep, hmade]
  exact ⟨one_ne_boot.symm, rfl, room_new⟩

theorem resumes_as_left_legacy :
    let back := Lib.run (step platform) boot
      ([.create 1 newStack] ++ .switchTo 1 0x200010 :: ([busy] ++ [.switchTo 0 0x201010]))
    back.fault = false ∧ back.current = 0 ∧
      back.cpu.frame bootStack = (step platform boot (.create 1 newStack)).cpu.callFrame bootStack 0x200010 := by
  intro back
  obtain ⟨mem, hmade, -⟩ := step_create confined_create
  have hstack : (step platform boot (.create 1 newStack)).stack 0 = bootStack := by
    rw [hmade]
    rfl
  have hrunning : (Lib.run (step platform) boot [.create 1 newStack]).current = 0 := by
    show (step platform boot (.create 1 newStack)).current = 0
    rw [hmade]
    rfl
  have haway : ∀ a ∈ [busy], Away 0 a := by simp [busy, Away]
  obtain ⟨hfault, hcur, -, hframe⟩ := resumes_as_left boot_boot hrunning haway confined_back
  refine ⟨hfault, hcur, ?_⟩
  rw [← hstack]
  exact hframe

theorem starts_fresh_legacy :
    let started := Lib.run (step platform) boot there
    started.fault = false ∧ started.current = 1 ∧ started.cpu.rip = 0x201000 ∧
      (started.cpu.regs .rsp).toNat % 16 = 8 ∧ started.cpu.regs .rsp ∈ newStack ∧ started.cpu.regs .rbx = 0 := by
  intro started
  have hconfined : Lib.Along (step platform) (Confined platform) boot
      ([] ++ .create 1 newStack :: ([] ++ [.switchTo 1 0x200010])) := ⟨confined_create, confined_switch, trivial⟩
  obtain ⟨hfault, hcur, -, hrip, -, halign, hin, hzero⟩ := starts_fresh boot_boot (by simp) hconfined
  exact ⟨hfault, hcur, hrip, halign, hin, hzero .rbx rfl (by decide)⟩

end Legacy

end ContextSwitch
end UefiBoot
