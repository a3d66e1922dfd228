import Mathlib.Tactic

/-!
# `Cpu.Interrupt` — the path of a hardware interrupt through `interrupt_stubs.S`

The processor pushes the interrupted `ss`, `rsp`, `rflags`, `cs` and `rip` on the IST 1 stack (`InitGdt` sets
`ist1`, `SetIdtGate` selects it), the stub pushes an error code and the vector, and `CpuIrqCommon` passes the
address of that frame to `CpuIrqHandler`, drops the two words and returns with `iretq`. No instruction of the
path saves a general-purpose register, so what a C function may clobber is lost: `irq_restores_iff`
says exactly what has to be true of the handler's run for the interrupted code not to notice.
-/

namespace UefiBoot
namespace Irq

inductive Reg where
  | rax | rbx | rcx | rdx | rsi | rdi | rbp | rsp
  | r8 | r9 | r10 | r11 | r12 | r13 | r14 | r15
  deriving DecidableEq, Repr

/-- The registers a System V function may leave changed. -/
def Reg.callerSaved : Reg → Bool
  | .rax | .rcx | .rdx | .rsi | .rdi | .r8 | .r9 | .r10 | .r11 => true
  | .rbx | .rbp | .rsp | .r12 | .r13 | .r14 | .r15 => false

/-- The processor state the path touches. `mem a` is the quadword at address `a`. -/
structure Cpu where
  regs   : Reg → UInt64
  rip    : UInt64
  cs     : UInt64
  rflags : UInt64
  ss     : UInt64
  mem    : UInt64 → UInt64

namespace Cpu

@[simps] def setReg (c : Cpu) (r : Reg) (v : UInt64) : Cpu := { c with regs := Function.update c.regs r v }

@[simps] def push (c : Cpu) (v : UInt64) : Cpu :=
  { c with
    regs := Function.update c.regs .rsp (c.regs .rsp - 8)
    mem := Function.update c.mem (c.regs .rsp - 8) v }

/-- The quadword `n` places above the stack pointer. -/
def stack (c : Cpu) (n : UInt64) : UInt64 := c.mem (c.regs .rsp + 8 * n)

end Cpu

def kKernelCodeSelector : UInt64 := 0x08
def kIrqBaseVector : UInt64 := 32
abbrev kIrqCount : Nat := 16

/-! ## Instructions -/

inductive Instr where
  | push (imm : UInt64)
  | movRdiRsp
  | callCpuIrqHandler
  | addRsp (imm : UInt64)
  | iretq
  deriving DecidableEq, Repr

/-- One instruction. `handler` is what `call CpuIrqHandler` does up to its return. -/
def Instr.exec (handler : Cpu → Cpu) (c : Cpu) : Instr → Cpu
  | .push imm          => c.push imm
  | .movRdiRsp         => c.setReg .rdi (c.regs .rsp)
  | .callCpuIrqHandler => handler c
  | .addRsp imm        => c.setReg .rsp (c.regs .rsp + imm)
  | .iretq             =>
    { c with
      rip := c.stack 0, cs := c.stack 1, rflags := c.stack 2, ss := c.stack 4
      regs := Function.update c.regs .rsp (c.stack 3) }

/-- `IRQ_STUB vector`, up to its jump to `CpuIrqCommon`. -/
def irqStub (vector : UInt64) : List Instr := [.push 0, .push vector]

/-- `CpuIrqCommon`. -/
def cpuIrqCommon : List Instr := [.movRdiRsp, .callCpuIrqHandler, .addRsp 16, .iretq]

/-- Delivery through an interrupt gate with IST 1: the stack switches, IF is cleared. -/
def deliver (ist1 : UInt64) (c : Cpu) : Cpu :=
  let entered := { c with cs := kKernelCodeSelector, rflags := c.rflags &&& ~~~0x200 }
  let frame := entered.setReg .rsp (ist1 &&& ~~~15)
  ((((frame.push c.ss).push (c.regs .rsp)).push c.rflags).push c.cs).push c.rip

/-- The whole path of interrupt line `irq`, from the interrupted instruction back to it. -/
def interrupt (handler : Cpu → Cpu) (ist1 : UInt64) (irq : Fin kIrqCount) (c : Cpu) : Cpu :=
  (irqStub (kIrqBaseVector + UInt64.ofNat irq.val) ++ cpuIrqCommon).foldl
    (fun c i => i.exec handler c) (deliver ist1 c)

/-- The state in which `CpuIrqHandler` is called. -/
def atCall (ist1 : UInt64) (irq : Fin kIrqCount) (c : Cpu) : Cpu :=
  let c := ((deliver ist1 c).push 0).push (kIrqBaseVector + UInt64.ofNat irq.val)
  c.setReg .rdi (c.regs .rsp)

/-- **The C contract of `CpuIrqHandler`.** The stack pointer and the callee-saved registers come back as they
    were. The handler does not write the seven quadwords of the `ExceptionFrame` it is passed. -/
structure SysV (handler : Cpu → Cpu) : Prop where
  saved : ∀ c r, r.callerSaved = false → (handler c).regs r = c.regs r
  frame : ∀ c n, n < 7 → (handler c).mem (c.regs .rsp + 8 * n) = c.mem (c.regs .rsp + 8 * n)

/-- **Interrupt transparency** at a register state and an interrupt line: whatever a conforming handler does,
    all general-purpose registers are as before. -/
def Transparent (ist1 : UInt64) (irq : Fin kIrqCount) (c : Cpu) : Prop :=
  ∀ handler, SysV handler → ∀ r, (interrupt handler ist1 irq c).regs r = c.regs r

/-! ## The frame -/

/-- Stack addresses below one top are its distance from the top. -/
theorem sub_sub_eq (t a b : UInt64) : t - a - b = t - (a + b) :=
  UInt64.toBitVec_inj.1 (by simp only [UInt64.toBitVec_sub, UInt64.toBitVec_add]; bv_omega)

theorem sub_add_eq (t a b : UInt64) : t - a + b = t - (a - b) :=
  UInt64.toBitVec_inj.1 (by simp only [UInt64.toBitVec_sub, UInt64.toBitVec_add]; bv_omega)

section Frame

variable (ist1 : UInt64) (irq : Fin kIrqCount) (c : Cpu)

/-- The handler is called with the interrupted registers, but for the stack pointer and its argument. -/
theorem atCall_regs {r : Reg} (hsp : r ≠ .rsp) (hdi : r ≠ .rdi) :
    (atCall ist1 irq c).regs r = c.regs r := by
  simp [atCall, deliver, hsp, hdi]

/-- The frame holds, above the vector and the error code, what `iretq` restores. -/
theorem atCall_frame : (atCall ist1 irq c).stack 2 = c.rip ∧ (atCall ist1 irq c).stack 3 = c.cs ∧
    (atCall ist1 irq c).stack 4 = c.rflags ∧ (atCall ist1 irq c).stack 5 = c.regs .rsp ∧
    (atCall ist1 irq c).stack 6 = c.ss := by
  simp [Cpu.stack, atCall, deliver, sub_sub_eq, sub_add_eq]

end Frame

section Conforming

variable {handler : Cpu → Cpu} (hh : SysV handler) (ist1 : UInt64) (irq : Fin kIrqCount) (c : Cpu)
include hh

/-- A conforming handler returns with the frame and the stack pointer it was called with. -/
theorem handler_stack (s : Cpu) {n : UInt64} (hn : n < 7) : (handler s).stack n = s.stack n := by
  rw [Cpu.stack, hh.saved s .rsp rfl, hh.frame s n hn, Cpu.stack]

theorem interrupt_regs (r : Reg) : (interrupt handler ist1 irq c).regs r =
    if r = .rsp then c.regs .rsp else (handler (atCall ist1 irq c)).regs r := by
  have hpath : (interrupt handler ist1 irq c).regs r = if r = .rsp
      then (handler (atCall ist1 irq c)).mem ((handler (atCall ist1 irq c)).regs .rsp + 16 + 8 * 3)
      else (handler (atCall ist1 irq c)).regs r := by
    by_cases hr : r = .rsp
    · subst hr; simp [interrupt, irqStub, cpuIrqCommon, Instr.exec, atCall, Cpu.stack]
    · simp [interrupt, irqStub, cpuIrqCommon, Instr.exec, atCall, hr]
  have hsp : (handler (atCall ist1 irq c)).mem
      ((handler (atCall ist1 irq c)).regs .rsp + 16 + 8 * 3) = c.regs .rsp := by
    have h5 := handler_stack hh (atCall ist1 irq c) (n := 5) (by decide)
    rw [(atCall_frame ist1 irq c).2.2.2.1] at h5
    rw [← h5, Cpu.stack, UInt64.add_assoc]; rfl
  rw [hpath, hsp]

/-- The interrupted code goes on where it was, on its stack and with its flags. -/
theorem interrupt_returns : (interrupt handler ist1 irq c).rip = c.rip ∧
    (interrupt handler ist1 irq c).cs = c.cs ∧ (interrupt handler ist1 irq c).rflags = c.rflags ∧
    (interrupt handler ist1 irq c).ss = c.ss := by
  obtain ⟨hrip, hcs, hflags, -, hss⟩ := atCall_frame ist1 irq c
  have hpop : ∀ n, n + 2 < 7 → (handler (atCall ist1 irq c)).mem
      ((handler (atCall ist1 irq c)).regs .rsp + 16 + 8 * n) = (atCall ist1 irq c).stack (n + 2) := by
    intro n hn
    rw [← handler_stack hh _ hn, Cpu.stack, UInt64.add_assoc, UInt64.mul_add, UInt64.add_comm 16]
    rfl
  rw [← hrip, ← hcs, ← hflags, ← hss]
  exact ⟨hpop 0 (by decide), hpop 1 (by decide), hpop 2 (by decide), hpop 4 (by decide)⟩

/-- **What the path restores.** The callee-saved registers and the stack pointer always; all registers exactly
    when the handler happens to return with the interrupted values in the nine others. -/
theorem irq_restores_iff : (∀ r, (interrupt handler ist1 irq c).regs r = c.regs r) ↔
    ∀ r, r.callerSaved = true → (handler (atCall ist1 irq c)).regs r = c.regs r := by
  constructor
  · intro h r hr
    have hsp : r ≠ .rsp := by rintro rfl; simp [Reg.callerSaved] at hr
    rw [← h r, interrupt_regs hh, if_neg hsp]
  · intro h r
    rw [interrupt_regs hh]
    by_cases hsp : r = .rsp
    · subst hsp; simp
    · rw [if_neg hsp]
      by_cases hr : r.callerSaved = true
      · exact h r hr
      · have hdi : r ≠ .rdi := by rintro rfl; exact hr rfl
        rw [hh.saved _ r (by simpa using hr), atCall_regs ist1 irq c hsp hdi]

end Conforming

/-! ## Handlers that use a register -/

/-- A handler that leaves `v` in a register. -/
def leaves (r : Reg) (v : UInt64) (c : Cpu) : Cpu := c.setReg r v

theorem sysV_leaves {r : Reg} (hr : r.callerSaved = true) (v : UInt64) : SysV (leaves r v) := by
  refine ⟨fun c r' hr' => ?_, fun c n _ => rfl⟩
  have hne : r' ≠ r := by rintro rfl; rw [hr] at hr'; exact absurd hr' (by simp)
  simp [leaves, hne]

/-- Every caller-saved register of the interrupted code is lost to some conforming handler. -/
theorem irq_loses (ist1 : UInt64) (irq : Fin kIrqCount) (c : Cpu) {r : Reg} (hr : r.callerSaved = true) :
    ∃ handler, SysV handler ∧ (interrupt handler ist1 irq c).regs r ≠ c.regs r := by
  have hh := sysV_leaves hr (c.regs r + 1)
  refine ⟨_, hh, fun h => ?_⟩
  have hsp : r ≠ .rsp := by rintro rfl; simp [Reg.callerSaved] at hr
  rw [interrupt_regs hh, if_neg hsp] at h
  simp [leaves] at h

/-- **No interrupt is transparent**, at no register state and on no line. -/
theorem irq_not_transparent (ist1 : UInt64) (irq : Fin kIrqCount) (c : Cpu) :
    ¬ Transparent ist1 irq c := by
  intro h
  obtain ⟨handler, hh, hne⟩ := irq_loses ist1 irq c (r := .rax) rfl
  exact hne (h handler hh .rax)

/-- Interrupted kernel code with all registers zero. -/
def zeroedCpu : Cpu :=
  { regs := fun _ => 0
    rip := 0x100000
    cs := kKernelCodeSelector
    rflags := 0x202
    ss := 0x10
    mem := fun _ => 0 }

/-- A timer interrupt there loses `rax` to a handler that leaves 1 in it. -/
theorem timer_irq_loses_rax : ¬ Transparent 0x204000 0 zeroedCpu := by
  intro h
  have hrax := h _ (sysV_leaves (r := .rax) rfl 1) .rax
  rw [interrupt_regs (sysV_leaves rfl 1)] at hrax
  simp [leaves, zeroedCpu] at hrax

end Irq
end UefiBoot
