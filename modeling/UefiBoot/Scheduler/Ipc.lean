import UefiBoot.Lib.Issue
import UefiBoot.Lib.Ring
import UefiBoot.Scheduler.Machine

/-!
# `Scheduler.Ipc` — the message queues of the processes, as mailboxes

What the six functions promise their callers is about mailboxes: a partial map from the id of an active process
to the messages it has not read, oldest first (`Mailboxes`, with `Mailboxes.Step` for the calls). The code keeps
a ring of eight places in each process record. `State.mailboxes` reads the table as mailboxes, and
`ipc_refines` says that every call does to them what `Mailboxes.Step` allows.

A process id names one process only while `g_NextProcessId` has not come round: `NotWrapped` says that no
process is created once it is 0.
-/

namespace UefiBoot
namespace Scheduler

/-! ## What the queues are for -/

/-- The calls that create, end and use mailboxes. -/
inductive IpcCall where
  | createProcess (name : Option String)
  | forkProcess (parentProcessId : UInt64)
  | execProcess (processId : UInt64) (imageName : Option String) (entry argument : UInt64)
  | terminateProcess (processId : UInt64) (exitCode : Int32)
  | ipcSend (processId value : UInt64)
  | ipcReceive (processId : UInt64)
  deriving DecidableEq

/-- The unread messages of each active process. -/
abbrev Mailboxes := UInt64 → Option (List UInt64)

/-- **What a call may answer and do to the mailboxes.** -/
inductive Mailboxes.Step (m : Mailboxes) : IpcCall → Result → Mailboxes → Prop
  | created (name : Option String) (id : UInt64) (hnew : m id = none) (hnz : id ≠ 0) :
      Step m (.createProcess name) (.id id) (Function.update m id (some []))
  | createFails (name : Option String) : Step m (.createProcess name) (.id 0) m
  | forked (parent id : UInt64) (messages : List UInt64) (hparent : m parent = some messages)
      (hnew : m id = none) (hnz : id ≠ 0) :
      Step m (.forkProcess parent) (.id id) (Function.update m id (some messages))
  | forkFails (parent : UInt64) : Step m (.forkProcess parent) (.id 0) m
  /-- `exec` empties the mailbox, whether its thread can be created or not. -/
  | execed (id : UInt64) (name : Option String) (entry argument : UInt64) (threadCreated : Bool)
      (hid : m id ≠ none) (hname : name ≠ none) (hentry : entry ≠ 0) :
      Step m (.execProcess id name entry argument) (.bool threadCreated) (Function.update m id (some []))
  | execFails (id : UInt64) (name : Option String) (entry argument : UInt64)
      (hbad : m id = none ∨ name = none ∨ entry = 0) :
      Step m (.execProcess id name entry argument) (.bool false) m
  | terminated (id : UInt64) (exitCode : Int32) (hid : m id ≠ none) :
      Step m (.terminateProcess id exitCode) (.bool true) (Function.update m id none)
  | terminateFails (id : UInt64) (exitCode : Int32) (hbad : m id = none ∨ id = kKernelProcessId) :
      Step m (.terminateProcess id exitCode) (.bool false) m
  | sent (id value : UInt64) (messages : List UInt64) (hid : m id = some messages)
      (hroom : messages.length < kIpcQueueSize) :
      Step m (.ipcSend id value) (.bool true) (Function.update m id (some (messages ++ [value])))
  | sendFails (id value : UInt64)
      (hbad : m id = none ∨ ∃ messages, m id = some messages ∧ messages.length = kIpcQueueSize) :
      Step m (.ipcSend id value) (.bool false) m
  | received (id value : UInt64) (messages : List UInt64) (hid : m id = some (value :: messages)) :
      Step m (.ipcReceive id) (.value (some value)) (Function.update m id (some messages))
  | receiveFails (id : UInt64) (hbad : m id = none ∨ m id = some []) : Step m (.ipcReceive id) (.value none) m

/-! ## The calls of the source, and the table as mailboxes -/

namespace IpcCall

/-- The answer of a call and the state after it. -/
def apply (s : State) : IpcCall → Result × State
  | .createProcess name => let (id, s) := kernelCreateProcess s name; (.id id, s)
  | .forkProcess parent => let (id, s) := kernelForkProcess s parent; (.id id, s)
  | .execProcess id name entry argument =>
    let (b, s) := kernelExecProcess s id name entry argument; (.bool b, s)
  | .terminateProcess id _ => let (b, s) := kernelTerminateProcess s id; (.bool b, s)
  | .ipcSend id value => let (b, s) := kernelIpcSend s id value; (.bool b, s)
  | .ipcReceive id => let (v, s) := kernelIpcReceive s id; (.value v, s)

/-- The state after a call. -/
def step (s : State) (c : IpcCall) : State := (c.apply s).2

/-- No process is created once the counter of ids has come round to 0. -/
def NotWrapped (s : State) : IpcCall → Prop
  | .createProcess _ => s.nextProcessId ≠ 0
  | .forkProcess _   => s.nextProcessId ≠ 0
  | _                => True

end IpcCall

/-- The unread messages of a process. -/
def Process.messages (p : Process) : List UInt64 :=
  Lib.ringContents p.ipcQueue p.ipcHead.toNat p.ipcCount.toNat

/-- The ring of a process is in order. -/
def Process.RingOk (p : Process) : Prop :=
  Lib.RingOk kIpcQueueSize p.ipcHead.toNat p.ipcTail.toNat p.ipcCount.toNat

/-- The table as mailboxes. -/
def State.mailboxes (s : State) : Mailboxes := fun id => (s.findProcess id).map fun i => (s.processes i).messages

/-- **The table is a map from active ids to queues of at most eight messages.** -/
structure IsMailboxes (s : State) : Prop where
  listed  : ∀ i, (s.processes i).active = true → s.mailboxes (s.processes i).id = some (s.processes i).messages
  absent  : ∀ id, s.mailboxes id = none ↔ ∀ i, (s.processes i).active = true → (s.processes i).id ≠ id
  bounded : ∀ id messages, s.mailboxes id = some messages → messages.length ≤ kIpcQueueSize

/-! ## One ring -/

section Ring

variable {p : Process}

theorem ringOk_empty {p : Process} (hhead : p.ipcHead = 0) (htail : p.ipcTail = 0) (hcount : p.ipcCount = 0) :
    p.RingOk := by
  unfold Process.RingOk
  rw [hhead, htail, hcount]
  exact Lib.RingOk.empty kIpcQueueSize

theorem messages_empty {p : Process} (hcount : p.ipcCount = 0) : p.messages = [] := by
  unfold Process.messages
  rw [hcount]
  rfl

/-- The process record after a successful `Send`. -/
def Process.sent (p : Process) (value : UInt64) : Process :=
  { p with
    ipcQueue := fun k => if k.val = p.ipcTail.toNat then value else p.ipcQueue k
    ipcTail := (p.ipcTail + 1) % 8
    ipcCount := p.ipcCount + 1 }

/-- The process record after a successful `Receive`. -/
def Process.received (p : Process) : Process :=
  { p with ipcHead := (p.ipcHead + 1) % 8, ipcCount := p.ipcCount - 1 }

theorem toNat_next (n : UInt64) : ((n + 1) % 8).toNat = (n.toNat + 1) % 8 := by
  have hone : (1 : UInt64).toNat = 1 := rfl
  have height : (8 : UInt64).toNat = 8 := rfl
  rw [UInt64.toNat_mod, UInt64.toNat_add, height, hone]
  omega

theorem toNat_count {n : UInt64} (h : n.toNat < 8) : (n + 1).toNat = n.toNat + 1 := by
  have hone : (1 : UInt64).toNat = 1 := rfl
  rw [UInt64.toNat_add, hone]
  omega

theorem toNat_pred {n : UInt64} (h : n ≠ 0) : (n - 1).toNat = n.toNat - 1 := by
  have hone : (1 : UInt64).toNat = 1 := rfl
  have hne : n.toNat ≠ 0 := fun hz => h (UInt64.toNat_inj.mp hz)
  rw [UInt64.toNat_sub_of_le]
  · rfl
  · rw [UInt64.le_iff_toNat_le]
    omega

theorem Process.RingOk.sent (h : p.RingOk) (hroom : p.ipcCount.toNat < 8) (value : UInt64) :
    (p.sent value).RingOk ∧ (p.sent value).messages = p.messages ++ [value] := by
  constructor
  · show Lib.RingOk kIpcQueueSize p.ipcHead.toNat ((p.ipcTail + 1) % 8).toNat (p.ipcCount + 1).toNat
    rw [toNat_next, toNat_count hroom]
    exact Lib.RingOk.push h hroom
  · show Lib.ringContents _ p.ipcHead.toNat (p.ipcCount + 1).toNat = _
    rw [toNat_count hroom]
    exact Lib.ringContents_push h hroom value

theorem Process.RingOk.received (h : p.RingOk) (hne : p.ipcCount ≠ 0) :
    p.received.RingOk ∧ p.messages = p.ipcQueue (Fin.ofNat kIpcQueueSize p.ipcHead.toNat) :: p.received.messages := by
  have hpos : p.ipcCount.toNat ≠ 0 := fun hz => hne (UInt64.toNat_inj.mp hz)
  constructor
  · show Lib.RingOk kIpcQueueSize ((p.ipcHead + 1) % 8).toNat p.ipcTail.toNat (p.ipcCount - 1).toNat
    rw [toNat_next, toNat_pred hne]
    exact Lib.RingOk.pop h hpos
  · unfold Process.messages
    rw [Lib.ringContents_pop hpos]
    show _ = _ :: Lib.ringContents p.ipcQueue ((p.ipcHead + 1) % 8).toNat (p.ipcCount - 1).toNat
    rw [toNat_next, toNat_pred hne]

end Ring

/-! ## The table and the mailboxes -/

/-- The invariant: rings in order, and an id of its own for each active process. -/
structure Registered (s : State) : Prop where
  rings : ∀ i, (s.processes i).RingOk
  ids   : Lib.Issued (fun i => (s.processes i).active = true) (fun i => (s.processes i).id) s.nextProcessId

section Table

variable {s s' : State} {i : Fin kMaxProcesses} {p : Process} {id : UInt64}

theorem mailboxes_some {i : Fin kMaxProcesses} (h : s.findProcess id = some i) :
    s.mailboxes id = some (s.processes i).messages := by
  unfold State.mailboxes
  rw [h]
  rfl

theorem mailboxes_none (h : s.findProcess id = none) : s.mailboxes id = none := by
  unfold State.mailboxes
  rw [h]
  rfl

theorem findProcess_none (h : s.findProcess id = none) (i : Fin kMaxProcesses)
    (hactive : (s.processes i).active = true) : (s.processes i).id ≠ id := by
  have hi := Lib.firstSlot_eq_none_iff.mp h i
  rw [hactive] at hi
  simpa using hi

theorem Registered.findProcess_eq (h : Registered s) (hactive : (s.processes i).active = true) :
    s.findProcess (s.processes i).id = some i := by
  apply Lib.firstSlot_unique
  · simp [hactive]
  · intro j hj
    simp only [Bool.and_eq_true, beq_iff_eq] at hj
    exact h.ids.distinct j i hj.1 hactive hj.2

/-- **The table is a map.** -/
theorem Registered.isMailboxes (h : Registered s) : IsMailboxes s := by
  refine ⟨fun i hi => mailboxes_some (h.findProcess_eq hi), fun id => ?_, fun id messages hid => ?_⟩
  · cases hfind : s.findProcess id with
    | none => exact iff_of_true (mailboxes_none hfind) (findProcess_none hfind)
    | some i =>
        obtain ⟨hactive, heq⟩ := State.findProcess_some hfind
        apply iff_of_false
        · rw [mailboxes_some hfind]
          simp
        · exact fun hall => hall i hactive heq
  · cases hfind : s.findProcess id with
    | none =>
        rw [mailboxes_none hfind] at hid
        exact absurd hid (by simp)
    | some i =>
        rw [mailboxes_some hfind] at hid
        rw [← Option.some.inj hid, Process.messages, Lib.length_ringContents]
        exact (h.rings i).capacity

/-- A write to one record that leaves its process active, or makes it so. -/
theorem mailboxes_update (h' : Registered s') (hproc : s'.processes = Function.update s.processes i p)
    (hp : p.active = true) (hold : (s.processes i).active = true → (s.processes i).id = p.id) :
    s'.mailboxes = Function.update s.mailboxes p.id (some p.messages) := by
  have hself : s'.processes i = p := by rw [hproc, Function.update_self]
  have hother : ∀ j ≠ i, s'.processes j = s.processes j := fun j hj => by rw [hproc, Function.update_of_ne hj]
  have hi := h'.isMailboxes.listed i (by rw [hself]; exact hp)
  rw [hself] at hi
  funext id
  by_cases hid : id = p.id
  · rw [hid, Function.update_self, hi]
  · rw [Function.update_of_ne hid]
    cases hfind : s.findProcess id with
    | none =>
        rw [mailboxes_none hfind, h'.isMailboxes.absent]
        intro j hj
        by_cases hji : j = i
        · rw [hji, hself]
          exact Ne.symm hid
        · rw [hother j hji] at hj ⊢
          exact findProcess_none hfind j hj
    | some j =>
        obtain ⟨hactive, heq⟩ := State.findProcess_some hfind
        have hji : j ≠ i := by
          rintro rfl
          exact hid (heq.symm.trans (hold hactive))
        have hlisted := h'.isMailboxes.listed j (by rw [hother j hji]; exact hactive)
        rw [hother j hji, heq] at hlisted
        rw [mailboxes_some hfind, hlisted]

/-- The end of a process. -/
theorem mailboxes_remove (h : Registered s) (h' : Registered s') (hproc : s'.processes = Function.update s.processes i p)
    (hp : p.active = false) (hi : (s.processes i).active = true) :
    s'.mailboxes = Function.update s.mailboxes (s.processes i).id none := by
  have hself : s'.processes i = p := by rw [hproc, Function.update_self]
  have hother : ∀ j ≠ i, s'.processes j = s.processes j := fun j hj => by rw [hproc, Function.update_of_ne hj]
  funext id
  by_cases hid : id = (s.processes i).id
  · rw [hid, Function.update_self, h'.isMailboxes.absent]
    intro j hj heq
    by_cases hji : j = i
    · rw [hji, hself, hp] at hj
      exact absurd hj (by simp)
    · rw [hother j hji] at hj heq
      exact hji (h.ids.distinct j i hj hi heq)
  · rw [Function.update_of_ne hid]
    cases hfind : s.findProcess id with
    | none =>
        rw [mailboxes_none hfind, h'.isMailboxes.absent]
        intro j hj
        by_cases hji : j = i
        · rw [hji, hself, hp] at hj
          exact absurd hj (by simp)
        · rw [hother j hji] at hj ⊢
          exact findProcess_none hfind j hj
    | some j =>
        obtain ⟨hactive, heq⟩ := State.findProcess_some hfind
        have hji : j ≠ i := by
          rintro rfl
          exact hid heq.symm
        have hlisted := h'.isMailboxes.listed j (by rw [hother j hji]; exact hactive)
        rw [hother j hji, heq] at hlisted
        rw [mailboxes_some hfind, hlisted]

/-! ## The invariant is kept -/

theorem rings_update (h : ∀ j, (s.processes j).RingOk) (hproc : s'.processes = Function.update s.processes i p)
    (hring : p.RingOk) (j : Fin kMaxProcesses) : (s'.processes j).RingOk := by
  rw [hproc]
  by_cases hji : j = i
  · rw [hji, Function.update_self]
    exact hring
  · rw [Function.update_of_ne hji]
    exact h j

/-- A write to one record that makes no process active and changes no id. -/
theorem Registered.update (h : Registered s) (hproc : s'.processes = Function.update s.processes i p)
    (hnext : s'.nextProcessId = s.nextProcessId) (hring : p.RingOk)
    (hkeep : p.active = true → (s.processes i).active = true ∧ p.id = (s.processes i).id) : Registered s' := by
  refine ⟨rings_update h.rings hproc hring, h.ids.keeps (fun hnz => ?_) fun j hj => ?_⟩
  · rw [hnext] at hnz ⊢
    exact ⟨hnz, UInt64.le_refl _⟩
  · rw [hproc] at hj ⊢
    by_cases hji : j = i
    · rw [hji, Function.update_self] at hj ⊢
      exact hkeep hj
    · rw [Function.update_of_ne hji] at hj ⊢
      exact ⟨hj, rfl⟩

/-- A new process takes the id of the counter. -/
theorem Registered.create (h : Registered s) (hproc : s'.processes = Function.update s.processes i p)
    (hnext : s'.nextProcessId = s.nextProcessId + 1) (hring : p.RingOk) (hid : p.id = s.nextProcessId)
    (hnz : s.nextProcessId ≠ 0) : Registered s' := by
  refine ⟨rings_update h.rings hproc hring, ?_⟩
  rw [hnext]
  apply h.ids.issue hnz i
  intro j hj
  rw [hproc] at hj ⊢
  by_cases hji : j = i
  · rw [hji, Function.update_self]
    exact Or.inl ⟨rfl, hid⟩
  · rw [Function.update_of_ne hji] at hj ⊢
    exact Or.inr ⟨hj, rfl⟩

end Table

/-! ## One call -/

section Calls

variable {s : State}

/-- What a call must do: keep the invariant, and answer and act as the mailboxes allow. -/
structure Refines (s : State) (c : IpcCall) : Prop where
  registered : Registered (c.step s)
  step       : s.mailboxes.Step c (c.apply s).1 (c.step s).mailboxes

/-- **`KernelCreateProcess`**. -/
theorem createProcess_cases (h : Registered s) (hnz : s.nextProcessId ≠ 0) (name : Option String) :
    kernelCreateProcess s name = (0, s) ∨
    (kernelCreateProcess s name).1 = s.nextProcessId ∧ Registered (kernelCreateProcess s name).2 ∧
      s.mailboxes s.nextProcessId = none ∧
      (kernelCreateProcess s name).2.mailboxes = Function.update s.mailboxes s.nextProcessId (some []) ∧
      ∀ i, (s.processes i).active = true → (kernelCreateProcess s name).2.processes i = s.processes i := by
  unfold kernelCreateProcess
  cases hslot : Lib.firstSlot (fun i => !(s.processes i).active) with
  | none => exact Or.inl rfl
  | some i =>
      right
      have hidle : (s.processes i).active = false := by simpa using Lib.firstSlot_true hslot
      have hring : Process.RingOk { id := s.nextProcessId, name := name, active := true } := ringOk_empty rfl rfl rfl
      have hnew : Registered
          { s.setProcess i { id := s.nextProcessId, name := name, active := true } with
            nextProcessId := s.nextProcessId + 1 } := h.create rfl rfl hring rfl hnz
      refine ⟨rfl, hnew, ?_, ?_, ?_⟩
      · rw [h.isMailboxes.absent]
        exact fun j hj => h.ids.fresh hnz hj
      · refine mailboxes_update hnew rfl rfl fun hactive => ?_
        rw [hidle] at hactive
        exact absurd hactive (by simp)
      · intro j hj
        apply Function.update_of_ne
        rintro rfl
        rw [hidle] at hj
        exact absurd hj (by simp)

theorem Refines.of_apply {c : IpcCall} {r : Result} {s' : State} (happly : c.apply s = (r, s'))
    (hreg : Registered s') (hstep : s.mailboxes.Step c r s'.mailboxes) : Refines s c := by
  have hs' : c.step s = s' := congrArg Prod.snd happly
  have hr : (c.apply s).1 = r := congrArg Prod.fst happly
  constructor
  · rw [hs']
    exact hreg
  · rw [hs', hr]
    exact hstep

theorem refines_createProcess (h : Registered s) (hnz : s.nextProcessId ≠ 0) (name : Option String) :
    Refines s (.createProcess name) := by
  have happly : (IpcCall.createProcess name).apply s
      = (.id (kernelCreateProcess s name).1, (kernelCreateProcess s name).2) := rfl
  rcases createProcess_cases h hnz name with hfail | ⟨hid, hreg, hnew, hboxes, -⟩
  · rw [hfail] at happly
    exact .of_apply happly h (.createFails name)
  · apply Refines.of_apply happly hreg
    rw [hid, hboxes]
    exact .created name s.nextProcessId hnew hnz

theorem refines_forkProcess (h : Registered s) (hnz : s.nextProcessId ≠ 0) (parent : UInt64) :
    Refines s (.forkProcess parent) := by
  have happly : (IpcCall.forkProcess parent).apply s
      = (.id (kernelForkProcess s parent).1, (kernelForkProcess s parent).2) := rfl
  unfold kernelForkProcess at happly
  cases hfind : s.findProcess parent with
  | none =>
      rw [hfind] at happly
      exact .of_apply happly h (.forkFails parent)
  | some i =>
      rw [hfind] at happly
      dsimp only at happly
      rcases createProcess_cases h hnz (s.processes i).name with hfail | ⟨hid, hreg, hnew, hboxes, hkept⟩
      · -- the table is full: no process has the id 0
        have hzero : s.findProcess 0 = none := by
          cases hzero : s.findProcess 0 with
          | none => rfl
          | some j =>
              obtain ⟨hactive, heq⟩ := State.findProcess_some hzero
              exact absurd heq (h.ids.nonzero j hactive)
        rw [hfail] at happly
        dsimp only at happly
        rw [hzero] at happly
        exact .of_apply happly h (.forkFails parent)
      · have hparent := hkept i (State.findProcess_some hfind).1
        rw [hid] at happly
        generalize (kernelCreateProcess s (s.processes i).name).2 = s₁ at happly hreg hboxes hparent
        cases hchild : s₁.findProcess s.nextProcessId with
        | none =>
            have hbox := congrFun hboxes s.nextProcessId
            rw [mailboxes_none hchild, Function.update_self] at hbox
            exact absurd hbox (by simp)
        | some child =>
            obtain ⟨hactive, hchildId⟩ := State.findProcess_some hchild
            rw [hchild] at happly
            dsimp only at happly
            rw [hparent] at happly
            have hreg₂ : Registered (s₁.setProcess child { s₁.processes child with
                ipcHead := (s.processes i).ipcHead, ipcTail := (s.processes i).ipcTail,
                ipcCount := (s.processes i).ipcCount, ipcQueue := (s.processes i).ipcQueue }) :=
              hreg.update (i := child) rfl rfl (h.rings i) fun hp => ⟨hp, rfl⟩
            apply Refines.of_apply happly hreg₂
            have hboxes₂ := mailboxes_update hreg₂ rfl hactive fun _ => rfl
            rw [hboxes₂, hboxes]
            show s.mailboxes.Step _ _ (Function.update (Function.update s.mailboxes s.nextProcessId (some []))
              (s₁.processes child).id (some (s.processes i).messages))
            rw [hchildId, Function.update_idem]
            exact .forked parent s.nextProcessId _ (mailboxes_some hfind) hnew hnz

/-- Creating a thread leaves the processes alone. -/
theorem createThread_processes (s : State) (pid : UInt64) (name : Option String) (entry argument : UInt64) :
    (kernelCreateThread s pid name entry argument).2.processes = s.processes ∧
    (kernelCreateThread s pid name entry argument).2.nextProcessId = s.nextProcessId := by
  unfold kernelCreateThread
  split
  · exact ⟨rfl, rfl⟩
  · split
    · exact ⟨rfl, rfl⟩
    · dsimp only
      split <;> exact ⟨rfl, rfl⟩

theorem refines_execProcess (h : Registered s) (pid : UInt64) (name : Option String) (entry argument : UInt64) :
    Refines s (.execProcess pid name entry argument) := by
  have happly : (IpcCall.execProcess pid name entry argument).apply s
      = (.bool (kernelExecProcess s pid name entry argument).1, (kernelExecProcess s pid name entry argument).2) := rfl
  unfold kernelExecProcess at happly
  cases hfind : s.findProcess pid with
  | none =>
      rw [hfind] at happly
      exact .of_apply happly h (.execFails pid name entry argument (Or.inl (mailboxes_none hfind)))
  | some i =>
      obtain ⟨hactive, hid⟩ := State.findProcess_some hfind
      rw [hfind] at happly
      dsimp only at happly
      by_cases hbad : name = none ∨ entry = 0
      · rw [if_pos hbad] at happly
        exact .of_apply happly h (.execFails pid name entry argument (Or.inr hbad))
      · rw [if_neg hbad] at happly
        push Not at hbad
        generalize hs₁ : s.setProcess i _ = s₁ at happly
        obtain ⟨hproc, hnext⟩ := createThread_processes s₁ pid name entry argument
        have hproc' := hproc.trans (congrArg State.processes hs₁).symm
        have hnext' := hnext.trans (congrArg State.nextProcessId hs₁).symm
        have hreg := h.update (i := i) hproc' hnext' (ringOk_empty rfl rfl rfl) fun hp => ⟨hp, rfl⟩
        apply Refines.of_apply happly hreg
        rw [mailboxes_update hreg hproc' hactive fun _ => rfl]
        show s.mailboxes.Step _ _ (Function.update s.mailboxes (s.processes i).id (some _))
        rw [hid, messages_empty rfl]
        refine .execed pid name entry argument _ ?_ hbad.1 hbad.2
        rw [mailboxes_some hfind]
        simp

theorem refines_terminateProcess (h : Registered s) (pid : UInt64) (exitCode : Int32) :
    Refines s (.terminateProcess pid exitCode) := by
  have happly : (IpcCall.terminateProcess pid exitCode).apply s
      = (.bool (kernelTerminateProcess s pid).1, (kernelTerminateProcess s pid).2) := rfl
  unfold kernelTerminateProcess at happly
  cases hterm : s.terminates pid with
  | none =>
      rw [hterm] at happly
      apply Refines.of_apply happly h
      apply Mailboxes.Step.terminateFails
      unfold State.terminates at hterm
      by_cases hkernel : pid = kKernelProcessId
      · exact Or.inr hkernel
      · rw [if_neg hkernel] at hterm
        exact Or.inl (mailboxes_none hterm)
  | some i =>
      rw [hterm] at happly
      dsimp only at happly
      unfold State.terminates at hterm
      by_cases hkernel : pid = kKernelProcessId
      · rw [if_pos hkernel] at hterm
        exact absurd hterm (by simp)
      · rw [if_neg hkernel] at hterm
        obtain ⟨hactive, hid⟩ := State.findProcess_some hterm
        generalize hs₁ : ({ s.setProcess i _ with threads := _ } : State) = s₁ at happly
        have hproc := (congrArg State.processes hs₁).symm
        have hnext := (congrArg State.nextProcessId hs₁).symm
        have hreg := h.update (i := i) hproc hnext (ringOk_empty rfl rfl rfl) fun hp => absurd hp (by simp)
        apply Refines.of_apply happly hreg
        rw [mailboxes_remove h hreg hproc rfl hactive, hid]
        apply Mailboxes.Step.terminated
        rw [mailboxes_some hterm]
        simp

theorem refines_ipcSend (h : Registered s) (pid value : UInt64) : Refines s (.ipcSend pid value) := by
  have happly : (IpcCall.ipcSend pid value).apply s
      = (.bool (kernelIpcSend s pid value).1, (kernelIpcSend s pid value).2) := rfl
  unfold kernelIpcSend at happly
  cases hfind : s.findProcess pid with
  | none =>
      rw [hfind] at happly
      exact .of_apply happly h (.sendFails pid value (Or.inl (mailboxes_none hfind)))
  | some i =>
      obtain ⟨hactive, hid⟩ := State.findProcess_some hfind
      rw [hfind] at happly
      dsimp only at happly
      by_cases hfull : (s.processes i).ipcCount ≥ 8
      · rw [if_pos hfull] at happly
        apply Refines.of_apply happly h
        refine .sendFails pid value (Or.inr ⟨_, mailboxes_some hfind, ?_⟩)
        have hcapacity := (h.rings i).capacity
        have hle : 8 ≤ (s.processes i).ipcCount.toNat := UInt64.le_iff_toNat_le.mp hfull
        rw [Process.messages, Lib.length_ringContents]
        exact le_antisymm hcapacity hle
      · rw [if_neg hfull] at happly
        have hroom : (s.processes i).ipcCount.toNat < 8 := UInt64.lt_iff_toNat_lt.mp (UInt64.not_le.mp hfull)
        obtain ⟨hring, hmessages⟩ := (h.rings i).sent hroom value
        have hreg : Registered (s.setProcess i ((s.processes i).sent value)) :=
          h.update rfl rfl hring fun hp => ⟨hp, rfl⟩
        apply Refines.of_apply happly hreg
        show s.mailboxes.Step _ _ (s.setProcess i ((s.processes i).sent value)).mailboxes
        rw [mailboxes_update hreg rfl hactive fun _ => rfl, hmessages]
        show s.mailboxes.Step _ _ (Function.update s.mailboxes (s.processes i).id _)
        rw [hid]
        refine .sent pid value _ (mailboxes_some hfind) ?_
        rw [Process.messages, Lib.length_ringContents]
        exact hroom

theorem refines_ipcReceive (h : Registered s) (pid : UInt64) : Refines s (.ipcReceive pid) := by
  have happly : (IpcCall.ipcReceive pid).apply s
      = (.value (kernelIpcReceive s pid).1, (kernelIpcReceive s pid).2) := rfl
  unfold kernelIpcReceive at happly
  cases hfind : s.findProcess pid with
  | none =>
      rw [hfind] at happly
      exact .of_apply happly h (.receiveFails pid (Or.inl (mailboxes_none hfind)))
  | some i =>
      obtain ⟨hactive, hid⟩ := State.findProcess_some hfind
      rw [hfind] at happly
      dsimp only at happly
      by_cases hempty : (s.processes i).ipcCount = 0
      · rw [if_pos hempty] at happly
        apply Refines.of_apply happly h
        refine .receiveFails pid (Or.inr ?_)
        rw [mailboxes_some hfind, messages_empty hempty]
      · rw [if_neg hempty, dif_pos (h.rings i).inRange] at happly
        obtain ⟨hring, hmessages⟩ := (h.rings i).received hempty
        have hreg : Registered (s.setProcess i (s.processes i).received) :=
          h.update rfl rfl hring fun hp => ⟨hp, rfl⟩
        apply Refines.of_apply happly hreg
        show s.mailboxes.Step _ _ (s.setProcess i (s.processes i).received).mailboxes
        rw [mailboxes_update hreg rfl hactive fun _ => rfl]
        show s.mailboxes.Step _ _ (Function.update s.mailboxes (s.processes i).id _)
        have hhead : Fin.ofNat kIpcQueueSize (s.processes i).ipcHead.toNat
            = ⟨(s.processes i).ipcHead.toNat, (h.rings i).inRange⟩ :=
          Fin.ext (Nat.mod_eq_of_lt (h.rings i).inRange)
        rw [hid, ← hhead]
        apply Mailboxes.Step.received
        rw [mailboxes_some hfind, hmessages]

/-- **Step lemma.** -/
theorem refines (h : Registered s) {c : IpcCall} (hsafe : c.NotWrapped s) : Refines s c := by
  cases c with
  | createProcess name => exact refines_createProcess h hsafe name
  | forkProcess parent => exact refines_forkProcess h hsafe parent
  | execProcess pid name entry argument => exact refines_execProcess h pid name entry argument
  | terminateProcess pid exitCode => exact refines_terminateProcess h pid exitCode
  | ipcSend pid value => exact refines_ipcSend h pid value
  | ipcReceive pid => exact refines_ipcReceive h pid

end Calls

/-! ## Every run -/

theorem init_processes (heap : KernelHeap) {i : Fin kMaxProcesses} (hi : i ≠ 0) :
    (kernelSchedulerInit { heap := heap }).processes i = {} := by
  unfold kernelSchedulerInit
  dsimp only
  rw [Function.update_of_ne hi]

theorem registered_init (heap : KernelHeap) : Registered (kernelSchedulerInit { heap := heap }) := by
  have hactive : ∀ i, ((kernelSchedulerInit { heap := heap }).processes i).active = true → i = 0 := by
    intro i hi
    by_contra hne
    rw [init_processes heap hne] at hi
    exact absurd hi (by simp)
  have hid : ((kernelSchedulerInit { heap := heap }).processes 0).id = 1 := rfl
  have hnext : (kernelSchedulerInit { heap := heap }).nextProcessId = 2 := rfl
  refine ⟨fun i => ?_, ?_, ?_, ?_⟩
  · by_cases hi : i = 0
    · rw [hi]
      exact ringOk_empty rfl rfl rfl
    · rw [init_processes heap hi]
      exact ringOk_empty rfl rfl rfl
  · intro i hi
    rw [hactive i hi, hid]
    decide
  · intro i j hi hj _
    rw [hactive i hi, hactive j hj]
  · intro _ i hi
    rw [hactive i hi, hid, hnext]
    decide

/-- **The queues are mailboxes.** In every run of the six calls after boot that creates no process once the
    counter of ids has come round to 0: the table is a map from active ids to queues in every state, and every
    call answers and acts as it may on mailboxes. -/
theorem ipc_refines (heap : KernelHeap) (cs : List IpcCall)
    (hwrap : Lib.Along IpcCall.step (fun s c => c.NotWrapped s) (kernelSchedulerInit { heap := heap }) cs) :
    Lib.Throughout IpcCall.step IsMailboxes (kernelSchedulerInit { heap := heap }) cs ∧
    Lib.Along IpcCall.step (fun s c => s.mailboxes.Step c (c.apply s).1 (c.step s).mailboxes)
      (kernelSchedulerInit { heap := heap }) cs := by
  have hstart := registered_init heap
  constructor
  · apply Lib.Throughout.mono fun s (h : Registered s) => h.isMailboxes
    apply Lib.throughout_of_along (I := Registered) _ hstart hwrap
    intro s c h hsafe
    exact (refines h hsafe).registered
  · apply Lib.Along.of_invariant (I := Registered) _ _ hstart hwrap
    · intro s c h hsafe
      exact (refines h hsafe).registered
    · intro s c h hsafe
      exact (refines h hsafe).step

/-- A child inherits two messages, reads one, and ends. -/
theorem ipc_refines_fork :
    let cs : List IpcCall :=
      [.ipcSend 1 5, .ipcSend 1 6, .forkProcess 1, .ipcReceive 2, .execProcess 2 none 0 0, .terminateProcess 2 0]
    Lib.Throughout IpcCall.step IsMailboxes (kernelSchedulerInit { heap := {} }) cs ∧
    Lib.Along IpcCall.step (fun s c => s.mailboxes.Step c (c.apply s).1 (c.step s).mailboxes)
      (kernelSchedulerInit { heap := {} }) cs := by
  apply ipc_refines {}
  refine ⟨trivial, trivial, ?_, trivial, trivial, trivial, trivial⟩
  show (kernelIpcSend (kernelIpcSend (kernelSchedulerInit {}) 1 5).2 1 6).2.nextProcessId ≠ 0
  decide +kernel

/-! ## A run in which the ids come round -/

/-- `n` times a process that is created and ended again. -/
def processRounds : Nat → List IpcCall
  | 0     => []
  | n + 1 => processRounds n ++ [.createProcess none, .terminateProcess (UInt64.ofNat (n + 2)) 0]

/-- The kernel's process is the only one and has a message; the next id is `n`. -/
structure Lone (n : Nat) (s : State) : Prop where
  next     : s.nextProcessId = UInt64.ofNat n
  active   : (s.processes 0).active = true
  id       : (s.processes 0).id = 1
  messages : (s.processes 0).messages = [5]
  others   : ∀ i ≠ 0, (s.processes i).active = false

section Lone

variable {s : State} {n : Nat}

/-- A new process gets slot 1. -/
theorem Lone.createProcess (h : Lone n s) (name : Option String) :
    (IpcCall.step s (.createProcess name)).processes =
      Function.update s.processes 1 { id := UInt64.ofNat n, name := name, active := true } ∧
    (IpcCall.step s (.createProcess name)).nextProcessId = UInt64.ofNat (n + 1) := by
  have hslot : Lib.firstSlot (fun i => !(s.processes i).active) = some 1 := by
    apply Lib.firstSlot_eq_some_iff.mpr
    refine ⟨by simp [h.others 1 (by decide)], fun j hj => ?_⟩
    have hj0 : j = 0 := by
      apply Fin.ext
      have hj1 : j.val < 1 := hj
      show j.val = 0
      omega
    rw [hj0, h.active]
    rfl
  have hstep : IpcCall.step s (.createProcess name) = (kernelCreateProcess s name).2 := rfl
  rw [hstep]
  unfold kernelCreateProcess
  rw [hslot, UInt64.ofNat_add, ← h.next]
  exact ⟨rfl, rfl⟩

/-- And ends again. -/
theorem Lone.round (h : Lone n s) (hne : UInt64.ofNat n ≠ 1) (exitCode : Int32) :
    Lone (n + 1) (Lib.run IpcCall.step s [.createProcess none, .terminateProcess (UInt64.ofNat n) exitCode]) := by
  rw [Lib.run_cons, Lib.run_cons, Lib.run_nil]
  obtain ⟨hproc, hnext⟩ := h.createProcess none
  generalize IpcCall.step s (.createProcess none) = s₁ at hproc hnext ⊢
  have hzero : s₁.processes 0 = s.processes 0 := by
    rw [hproc, Function.update_of_ne (show (0 : Fin kMaxProcesses) ≠ 1 by decide)]
  have hone : s₁.processes 1 = { id := UInt64.ofNat n, name := none, active := true } := by
    rw [hproc, Function.update_self]
  have hothers : ∀ i, i ≠ 0 → i ≠ 1 → (s₁.processes i).active = false := by
    intro i hi hi1
    rw [hproc, Function.update_of_ne hi1]
    exact h.others i hi
  have hterm : s₁.terminates (UInt64.ofNat n) = some 1 := by
    unfold State.terminates
    rw [if_neg (show UInt64.ofNat n ≠ kKernelProcessId from hne)]
    apply Lib.firstSlot_unique
    · rw [hone]
      simp
    · intro j hj
      simp only [Bool.and_eq_true, beq_iff_eq] at hj
      by_contra hj1
      by_cases hj0 : j = 0
      · rw [hj0, hzero, h.id] at hj
        exact hne hj.2.symm
      · rw [hothers j hj0 hj1] at hj
        exact absurd hj.1 (by simp)
  obtain ⟨p, hp, hproc₂, hnext₂⟩ : ∃ p : Process, p.active = false ∧
      (IpcCall.step s₁ (.terminateProcess (UInt64.ofNat n) exitCode)).processes = Function.update s₁.processes 1 p ∧
      (IpcCall.step s₁ (.terminateProcess (UInt64.ofNat n) exitCode)).nextProcessId = s₁.nextProcessId := by
    have hstep : IpcCall.step s₁ (.terminateProcess (UInt64.ofNat n) exitCode)
        = (kernelTerminateProcess s₁ (UInt64.ofNat n)).2 := rfl
    rw [hstep]
    unfold kernelTerminateProcess
    rw [hterm]
    exact ⟨_, rfl, rfl, rfl⟩
  have hkept : (Function.update s₁.processes 1 p) 0 = s.processes 0 := by
    rw [Function.update_of_ne (show (0 : Fin kMaxProcesses) ≠ 1 by decide), hzero]
  constructor
  · rw [hnext₂, hnext]
  · rw [hproc₂, hkept]
    exact h.active
  · rw [hproc₂, hkept]
    exact h.id
  · rw [hproc₂, hkept]
    exact h.messages
  · intro i hi
    rw [hproc₂]
    by_cases hi1 : i = 1
    · rw [hi1, Function.update_self]
      exact hp
    · rw [Function.update_of_ne hi1]
      exact hothers i hi hi1

theorem Lone.rounds (h : Lone 2 s) (n : Nat) (hn : n < 2 ^ 64) : Lone (n + 2) (Lib.run IpcCall.step s (processRounds n)) := by
  induction n with
  | zero => exact h
  | succ n ih =>
      rw [processRounds, Lib.run_append]
      apply (ih (by omega)).round
      intro hone
      have hval := congrArg UInt64.toNat hone
      rw [UInt64.toNat_ofNat'] at hval
      have : (1 : UInt64).toNat = 1 := rfl
      omega

/-- A process that gets the kernel's id makes the table no map. -/
theorem Lone.not_isMailboxes (h : Lone n s) (hn : UInt64.ofNat n = 1) :
    ¬ IsMailboxes (IpcCall.step s (.createProcess none)) := by
  intro hmap
  obtain ⟨hproc, -⟩ := h.createProcess none
  have hone := hmap.listed 1 (by rw [hproc, Function.update_self])
  have hzero := hmap.listed 0 (by rw [hproc, Function.update_of_ne (by decide)]; exact h.active)
  rw [hproc, Function.update_self] at hone
  rw [hproc, Function.update_of_ne (by decide), h.id, h.messages] at hzero
  -- the same id has two queues
  rw [hn, hzero] at hone
  exact absurd (Option.some.inj hone) (by simp [messages_empty])

/-- After the rounds, the next process gets the kernel's id. -/
theorem Lone.wraps (h : Lone 2 s) {n : Nat} (hn : n < 2 ^ 64) (hone : UInt64.ofNat (n + 2) = 1) :
    ¬ Lib.Throughout IpcCall.step IsMailboxes s (processRounds n ++ [.createProcess none]) := by
  intro hmap
  have hlast := hmap.last
  rw [Lib.run_append] at hlast
  exact (h.rounds n hn).not_isMailboxes hone hlast

theorem lone_send (heap : KernelHeap) :
    Lone 2 (IpcCall.step (kernelSchedulerInit { heap := heap }) (.ipcSend 1 5)) := by
  have hroom : (0 : UInt64).toNat < 8 := by decide
  obtain ⟨-, hmessages⟩ := ((registered_init heap).rings 0).sent hroom 5
  have hfind : (kernelSchedulerInit { heap := heap }).findProcess 1 = some 0 :=
    (registered_init heap).findProcess_eq (i := 0) rfl
  have hstep : IpcCall.step (kernelSchedulerInit { heap := heap }) (.ipcSend 1 5)
      = (kernelIpcSend (kernelSchedulerInit { heap := heap }) 1 5).2 := rfl
  obtain ⟨hproc, hnext⟩ : (IpcCall.step (kernelSchedulerInit { heap := heap }) (.ipcSend 1 5)).processes =
      Function.update (kernelSchedulerInit { heap := heap }).processes 0
        (((kernelSchedulerInit { heap := heap }).processes 0).sent 5) ∧
      (IpcCall.step (kernelSchedulerInit { heap := heap }) (.ipcSend 1 5)).nextProcessId = 2 := by
    rw [hstep]
    unfold kernelIpcSend
    rw [hfind]
    exact ⟨rfl, rfl⟩
  constructor
  · exact hnext
  · rw [hproc, Function.update_self]
    rfl
  · rw [hproc, Function.update_self]
    rfl
  · rw [hproc, Function.update_self, hmessages]
    rfl
  · intro i hi
    rw [hproc, Function.update_of_ne hi, init_processes heap hi]

/-- After the rounds, the next process gets the kernel's id. -/
theorem not_isMailboxes_of_wrap {n : Nat} (hn : n < 2 ^ 64) (hone : UInt64.ofNat (n + 2) = 1) :
    ¬ Lib.Throughout IpcCall.step IsMailboxes (kernelSchedulerInit { heap := {} })
      (.ipcSend 1 5 :: (processRounds n ++ [.createProcess none])) := by
  intro hmap
  exact (lone_send {}).wraps hn hone hmap.2

/-- A message is in the queue of process 1 when, `2 ^ 64 - 1` processes later, another process 1 is created. -/
theorem ipc_wraps :
    ¬ Lib.Throughout IpcCall.step IsMailboxes (kernelSchedulerInit { heap := {} })
      (.ipcSend 1 5 :: (processRounds (2 ^ 64 - 1) ++ [.createProcess none])) :=
  not_isMailboxes_of_wrap (by decide) (by decide)

end Lone

end Scheduler
end UefiBoot
