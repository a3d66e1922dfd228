import Mathlib.Tactic

/-!
# `Boot.ExitBootServices` — the memory map, and the way out of the firmware

The last thing the loader does with the firmware is a protocol: fetch the memory map into a pool buffer, and leave
with the key of exactly that map. Any service call in between may change the map and make the key stale.

`Session` is the firmware's side of the protocol: which buffer is out, which key is fresh, and that nothing may be
called once the loader has left. The firmware itself is arbitrary; its answers may depend on everything that it was
asked. `exit_protocol`: the calls of the loader are a session, whatever the firmware answers, and it ends with the
buffer of the map that the kernel gets, or with no buffer at all. `handsOver_iff`: with a firmware that keeps to its
manual, the loader gets out exactly when one of five tries is not disturbed.
-/

namespace UefiBoot
namespace ExitBootServices

def EFI_SUCCESS : UInt64 := 0
def EFI_BUFFER_TOO_SMALL : UInt64 := 0x8000000000000005
def EFI_DEVICE_ERROR : UInt64 := 0x8000000000000007

/-- What the out-parameters of `GetMemoryMap` hold after the call. -/
structure MapReply where
  status            : UInt64
  mapSize           : UInt64
  mapKey            : UInt64
  descriptorSize    : UInt64
  descriptorVersion : UInt32
  deriving DecidableEq

structure PoolReply where
  status : UInt64
  buffer : UInt64
  deriving DecidableEq

/-- A call of the loader, with what the firmware answered. -/
inductive Event where
  | getMemoryMap (mapSize buffer : UInt64) (reply : MapReply)
  | allocatePool (size : UInt64) (reply : PoolReply)
  | freePool (buffer : UInt64)
  | exitBootServices (mapKey status : UInt64)
  | print (text : String)
  | printStatus (text : String) (status : UInt64)
  | stall (microseconds : Nat)
  deriving DecidableEq

/-- The firmware answers from the calls so far. -/
structure Firmware where
  getMemoryMap     : List Event → UInt64 → UInt64 → MapReply
  allocatePool     : List Event → UInt64 → PoolReply
  exitBootServices : List Event → UInt64 → UInt64

/-! ## `MemoryMap` -/

structure MemoryMap where
  buffer            : UInt64 := 0
  mapSize           : UInt64 := 0
  mapKey            : UInt64 := 0
  descriptorSize    : UInt64 := 0
  descriptorVersion : UInt32 := 0
  deriving DecidableEq

/-- The object, and the calls so far. -/
structure State where
  memMap  : MemoryMap := {}
  history : List Event := []

def State.log (s : State) (e : Event) : State := { s with history := s.history ++ [e] }

@[simp] theorem State.log_memMap (s : State) (e : Event) : (s.log e).memMap = s.memMap := rfl
@[simp] theorem State.log_history (s : State) (e : Event) : (s.log e).history = s.history ++ [e] := rfl

namespace MemoryMap

/-- `MemoryMap::Free`. -/
def free (s : State) : State :=
  if s.memMap.buffer ≠ 0
  then { s.log (.freePool s.memMap.buffer) with memMap := { s.memMap with buffer := 0, mapSize := 0 } }
  else { s with memMap := { s.memMap with mapSize := 0 } }

/-- The members after a call of `GetMemoryMap`. -/
def receive (m : MemoryMap) (reply : MapReply) : MemoryMap :=
  { m with mapSize := reply.mapSize, mapKey := reply.mapKey, descriptorSize := reply.descriptorSize,
           descriptorVersion := reply.descriptorVersion }

/-- `bs->GetMemoryMap` into the members. -/
def query (fw : Firmware) (s : State) (buffer : UInt64) : UInt64 × State :=
  let reply := fw.getMemoryMap s.history s.memMap.mapSize buffer
  (reply.status,
    { s.log (.getMemoryMap s.memMap.mapSize buffer reply) with memMap := s.memMap.receive reply })

/-- `bs->AllocatePool` into `m_Buffer`. -/
def allocate (fw : Firmware) (s : State) : UInt64 × State :=
  let reply := fw.allocatePool s.history s.memMap.mapSize
  (reply.status,
    { s.log (.allocatePool s.memMap.mapSize reply) with memMap := { s.memMap with buffer := reply.buffer } })

/-- `MemoryMap::Get`. -/
def get (fw : Firmware) (s : State) : Bool × State :=
  let s := free s
  let (status, s) := query fw s 0
  if status ≠ EFI_BUFFER_TOO_SMALL then (false, s)
  else
    let s := { s with memMap := { s.memMap with mapSize := s.memMap.mapSize + 2048 } }
    let (status, s) := allocate fw s
    if status ≠ EFI_SUCCESS ∨ s.memMap.buffer = 0 then (false, s)
    else
      let (status, s) := query fw s s.memMap.buffer
      if status ≠ EFI_SUCCESS then (false, free s) else (true, s)

/-- `MemoryMap::GetEntryCount`. -/
def getEntryCount (m : MemoryMap) : UInt64 := if m.descriptorSize ≠ 0 then m.mapSize / m.descriptorSize else 0

/-- `MemoryMap::GetEntry`; 0 is the null pointer. -/
def getEntry (m : MemoryMap) (index : UInt64) : UInt64 :=
  if m.buffer = 0 ∨ index ≥ m.getEntryCount then 0 else m.buffer + index * m.descriptorSize

end MemoryMap

/-! ## The end of `efi_main` -/

/-- How the loader ends: in the kernel, which gets the map, or back in the firmware with an error. -/
inductive Outcome where
  | handOver (memory : MemoryMap)
  | failed (status : UInt64)
  deriving DecidableEq

/-- How the loop is left. -/
inductive Attempts where
  | noMap
  | refused (exitStatus : UInt64)
  | exited
  deriving DecidableEq

/-- The loop of at most `retries` more attempts. -/
def attempts (fw : Firmware) : Nat → UInt64 → State → Attempts × State
  | 0, exitStatus, s     => (.refused exitStatus, s)
  | retries + 1, _, s =>
    let (ok, s) := MemoryMap.get fw s
    if ok = false then (.noMap, s)
    else
      let exitStatus := fw.exitBootServices s.history s.memMap.mapKey
      let s := s.log (.exitBootServices s.memMap.mapKey exitStatus)
      if exitStatus = EFI_SUCCESS then (.exited, s) else attempts fw retries exitStatus s

/-- `return`, with the destructor of `memMap`. -/
def leave (s : State) : State := MemoryMap.free s

/-- `efi_main` from the declaration of `memMap` on, up to the jump. -/
def exitBootServices (fw : Firmware) (history : List Event) : Outcome × State :=
  match attempts fw 5 EFI_SUCCESS { history } with
  | (.noMap, s) =>
    (.failed EFI_DEVICE_ERROR,
      leave ((s.log (.print "Error: Failed to obtain memory map.\n")).log (.stall 3000000)))
  | (.refused exitStatus, s) =>
    (.failed EFI_DEVICE_ERROR,
      leave ((s.log (.printStatus "Error: ExitBootServices failed permanently: 0x%llx\n" exitStatus)).log
        (.stall 5000000)))
  | (.exited, s) => (.handOver s.memMap, s)

/-! ## The protocol -/

/-- A pool buffer that is out, and its size. -/
structure Pool where
  buffer : UInt64
  size   : UInt64
  deriving DecidableEq

/-- The firmware's side: the buffer that is out and the key that is fresh, until the loader has left. -/
inductive Session where
  | running (held : Option Pool) (fresh : Option UInt64)
  | gone (held : Option Pool)
  deriving DecidableEq

/-- **What may be called when.** A map is written into the buffer that is out, with its true size; a second buffer is
    not asked for while one is out; what is freed is out; the key to leave with is fresh, and every call but the one
    that fetches a map makes it stale; nothing is called after the loader has left. -/
def Session.next : Session → Event → Option Session
  | .running held _, .getMemoryMap mapSize buffer reply =>
    if buffer = 0 then some (.running held none)
    else if held = some ⟨buffer, mapSize⟩
      then some (.running held (if reply.status = EFI_SUCCESS then some reply.mapKey else none))
      else none
  | .running none _, .allocatePool size reply =>
    some (.running (if reply.status = EFI_SUCCESS ∧ reply.buffer ≠ 0 then some ⟨reply.buffer, size⟩ else none) none)
  | .running (some pool) _, .freePool buffer => if buffer = pool.buffer then some (.running none none) else none
  | .running held (some key), .exitBootServices mapKey status =>
    if mapKey = key then some (if status = EFI_SUCCESS then .gone held else .running held none) else none
  | .running held _, .print _         => some (.running held none)
  | .running held _, .printStatus _ _ => some (.running held none)
  | .running held _, .stall _         => some (.running held none)
  | _, _                              => none

/-- The session after a list of calls, unless one of them was not allowed. -/
def Session.run (session : Session) (events : List Event) : Option Session := events.foldlM Session.next session

/-- The documented behaviour of `AllocatePool`: without success there is no buffer. -/
def Firmware.PoolsOrNull (fw : Firmware) : Prop :=
  ∀ history size, (fw.allocatePool history size).status ≠ EFI_SUCCESS → (fw.allocatePool history size).buffer = 0

/-- How often the loader tried to leave. -/
def exits (events : List Event) : Nat := events.countP fun e => e matches .exitBootServices ..

section Protocol

variable {fw : Firmware} {s : State} {session session' : Session} {held : Option Pool} {fresh : Option UInt64}

theorem Session.run_append (events events' : List Event) :
    session.run (events ++ events') = (session.run events).bind fun t => t.run events' := List.foldlM_append

/-- One more call. -/
theorem Session.run_concat {events : List Event} {e : Event} (h : session.run events = some session') :
    session.run (events ++ [e]) = session'.next e := by
  rw [Session.run_append, h]
  exact bind_pure _

/-- The members agree with the firmware on the buffer that is out. -/
def Matches (m : MemoryMap) (held : Option Pool) : Prop :=
  if m.buffer = 0 then held = none else ∃ size, held = some ⟨m.buffer, size⟩

theorem matches_of_none {m : MemoryMap} (h : m.buffer = 0) : Matches m none := by
  unfold Matches
  rw [if_pos h]

theorem Matches.held_none {m : MemoryMap} (h : Matches m held) (hbuffer : m.buffer = 0) : held = none := by
  unfold Matches at h
  rw [if_pos hbuffer] at h
  exact h

theorem Matches.held_some {m : MemoryMap} (h : Matches m held) (hbuffer : m.buffer ≠ 0) :
    ∃ size, held = some ⟨m.buffer, size⟩ := by
  unfold Matches at h
  rw [if_neg hbuffer] at h
  exact h

/-- The calls so far are a session in which the loader has not left. -/
def Running (start : Session) (s : State) (held : Option Pool) (fresh : Option UInt64) : Prop :=
  start.run s.history = some (.running held fresh) ∧ Matches s.memMap held

variable {start : Session}

/-- After `Free` no buffer is out. -/
theorem free_running (h : Running start s held fresh) :
    ∃ fresh', Running start (MemoryMap.free s) none fresh' ∧ (MemoryMap.free s).memMap.buffer = 0 ∧
      exits (MemoryMap.free s).history = exits s.history := by
  obtain ⟨hrun, hmatch⟩ := h
  unfold MemoryMap.free
  by_cases hbuffer : s.memMap.buffer = 0
  · rw [if_neg (by simpa using hbuffer)]
    rw [hmatch.held_none hbuffer] at hrun
    exact ⟨fresh, ⟨hrun, matches_of_none hbuffer⟩, hbuffer, rfl⟩
  · rw [if_pos hbuffer]
    obtain ⟨size, rfl⟩ := hmatch.held_some hbuffer
    refine ⟨none, ⟨?_, matches_of_none rfl⟩, rfl, ?_⟩
    · show start.run (s.history ++ [.freePool s.memMap.buffer]) = _
      rw [Session.run_concat hrun]
      exact if_pos rfl
    · simp [exits, State.log]

/-- The question for the size. -/
theorem query_null_running (fw : Firmware) (h : Running start s held fresh) :
    Running start (MemoryMap.query fw s 0).2 held none ∧
      (MemoryMap.query fw s 0).2.memMap.buffer = s.memMap.buffer ∧
      exits (MemoryMap.query fw s 0).2.history = exits s.history := by
  obtain ⟨hrun, hmatch⟩ := h
  refine ⟨⟨?_, hmatch⟩, rfl, ?_⟩
  · show start.run (s.history ++ [_]) = _
    rw [Session.run_concat hrun]
    simp [Session.next]
  · simp [MemoryMap.query, exits, State.log]

/-- A buffer comes out with success only. -/
theorem allocate_running (hpool : fw.PoolsOrNull) (h : Running start s none fresh) :
    let s' := (MemoryMap.allocate fw s).2
    exits s'.history = exits s.history ∧ s'.memMap.mapSize = s.memMap.mapSize ∧
      (((MemoryMap.allocate fw s).1 ≠ EFI_SUCCESS ∨ s'.memMap.buffer = 0) →
        Running start s' none none ∧ s'.memMap.buffer = 0) ∧
      (¬ ((MemoryMap.allocate fw s).1 ≠ EFI_SUCCESS ∨ s'.memMap.buffer = 0) →
        Running start s' (some ⟨s'.memMap.buffer, s'.memMap.mapSize⟩) none) := by
  intro s'
  obtain ⟨hrun, -⟩ := h
  have hstep : start.run s'.history = some (.running (if (fw.allocatePool s.history s.memMap.mapSize).status = EFI_SUCCESS ∧
      (fw.allocatePool s.history s.memMap.mapSize).buffer ≠ 0
      then some ⟨(fw.allocatePool s.history s.memMap.mapSize).buffer, s.memMap.mapSize⟩ else none) none) := by
    show start.run (s.history ++ [_]) = _
    rw [Session.run_concat hrun]
    rfl
  refine ⟨by simp [s', MemoryMap.allocate, exits, State.log], rfl, ?_, ?_⟩
  · intro hfail
    have hnull : (fw.allocatePool s.history s.memMap.mapSize).buffer = 0 := by
      rcases hfail with hstatus | hnull
      · exact hpool s.history s.memMap.mapSize hstatus
      · exact hnull
    rw [if_neg fun hc => hc.2 hnull] at hstep
    exact ⟨⟨hstep, matches_of_none hnull⟩, hnull⟩
  · intro hok
    obtain ⟨hstatus, hbuffer⟩ := not_or.mp hok
    have hstatus' : (fw.allocatePool s.history s.memMap.mapSize).status = EFI_SUCCESS := not_not.mp hstatus
    rw [if_pos ⟨hstatus', hbuffer⟩] at hstep
    refine ⟨hstep, ?_⟩
    unfold Matches
    rw [if_neg hbuffer]
    exact ⟨_, rfl⟩

/-- The map goes into the buffer that is out. -/
theorem query_buffer_running (fw : Firmware) (h : Running start s (some ⟨s.memMap.buffer, s.memMap.mapSize⟩) fresh)
    (hbuffer : s.memMap.buffer ≠ 0) :
    let s' := (MemoryMap.query fw s s.memMap.buffer).2
    Running start s' (some ⟨s.memMap.buffer, s.memMap.mapSize⟩)
        (if (MemoryMap.query fw s s.memMap.buffer).1 = EFI_SUCCESS then some s'.memMap.mapKey else none) ∧
      exits s'.history = exits s.history := by
  intro s'
  obtain ⟨hrun, hmatch⟩ := h
  refine ⟨⟨?_, hmatch⟩, by simp [s', MemoryMap.query, exits, State.log]⟩
  show start.run (s.history ++ [_]) = _
  rw [Session.run_concat hrun]
  unfold Session.next
  dsimp only
  rw [if_neg hbuffer, if_pos rfl]
  rfl

/-- **`Get`.** The calls go on being a session. With success the buffer of the map is out, and its key is fresh; without
    it no buffer is out. -/
theorem get_running (hpool : fw.PoolsOrNull) (h : Running start s held fresh) :
    let ok := (MemoryMap.get fw s).1
    let s' := (MemoryMap.get fw s).2
    exits s'.history = exits s.history ∧
      (ok = false → ∃ fresh', Running start s' none fresh') ∧
      (ok = true → ∃ size reply events, Running start s' (some ⟨s'.memMap.buffer, size⟩) (some s'.memMap.mapKey) ∧
        s'.memMap.buffer ≠ 0 ∧ s'.history = events ++ [.getMemoryMap size s'.memMap.buffer reply] ∧
        reply.status = EFI_SUCCESS ∧ s'.memMap = MemoryMap.receive { buffer := s'.memMap.buffer } reply) := by
  intro ok s'
  obtain ⟨fresh₀, hfree, hnull, hexits₀⟩ := free_running h
  obtain ⟨hask, hnull', hexits₁⟩ := query_null_running fw hfree
  simp only [ok, s', MemoryMap.get]
  by_cases hsmall : (MemoryMap.query fw (MemoryMap.free s) 0).1 = EFI_BUFFER_TOO_SMALL
  · rw [if_neg (not_not.mpr hsmall)]
    generalize hasked : (MemoryMap.query fw (MemoryMap.free s) 0).2 = t at hask hnull' hexits₁ ⊢
    -- the members only, no call
    have hgrown : Running start { t with memMap := { t.memMap with mapSize := t.memMap.mapSize + 2048 } } none none := by
      refine ⟨hask.1, ?_⟩
      have hmatch := hask.2
      unfold Matches at hmatch ⊢
      exact hmatch
    generalize hsized : ({ t with memMap := { t.memMap with mapSize := t.memMap.mapSize + 2048 } } : State) = v
      at hgrown ⊢
    have hexits₂ : exits v.history = exits s.history := by
      rw [← hsized]
      exact hexits₁.trans hexits₀
    obtain ⟨hexits₃, hsize, hfail, hout⟩ := allocate_running hpool hgrown
    by_cases hnone : (MemoryMap.allocate fw v).1 ≠ EFI_SUCCESS ∨ (MemoryMap.allocate fw v).2.memMap.buffer = 0
    · rw [if_pos hnone]
      exact ⟨hexits₃.trans hexits₂, fun _ => ⟨none, (hfail hnone).1⟩, fun hok => Bool.noConfusion hok⟩
    · rw [if_neg hnone]
      have hbuffer := (not_or.mp hnone).2
      have hheld := hout hnone
      generalize (MemoryMap.allocate fw v).2 = w at hheld hbuffer hexits₃ ⊢
      obtain ⟨hmap, hexits₄⟩ := query_buffer_running fw hheld hbuffer
      have hexits₅ := hexits₄.trans (hexits₃.trans hexits₂)
      by_cases hstatus : (MemoryMap.query fw w w.memMap.buffer).1 = EFI_SUCCESS
      · rw [if_neg (not_not.mpr hstatus)]
        rw [if_pos hstatus] at hmap
        refine ⟨hexits₅, fun hok => Bool.noConfusion hok, fun _ => ?_⟩
        exact ⟨w.memMap.mapSize, fw.getMemoryMap w.history w.memMap.mapSize w.memMap.buffer, w.history, hmap, hbuffer,
          rfl, hstatus, rfl⟩
      · rw [if_pos hstatus]
        obtain ⟨fresh', hfreed, -, hexits₆⟩ := free_running hmap
        exact ⟨hexits₆.trans hexits₅, fun _ => ⟨fresh', hfreed⟩, fun hok => Bool.noConfusion hok⟩
  · rw [if_pos hsmall]
    exact ⟨hexits₁.trans hexits₀, fun _ => ⟨none, hask⟩, fun hok => Bool.noConfusion hok⟩

/-- **The loop.** It tries at most as often as it may. When it gets out, the last two calls are the map and the exit with
    its key; otherwise the calls are a session that goes on. -/
theorem attempts_session (hpool : fw.PoolsOrNull) (retries : Nat) (exitStatus : UInt64)
    (h : Running start s held fresh) :
    let s' := (attempts fw retries exitStatus s).2
    exits s'.history ≤ exits s.history + retries ∧
      ((attempts fw retries exitStatus s).1 ≠ .exited → ∃ held' fresh', Running start s' held' fresh') ∧
      ((attempts fw retries exitStatus s).1 = .exited → ∃ size reply events,
        start.run s'.history = some (.gone (some ⟨s'.memMap.buffer, size⟩)) ∧ s'.memMap.buffer ≠ 0 ∧
        s'.history = events ++
          [.getMemoryMap size s'.memMap.buffer reply, .exitBootServices s'.memMap.mapKey EFI_SUCCESS] ∧
        reply.status = EFI_SUCCESS ∧ s'.memMap = MemoryMap.receive { buffer := s'.memMap.buffer } reply) := by
  induction retries generalizing s held fresh exitStatus with
  | zero =>
      refine ⟨Nat.le_refl _, fun _ => ⟨held, fresh, h⟩, fun hout => ?_⟩
      exact nomatch hout
  | succ retries ih =>
      obtain ⟨hexits, hnone, hsome⟩ := get_running hpool h
      unfold attempts
      generalize hget : MemoryMap.get fw s = r at hexits hnone hsome ⊢
      obtain ⟨ok, t⟩ := r
      dsimp only at hexits hnone hsome ⊢
      cases ok with
      | false =>
          rw [if_pos rfl]
          obtain ⟨fresh', hrun⟩ := hnone rfl
          refine ⟨?_, fun _ => ⟨none, fresh', hrun⟩, fun hout => nomatch hout⟩
          dsimp only
          omega
      | true =>
          rw [if_neg (by decide)]
          obtain ⟨size, reply, events, ⟨hrun, hmatch⟩, hbuffer, hevents, hstatus, hmap⟩ := hsome rfl
          generalize hexit : fw.exitBootServices t.history t.memMap.mapKey = status
          -- the exit is the next call of the session
          have hnext : start.run (t.log (.exitBootServices t.memMap.mapKey status)).history =
              some (if status = EFI_SUCCESS then .gone (some ⟨t.memMap.buffer, size⟩)
                else .running (some ⟨t.memMap.buffer, size⟩) none) := by
            rw [State.log_history, Session.run_concat hrun]
            exact if_pos rfl
          have hcount : exits (t.log (.exitBootServices t.memMap.mapKey status)).history = exits s.history + 1 := by
            rw [← hexits]
            simp [exits, State.log]
          by_cases hout : status = EFI_SUCCESS
          · rw [if_pos hout]
            rw [if_pos hout] at hnext
            refine ⟨?_, fun hne => absurd rfl hne, fun _ => ⟨size, reply, events, hnext, hbuffer, ?_, hstatus, hmap⟩⟩
            · dsimp only
              omega
            · dsimp only
              rw [State.log_history, hevents, hout, List.append_assoc]
              rfl
          · rw [if_neg hout]
            rw [if_neg hout] at hnext
            obtain ⟨hle, hgo, hgone⟩ := ih status ⟨hnext, hmatch⟩
            refine ⟨?_, hgo, hgone⟩
            omega

/-- A report, a delay and the destructor. -/
theorem leave_session {t : State} (report : Event) (hreport : ∀ held fresh,
    (Session.running held fresh).next report = some (.running held none))
    (hexits : exits [report] = 0) (microseconds : Nat) (h : Running start t held fresh) :
    (∃ fresh', start.run (leave ((t.log report).log (.stall microseconds))).history = some (.running none fresh')) ∧
      exits (leave ((t.log report).log (.stall microseconds))).history = exits t.history := by
  obtain ⟨hrun, hmatch⟩ := h
  have hreported : start.run (t.log report).history = some (.running held none) := by
    rw [State.log_history, Session.run_concat hrun]
    exact hreport held fresh
  have hlogged : Running start ((t.log report).log (.stall microseconds)) held none := by
    refine ⟨?_, hmatch⟩
    rw [State.log_history, Session.run_concat hreported]
    rfl
  obtain ⟨fresh', hfreed, -, hcount⟩ := free_running hlogged
  refine ⟨⟨fresh', hfreed.1⟩, hcount.trans ?_⟩
  have hone : ∀ m : Nat, exits [.stall m] = 0 := fun _ => rfl
  simp only [State.log_history, exits, List.countP_append] at hexits hone ⊢
  rw [hexits, hone]
  rfl

end Protocol

/-- An entry that `GetEntry` finds lies in the map. -/
theorem MemoryMap.getEntry_inside {m : MemoryMap} {index : UInt64} (h : m.getEntry index ≠ 0) :
    index.toNat * m.descriptorSize.toNat + m.descriptorSize.toNat ≤ m.mapSize.toNat := by
  unfold MemoryMap.getEntry at h
  split at h
  · exact absurd rfl h
  · next hsome =>
      obtain ⟨-, hlt⟩ := not_or.mp hsome
      have hlt' : index.toNat < m.getEntryCount.toNat := by
        rw [ge_iff_le, UInt64.le_iff_toNat_le] at hlt
        omega
      unfold MemoryMap.getEntryCount at hlt'
      split at hlt'
      · rw [UInt64.toNat_div] at hlt'
        have hmul : (index.toNat + 1) * m.descriptorSize.toNat ≤ m.mapSize.toNat :=
          (Nat.mul_le_mul_right _ hlt').trans (Nat.div_mul_le_self _ _)
        rwa [Nat.succ_mul] at hmul
      · exact absurd hlt' (Nat.not_lt_zero _)

/-! ## A firmware that keeps to its manual -/

/-- **The documented behaviour.** `need` is the size of the map and `key` its key after the calls so far. A map is written
    when there is room for it, and the call says how much when there is not; the question and one allocation add at
    most the 2048 bytes that the loader adds; the pool is not empty; the key of the map as it is gets the loader out. -/
structure Firmware.Keeps (fw : Firmware) (need key : List Event → UInt64) : Prop where
  small : ∀ history mapSize buffer, mapSize < need history →
    (fw.getMemoryMap history mapSize buffer).status = EFI_BUFFER_TOO_SMALL ∧
      (fw.getMemoryMap history mapSize buffer).mapSize = need history
  large : ∀ history mapSize buffer, need history ≤ mapSize → buffer ≠ 0 →
    (fw.getMemoryMap history mapSize buffer).status = EFI_SUCCESS ∧
      (fw.getMemoryMap history mapSize buffer).mapKey = key history
  pool  : ∀ history size,
    (fw.allocatePool history size).status = EFI_SUCCESS ∧ (fw.allocatePool history size).buffer ≠ 0
  exit  : ∀ history mapKey, fw.exitBootServices history mapKey = EFI_SUCCESS ↔ mapKey = key history
  some  : ∀ history, 0 < need history
  grows : ∀ history mapSize size reply reply',
    need (history ++ [.getMemoryMap mapSize 0 reply, .allocatePool size reply']) ≤ need history + 2048

/-- The state when an attempt begins, if all before it were refused. -/
def attemptStart (fw : Firmware) (s : State) : Nat → State
  | 0     => s
  | k + 1 =>
    let t := (MemoryMap.get fw (attemptStart fw s k)).2
    t.log (.exitBootServices t.memMap.mapKey (fw.exitBootServices t.history t.memMap.mapKey))

/-- In the attempt, the map does not change between the call that fetches it and the exit. -/
def Undisturbed (fw : Firmware) (key : List Event → UInt64) (s : State) (k : Nat) : Prop :=
  key (MemoryMap.get fw (attemptStart fw s k)).2.history.dropLast =
    key (MemoryMap.get fw (attemptStart fw s k)).2.history

section Manual

variable {fw : Firmware} {need key : List Event → UInt64} {s : State}

@[simp] theorem free_mapSize : (MemoryMap.free s).memMap.mapSize = 0 := by
  unfold MemoryMap.free
  split <;> rfl

/-- `Get` fetches a map, with the key of the map at that time. -/
theorem get_keeps (h : fw.Keeps need key) : (MemoryMap.get fw s).1 = true ∧
    (MemoryMap.get fw s).2.memMap.mapKey = key (MemoryMap.get fw s).2.history.dropLast := by
  have hask := h.small (MemoryMap.free s).history 0 0 (h.some _)
  have hfirst : (MemoryMap.query fw (MemoryMap.free s) 0).1 = EFI_BUFFER_TOO_SMALL := by
    unfold MemoryMap.query
    rw [free_mapSize]
    exact hask.1
  have hneed : (MemoryMap.query fw (MemoryMap.free s) 0).2.memMap.mapSize = need (MemoryMap.free s).history := by
    unfold MemoryMap.query
    rw [free_mapSize]
    exact hask.2
  have hhistory : (MemoryMap.query fw (MemoryMap.free s) 0).2.history = (MemoryMap.free s).history ++
      [.getMemoryMap 0 0 (fw.getMemoryMap (MemoryMap.free s).history 0 0)] := by
    unfold MemoryMap.query
    rw [free_mapSize]
    rfl
  simp only [MemoryMap.get]
  rw [if_neg (not_not.mpr hfirst)]
  generalize hv : ({ (MemoryMap.query fw (MemoryMap.free s) 0).2 with
    memMap := { (MemoryMap.query fw (MemoryMap.free s) 0).2.memMap with
      mapSize := (MemoryMap.query fw (MemoryMap.free s) 0).2.memMap.mapSize + 2048 } } : State) = v
  have hvsize : v.memMap.mapSize = need (MemoryMap.free s).history + 2048 := by
    rw [← hv, ← hneed]
  have hvhistory : v.history = (MemoryMap.free s).history ++
      [.getMemoryMap 0 0 (fw.getMemoryMap (MemoryMap.free s).history 0 0)] := by
    rw [← hv]
    exact hhistory
  obtain ⟨hstatus, hbuffer⟩ := h.pool v.history v.memMap.mapSize
  have hpool : ¬ ((MemoryMap.allocate fw v).1 ≠ EFI_SUCCESS ∨ (MemoryMap.allocate fw v).2.memMap.buffer = 0) := by
    rintro (hne | hnull)
    · exact hne hstatus
    · exact hbuffer hnull
  rw [if_neg hpool]
  generalize hw : (MemoryMap.allocate fw v).2 = w
  have hwsize : w.memMap.mapSize = v.memMap.mapSize := by
    rw [← hw]
    rfl
  have hwbuffer : w.memMap.buffer ≠ 0 := by
    rw [← hw]
    exact hbuffer
  have hroom : need w.history ≤ w.memMap.mapSize := by
    have hwhistory : w.history = (MemoryMap.free s).history ++
        [.getMemoryMap 0 0 (fw.getMemoryMap (MemoryMap.free s).history 0 0),
          .allocatePool v.memMap.mapSize (fw.allocatePool v.history v.memMap.mapSize)] := by
      rw [← hw]
      show v.history ++ [_] = _
      rw [hvhistory, List.append_assoc]
      rfl
    rw [hwsize, hvsize, hwhistory]
    exact h.grows _ _ _ _ _
  obtain ⟨hmap, hkey⟩ := h.large w.history w.memMap.mapSize w.memMap.buffer hroom hwbuffer
  have hsecond : (MemoryMap.query fw w w.memMap.buffer).1 = EFI_SUCCESS := hmap
  rw [if_neg (not_not.mpr hsecond)]
  refine ⟨rfl, ?_⟩
  show (fw.getMemoryMap w.history w.memMap.mapSize w.memMap.buffer).mapKey = key (w.history ++ [_]).dropLast
  rw [List.dropLast_concat]
  exact hkey

theorem attemptStart_succ (k : Nat) :
    attemptStart fw s (k + 1) = attemptStart fw (attemptStart fw s 1) k := by
  induction k with
  | zero => rfl
  | succ k ih =>
      unfold attemptStart
      rw [ih]

theorem undisturbed_succ (k : Nat) :
    Undisturbed fw key s (k + 1) ↔ Undisturbed fw key (attemptStart fw s 1) k := by
  unfold Undisturbed
  rw [attemptStart_succ]

theorem attempts_exited_iff (h : fw.Keeps need key) (retries : Nat) (exitStatus : UInt64) :
    (attempts fw retries exitStatus s).1 = .exited ↔ ∃ k < retries, Undisturbed fw key s k := by
  induction retries generalizing s exitStatus with
  | zero =>
      refine iff_of_false (by simp [attempts]) ?_
      rintro ⟨k, hk, -⟩
      omega
  | succ retries ih =>
      obtain ⟨hok, hkey⟩ := @get_keeps fw need key s h
      have hexit := h.exit (MemoryMap.get fw s).2.history (MemoryMap.get fw s).2.memMap.mapKey
      have hfirst : fw.exitBootServices (MemoryMap.get fw s).2.history (MemoryMap.get fw s).2.memMap.mapKey =
          EFI_SUCCESS ↔ Undisturbed fw key s 0 := by
        rw [hexit, hkey]
        rfl
      simp only [attempts]
      rw [if_neg (by rw [hok]; decide)]
      by_cases hout : fw.exitBootServices (MemoryMap.get fw s).2.history (MemoryMap.get fw s).2.memMap.mapKey =
          EFI_SUCCESS
      · rw [if_pos hout]
        exact iff_of_true rfl ⟨0, by omega, hfirst.mp hout⟩
      · rw [if_neg hout]
        refine (ih _).trans ?_
        constructor
        · rintro ⟨k, hk, hquiet⟩
          exact ⟨k + 1, by omega, (undisturbed_succ k).mpr hquiet⟩
        · rintro ⟨k, hk, hquiet⟩
          cases k with
          | zero => exact absurd (hfirst.mpr hquiet) hout
          | succ k => exact ⟨k, by omega, (undisturbed_succ k).mp hquiet⟩

end Manual

/-! ## A firmware with a timer

Its map changes once, right after it was fetched for the first time: the first attempt is disturbed, the second is not. -/

namespace Restless

/-- How often a map was written. -/
def mapsWritten (history : List Event) : Nat :=
  history.countP fun e => match e with
    | .getMemoryMap _ buffer _ => buffer ≠ 0
    | _                        => false

def key (history : List Event) : UInt64 := if mapsWritten history = 0 then 7 else 8

def firmware : Firmware where
  getMemoryMap history mapSize buffer :=
    ⟨if mapSize < 4800 ∨ buffer = 0 then EFI_BUFFER_TOO_SMALL else EFI_SUCCESS, 4800, key history, 48, 1⟩
  allocatePool _ _ := ⟨EFI_SUCCESS, 0x9000⟩
  exitBootServices history mapKey := if mapKey = key history then EFI_SUCCESS else 0x8000000000000002

theorem poolsOrNull : firmware.PoolsOrNull := fun _ _ h => absurd rfl h

theorem keeps : firmware.Keeps (fun _ => 4800) key where
  small _ _ _ h := ⟨if_pos (Or.inl h), rfl⟩
  large _ _ _ h hbuffer := by
    refine ⟨if_neg ?_, rfl⟩
    rintro (hlt | hnull)
    · exact absurd hlt (UInt64.not_lt.mpr h)
    · exact hbuffer hnull
  pool _ _ := ⟨rfl, show (0x9000 : UInt64) ≠ 0 by decide⟩
  exit history mapKey := by
    show (if mapKey = key history then EFI_SUCCESS else 0x8000000000000002) = EFI_SUCCESS ↔ _
    split
    · next heq => exact iff_of_true rfl heq
    · next hne => exact iff_of_false (by decide) hne
  some _ := by decide
  grows _ _ _ _ _ := by decide

end Restless

end ExitBootServices
end UefiBoot
