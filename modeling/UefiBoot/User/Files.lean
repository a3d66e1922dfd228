import UefiBoot.Lib.Select
import UefiBoot.User.State

/-!
# `User.Files` — files, pipes and pseudo terminals of `userspace.cpp`

A file's descriptor is its slot plus three; both ends of a pipe and of a pseudo terminal take theirs from one
counter. A caller's buffer is the bytes at its pointer, with `none` for the null pointer; where the code stores
through pointers of the caller, the model returns what is stored.

`pipeWrite_spec` and `pipeRead_spec` say what the copy loops of a pipe do in terms of how far they get.
-/

namespace UefiBoot
namespace Userspace

/-! ## Files -/

namespace State

/-- `PosixOpen`; the flags are not used. -/
def posixOpen (s : State) (path : Option String) : Int32 × State :=
  if path = none then (-1, s)
  else
    match Lib.firstSlot fun i => !(s.posixFileDescriptors i).isOpen with
    | none   => (-1, s)
    | some i =>
      (Int32.ofNat (i.val + 3),
        s.setPosixFileDescriptor i { fd := Int32.ofNat (i.val + 3), path := path, isOpen := true })

/-- The open file with a descriptor. -/
def findPosixFile (s : State) (fd : Int32) : Option (Fin kMaxPosixFileDescriptors) :=
  Lib.firstSlot fun i => (s.posixFileDescriptors i).isOpen && (s.posixFileDescriptors i).fd == fd

def posixClose (s : State) (fd : Int32) : Int32 × State :=
  match s.findPosixFile fd with
  | none   => (-1, s)
  | some i => (0, s.setPosixFileDescriptor i { fd := -1, path := none, isOpen := false })

end State

/-! ## Pipes -/

namespace UserPipe

/-- The pipe as `CreatePipe` opens it. -/
def fresh (readFd writeFd : Int32) : UserPipe :=
  { readFd := readFd, writeFd := writeFd, buffer := fun _ => 0, readOffset := 0, writeOffset := 0, isOpen := true }

/-- `buffer[i]`. -/
def byteAt (p : UserPipe) (i : Nat) : UInt8 := if h : i < kPipeBufferSize then p.buffer ⟨i, h⟩ else 0

/-- `buffer[write_offset++] = value`. -/
def push (p : UserPipe) (value : UInt8) : UserPipe :=
  { p with
    buffer := fun k => if k.val = p.writeOffset.toNat then value else p.buffer k
    writeOffset := p.writeOffset + 1 }

/-- The loop of `PipeWrite` after `written` turns, with `remaining` bytes of the caller left: the pipe and
    `written` at its end. -/
def writeLoop (data : Nat → UInt8) : Nat → Nat → UserPipe → Nat × UserPipe
  | 0,             written, p => (written, p)
  | remaining + 1, written, p =>
    if p.writeOffset.toNat < kPipeBufferSize then writeLoop data remaining (written + 1) (p.push (data written))
    else (written, p)

/-- The loop of `PipeRead`: the bytes it stores in the caller's buffer and the pipe. -/
def readLoop : Nat → UserPipe → List UInt8 × UserPipe
  | 0,             p => ([], p)
  | remaining + 1, p =>
    if p.readOffset < p.writeOffset then
      let (bytes, p') := readLoop remaining { p with readOffset := p.readOffset + 1 }
      (p.byteAt p.readOffset.toNat :: bytes, p')
    else ([], p)

end UserPipe

namespace State

/-- `CreatePipe`; `outs` tells whether both result pointers are non-null. The descriptors it stores there are
    those of the pipe it returns. -/
def createPipe (s : State) (outs : Bool) : Option (Fin kMaxPipes) × State :=
  if !outs then (none, s)
  else
    match Lib.firstSlot fun i => !(s.pipes i).isOpen with
    | none   => (none, s)
    | some i =>
      (some i,
        { s.setPipe i (.fresh s.nextSyntheticFd (s.nextSyntheticFd + 1)) with
          nextSyntheticFd := s.nextSyntheticFd + 1 + 1
          status := { s.status with pipeCount := s.status.pipeCount + 1 } })

def findWriteEnd (s : State) (fd : Int32) : Option (Fin kMaxPipes) :=
  Lib.firstSlot fun i => (s.pipes i).isOpen && (s.pipes i).writeFd == fd

def findReadEnd (s : State) (fd : Int32) : Option (Fin kMaxPipes) :=
  Lib.firstSlot fun i => (s.pipes i).isOpen && (s.pipes i).readFd == fd

/-- `PipeWrite`. -/
def pipeWrite (s : State) (fd : Int32) (data : Option (Nat → UInt8)) (length : UInt32) : UInt32 × State :=
  match data with
  | none      => (0, s)
  | some data =>
    if length = 0 then (0, s)
    else
      match s.findWriteEnd fd with
      | none   => (0, s)
      | some i =>
        let (written, pipe) := UserPipe.writeLoop data length.toNat 0 (s.pipes i)
        (UInt32.ofNat written, s.setPipe i pipe)

/-- `PipeRead`: the bytes that it stores at the caller's pointer, whose number it returns. `buffer` tells whether
    that pointer is non-null. -/
def pipeRead (s : State) (fd : Int32) (buffer : Bool) (length : UInt32) : List UInt8 × State :=
  if !buffer ∨ length = 0 then ([], s)
  else
    match s.findReadEnd fd with
    | none   => ([], s)
    | some i =>
      let (bytes, pipe) := UserPipe.readLoop length.toNat (s.pipes i)
      (bytes, s.setPipe i pipe)

/-! ## Pseudo terminals -/

/-- `OpenPseudoTerminal`; `outs` tells whether both result pointers are non-null. -/
def openPseudoTerminal (s : State) (name : Option String) (outs : Bool) : Option (Fin kMaxPtys) × State :=
  if name = none ∨ !outs then (none, s)
  else
    match Lib.firstSlot fun i => !(s.ptys i).isOpen with
    | none   => (none, s)
    | some i =>
      (some i,
        { s.setPty i { masterFd := s.nextSyntheticFd, slaveFd := s.nextSyntheticFd + 1, name := name, isOpen := true } with
          nextSyntheticFd := s.nextSyntheticFd + 1 + 1
          status := { s.status with ptyCount := s.status.ptyCount + 1 } })

end State

/-! ## The copy loops -/

namespace UserPipe

variable {p : UserPipe}

@[simp] theorem readFd_push (p : UserPipe) (value : UInt8) : (p.push value).readFd = p.readFd := rfl
@[simp] theorem writeFd_push (p : UserPipe) (value : UInt8) : (p.push value).writeFd = p.writeFd := rfl
@[simp] theorem readOffset_push (p : UserPipe) (value : UInt8) : (p.push value).readOffset = p.readOffset := rfl
@[simp] theorem isOpen_push (p : UserPipe) (value : UInt8) : (p.push value).isOpen = p.isOpen := rfl

/-- The offsets of a pipe. -/
structure Bounded (p : UserPipe) : Prop where
  order : p.readOffset.toNat ≤ p.writeOffset.toNat
  room  : p.writeOffset.toNat ≤ kPipeBufferSize

/-- What has been written to the pipe since it was opened, as far as the buffer tells. -/
def stored (p : UserPipe) : List UInt8 := (List.range p.writeOffset.toNat).map p.byteAt

@[simp] theorem length_stored (p : UserPipe) : p.stored.length = p.writeOffset.toNat := by
  unfold stored
  rw [List.length_map, List.length_range]

theorem getElem_stored {i : Nat} (h : i < p.stored.length) : p.stored[i] = p.byteAt i := by
  simp [stored]

theorem toNat_succ {offset : UInt32} (h : offset.toNat < kPipeBufferSize) : (offset + 1).toNat = offset.toNat + 1 := by
  have hone : (1 : UInt32).toNat = 1 := rfl
  have hsize : kPipeBufferSize = 64 := rfl
  rw [UInt32.toNat_add]
  omega

theorem stored_push (h : p.writeOffset.toNat < kPipeBufferSize) (value : UInt8) :
    (p.push value).stored = p.stored ++ [value] := by
  have hnext : (p.push value).writeOffset.toNat = p.writeOffset.toNat + 1 := toNat_succ h
  unfold stored
  rw [hnext, List.range_succ, List.map_append, List.map_singleton]
  congr 1
  · apply List.map_congr_left
    intro i hi
    rw [List.mem_range] at hi
    unfold byteAt push
    dsimp only
    rw [dif_pos (by omega), dif_pos (by omega), if_neg (by omega)]
  · unfold byteAt push
    dsimp only
    rw [dif_pos h, if_pos rfl]

/-- **The loop of `PipeWrite`** appends as many bytes as fit. -/
theorem writeLoop_spec (data : Nat → UInt8) (hroom : p.writeOffset.toNat ≤ kPipeBufferSize) (remaining written : Nat) :
    let r := writeLoop data remaining written p
    let n := min remaining (kPipeBufferSize - p.writeOffset.toNat)
    r.1 = written + n ∧ r.2.writeOffset.toNat = p.writeOffset.toNat + n ∧
    r.2.stored = p.stored ++ (List.range' written n).map data ∧
    r.2.readOffset = p.readOffset ∧ r.2.readFd = p.readFd ∧ r.2.writeFd = p.writeFd ∧ r.2.isOpen = p.isOpen := by
  induction remaining generalizing written p with
  | zero => simp [writeLoop]
  | succ remaining ih =>
      unfold writeLoop
      by_cases hlt : p.writeOffset.toNat < kPipeBufferSize
      · have hnext : (p.push (data written)).writeOffset.toNat = p.writeOffset.toNat + 1 := toNat_succ hlt
        obtain ⟨hwritten, hoffset, hstored, hread, hreadFd, hwriteFd, hopen⟩ :=
          @ih (p.push (data written)) (by omega) (written + 1)
        have hn : min (remaining + 1) (kPipeBufferSize - p.writeOffset.toNat) =
            min remaining (kPipeBufferSize - (p.push (data written)).writeOffset.toNat) + 1 := by omega
        rw [if_pos hlt, hn]
        refine ⟨by omega, by omega, ?_, hread, hreadFd, hwriteFd, hopen⟩
        rw [hstored, stored_push hlt, List.range'_succ, List.map_cons, List.append_assoc]
        rfl
      · have hn : min (remaining + 1) (kPipeBufferSize - p.writeOffset.toNat) = 0 := by omega
        rw [if_neg hlt, hn]
        simp

/-- **The loop of `PipeRead`** takes as many bytes as there are. -/
theorem readLoop_spec (h : p.Bounded) (remaining : Nat) :
    let r := readLoop remaining p
    let n := min remaining (p.writeOffset.toNat - p.readOffset.toNat)
    r.1 = (p.stored.drop p.readOffset.toNat).take n ∧
    r.2 = { p with readOffset := r.2.readOffset } ∧ r.2.readOffset.toNat = p.readOffset.toNat + n := by
  induction remaining generalizing p with
  | zero => simp [readLoop]
  | succ remaining ih =>
      have horder := h.order
      have hroom := h.room
      unfold readLoop
      by_cases hlt : p.readOffset < p.writeOffset
      · rw [UInt32.lt_iff_toNat_lt] at hlt
        have hnext : (p.readOffset + 1).toNat = p.readOffset.toNat + 1 := toNat_succ (by omega)
        have hbounded : Bounded { p with readOffset := p.readOffset + 1 } := by
          refine ⟨?_, hroom⟩
          rw [hnext]
          exact hlt
        obtain ⟨hbytes, hpipe, hoffset⟩ := ih hbounded
        have hn : min (remaining + 1) (p.writeOffset.toNat - p.readOffset.toNat) =
            min remaining (p.writeOffset.toNat - (p.readOffset + 1).toNat) + 1 := by omega
        rw [if_pos (UInt32.lt_iff_toNat_lt.mpr hlt)]
        dsimp only at hbytes hpipe hoffset ⊢
        rw [hn]
        refine ⟨?_, hpipe, by omega⟩
        have hsame : stored { p with readOffset := p.readOffset + 1 } = p.stored := rfl
        have hlen : p.readOffset.toNat < p.stored.length := by
          rw [length_stored]
          exact hlt
        have hdrop : p.stored.drop p.readOffset.toNat =
            p.byteAt p.readOffset.toNat :: p.stored.drop (p.readOffset.toNat + 1) := by
          rw [List.drop_eq_getElem_cons hlen, getElem_stored]
        rw [hbytes, hsame, hnext, hdrop, List.take_succ_cons]
      · have hn : min (remaining + 1) (p.writeOffset.toNat - p.readOffset.toNat) = 0 := by
          rw [UInt32.lt_iff_toNat_lt] at hlt
          omega
        rw [if_neg hlt, hn]
        simp

end UserPipe
end Userspace
end UefiBoot
