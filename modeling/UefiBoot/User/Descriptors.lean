import UefiBoot.Lib.Serial
import UefiBoot.Scheduler.EventFd
import UefiBoot.User.Frame

/-!
# `User.Descriptors` — one name space for every kind of descriptor

Four allocators hand out descriptors. A file's is its slot plus 3, reused after a close; an event object's is its
slot plus 32; pipes and pseudo terminals share a counter that starts at 64 and goes up by two. Nothing compares
these numbers with each other: they stay apart because the tables are small. `Files.Wf` is what a table of files
satisfies in every run, with the counter tied to the number of pairs in use, and `descriptors_apart` puts it
together with the table of event objects.
-/

namespace UefiBoot
namespace Userspace

/-! ## Pairs of descriptors -/

/-- The pipes and the pseudo terminals: what takes a pair of descriptors from the counter. -/
abbrev PairHolder : Type := Fin kMaxPipes ⊕ Fin kMaxPtys

/-- The pair that the counter yields after `n` others. -/
def fdPair (n : Nat) : Int32 × Int32 := (Int32.ofNat (64 + 2 * n), Int32.ofNat (64 + 2 * n + 1))

theorem fdPair_succ (n : Nat) : (fdPair n).1 + 1 + 1 = (fdPair (n + 1)).1 := by
  have hone : ∀ k, Int32.ofNat k + 1 = Int32.ofNat (k + 1) := fun k => (Int32.ofNat_add k 1).symm
  show Int32.ofNat (64 + 2 * n) + 1 + 1 = Int32.ofNat (64 + 2 * (n + 1))
  rw [hone, hone]
  rfl

theorem fdPair_snd (n : Nat) : (fdPair n).2 = (fdPair n).1 + 1 := Int32.ofNat_add (64 + 2 * n) 1

/-- The descriptors of an open pipe. -/
def UserPipe.ends (p : UserPipe) : Option (Int32 × Int32) := if p.isOpen then some (p.readFd, p.writeFd) else none

/-- The descriptors of an open pseudo terminal. -/
def PseudoTerminal.ends (p : PseudoTerminal) : Option (Int32 × Int32) :=
  if p.isOpen then some (p.masterFd, p.slaveFd) else none

theorem UserPipe.ends_closed {p : UserPipe} (h : p.isOpen = false) : p.ends = none := by
  unfold UserPipe.ends
  rw [h]
  rfl

/-- Whatever its offsets are, a pipe keeps its descriptors in both loops. -/
theorem UserPipe.ends_writeLoop (data : Nat → UInt8) (remaining written : Nat) (p : UserPipe) :
    (writeLoop data remaining written p).2.ends = p.ends := by
  induction remaining generalizing written p with
  | zero => rfl
  | succ remaining ih =>
      unfold writeLoop
      split
      · exact ih (written + 1) (p.push (data written))
      · rfl

theorem UserPipe.ends_readLoop (remaining : Nat) (p : UserPipe) : (readLoop remaining p).2.ends = p.ends := by
  induction remaining generalizing p with
  | zero => rfl
  | succ remaining ih =>
      unfold readLoop
      split
      · exact ih { p with readOffset := p.readOffset + 1 }
      · rfl

theorem PseudoTerminal.ends_closed {p : PseudoTerminal} (h : p.isOpen = false) : p.ends = none := by
  unfold PseudoTerminal.ends
  rw [h]
  rfl

namespace Files

def ends (f : Files) : PairHolder → Option (Int32 × Int32)
  | .inl i => (f.pipes i).ends
  | .inr i => (f.ptys i).ends

/-- The open pairs are numbered by `serial`, and the counter stands at pair `n`. -/
structure Numbered (f : Files) (serial : PairHolder → Option Nat) (n : Nat) : Prop where
  numbers : Lib.Serial serial n
  ends    : ∀ x, f.ends x = (serial x).map fdPair
  next    : f.next = (fdPair n).1

/-- **The tables of files.** -/
structure Wf (f : Files) : Prop where
  posix : ∀ i, (f.posix i).isOpen = true → (f.posix i).fd = Int32.ofNat (i.val + 3)
  pairs : ∃ serial n, f.Numbered serial n

variable {f f' : Files}

theorem Numbered.le {serial : PairHolder → Option Nat} {n : Nat} (h : f.Numbered serial n) : n ≤ 8 :=
  h.numbers.le_card

theorem Numbered.congr {serial : PairHolder → Option Nat} {n : Nat} (h : f.Numbered serial n)
    (hends : ∀ x, f'.ends x = f.ends x) (hnext : f'.next = f.next) : f'.Numbered serial n :=
  ⟨h.numbers, fun x => (hends x).trans (h.ends x), hnext.trans h.next⟩

/-- A free holder takes the pair at the counter. -/
theorem Numbered.take {serial : PairHolder → Option Nat} {n : Nat} (h : f.Numbered serial n) {x : PairHolder}
    (hfree : f.ends x = none) (hx : f'.ends x = some (f.next, f.next + 1))
    (hends : ∀ y, y ≠ x → f'.ends y = f.ends y) (hnext : f'.next = f.next + 1 + 1) :
    f'.Numbered (Function.update serial x (some n)) (n + 1) := by
  have hserial : serial x = none := by
    rw [h.ends x] at hfree
    exact Option.map_eq_none_iff.mp hfree
  refine ⟨h.numbers.take hserial, fun y => ?_, ?_⟩
  · by_cases hy : y = x
    · rw [hy, Function.update_self, hx, h.next, ← fdPair_snd]
      rfl
    · rw [Function.update_of_ne hy, hends y hy, h.ends y]
  · rw [hnext, h.next, fdPair_succ]

theorem Numbered.pair {serial : PairHolder → Option Nat} {n : Nat} (h : f.Numbered serial n) {x : PairHolder}
    {ends : Int32 × Int32} (hx : f.ends x = some ends) : ∃ k, serial x = some k ∧ k < n ∧ ends = fdPair k := by
  rw [h.ends x] at hx
  obtain ⟨k, hk, hends⟩ := Option.map_eq_some_iff.mp hx
  exact ⟨k, hk, h.numbers.below x k hk, hends.symm⟩

end Files

/-! ## How a call about files can end -/

namespace State

variable (s : State)

theorem posixOpen_cases (path : Option String) :
    s.posixOpen path = (-1, s) ∨
    ∃ i, (s.posixFileDescriptors i).isOpen = false ∧
      s.posixOpen path =
        (Int32.ofNat (i.val + 3),
          s.setPosixFileDescriptor i { fd := Int32.ofNat (i.val + 3), path := path, isOpen := true }) := by
  unfold posixOpen
  split
  · exact .inl rfl
  · split
    · exact .inl rfl
    · next i hfree =>
      have hclosed := Lib.firstSlot_true hfree
      exact .inr ⟨i, by simpa using hclosed, rfl⟩

theorem posixClose_cases (fd : Int32) :
    (s.posixClose fd = (-1, s) ∧
      ∀ i, (s.posixFileDescriptors i).isOpen = true → (s.posixFileDescriptors i).fd ≠ fd) ∨
    ∃ i, (s.posixFileDescriptors i).isOpen = true ∧ (s.posixFileDescriptors i).fd = fd ∧
      s.posixClose fd = (0, s.setPosixFileDescriptor i { fd := -1, path := none, isOpen := false }) := by
  unfold posixClose
  split
  · next hfind =>
    refine .inl ⟨rfl, fun i hopen hfd => ?_⟩
    have hmiss := Lib.firstSlot_eq_none_iff.mp hfind i
    rw [hopen, hfd] at hmiss
    simp at hmiss
  · next i hfind =>
    have hfound := Lib.firstSlot_true hfind
    rw [Bool.and_eq_true, beq_iff_eq] at hfound
    exact .inr ⟨i, hfound.1, hfound.2, rfl⟩

theorem createPipe_cases (outs : Bool) :
    s.createPipe outs = (none, s) ∨
    ∃ i, (s.pipes i).isOpen = false ∧
      s.createPipe outs =
        (some i,
          { s.setPipe i (.fresh s.nextSyntheticFd (s.nextSyntheticFd + 1)) with
            nextSyntheticFd := s.nextSyntheticFd + 1 + 1
            status := { s.status with pipeCount := s.status.pipeCount + 1 } }) := by
  unfold createPipe
  split
  · exact .inl rfl
  · split
    · exact .inl rfl
    · next i hfree =>
      have hclosed := Lib.firstSlot_true hfree
      exact .inr ⟨i, by simpa using hclosed, rfl⟩

theorem openPseudoTerminal_cases (name : Option String) (outs : Bool) :
    s.openPseudoTerminal name outs = (none, s) ∨
    ∃ i, (s.ptys i).isOpen = false ∧
      s.openPseudoTerminal name outs =
        (some i,
          { s.setPty i
              { masterFd := s.nextSyntheticFd, slaveFd := s.nextSyntheticFd + 1, name := name, isOpen := true } with
            nextSyntheticFd := s.nextSyntheticFd + 1 + 1
            status := { s.status with ptyCount := s.status.ptyCount + 1 } }) := by
  unfold openPseudoTerminal
  split
  · exact .inl rfl
  · split
    · exact .inl rfl
    · next i hfree =>
      have hclosed := Lib.firstSlot_true hfree
      exact .inr ⟨i, by simpa using hclosed, rfl⟩

theorem pipeWrite_cases (fd : Int32) (data : Option (Nat → UInt8)) (length : UInt32) :
    (s.pipeWrite fd data length = (0, s) ∧ (data = none ∨ length = 0 ∨ s.findWriteEnd fd = none)) ∨
    ∃ d i, data = some d ∧ length ≠ 0 ∧ s.findWriteEnd fd = some i ∧
      let r := UserPipe.writeLoop d length.toNat 0 (s.pipes i)
      s.pipeWrite fd data length = (UInt32.ofNat r.1, s.setPipe i r.2) := by
  unfold pipeWrite
  cases data with
  | none => exact .inl ⟨rfl, .inl rfl⟩
  | some d =>
    by_cases hlen : length = 0
    · exact .inl ⟨if_pos hlen, .inr (.inl hlen)⟩
    · dsimp only
      rw [if_neg hlen]
      cases hfind : s.findWriteEnd fd with
      | none => exact .inl ⟨rfl, .inr (.inr rfl)⟩
      | some i => exact .inr ⟨d, i, rfl, hlen, rfl, rfl⟩

theorem pipeRead_cases (fd : Int32) (buffer : Bool) (length : UInt32) :
    (s.pipeRead fd buffer length = ([], s) ∧ (buffer = false ∨ length = 0 ∨ s.findReadEnd fd = none)) ∨
    ∃ i, buffer = true ∧ length ≠ 0 ∧ s.findReadEnd fd = some i ∧
      let r := UserPipe.readLoop length.toNat (s.pipes i)
      s.pipeRead fd buffer length = (r.1, s.setPipe i r.2) := by
  unfold pipeRead
  cases buffer with
  | false => exact .inl ⟨rfl, .inl rfl⟩
  | true =>
    by_cases hlen : length = 0
    · exact .inl ⟨if_pos (.inr hlen), .inr (.inl hlen)⟩
    · rw [if_neg (by simpa using hlen)]
      cases hfind : s.findReadEnd fd with
      | none => exact .inl ⟨rfl, .inr (.inr rfl)⟩
      | some i => exact .inr ⟨i, rfl, hlen, rfl, rfl⟩

end State

/-! ## Every call keeps the tables -/

namespace Files

variable {f f' : Files}

theorem ends_update {i : Fin kMaxPipes} {p : UserPipe} (hp : p.ends = (f.pipes i).ends) (x : PairHolder) :
    ends { f with pipes := Function.update f.pipes i p } x = f.ends x := by
  cases x with
  | inl j =>
    show (Function.update f.pipes i p j).ends = (f.pipes j).ends
    by_cases hj : j = i
    · rw [hj, Function.update_self, hp]
    · rw [Function.update_of_ne hj]
  | inr j => rfl

theorem Wf.posixFile (h : f.Wf) {i : Fin kMaxPosixFileDescriptors} {d : PosixFileDescriptor}
    (hd : d.isOpen = true → d.fd = Int32.ofNat (i.val + 3)) :
    Wf { f with posix := Function.update f.posix i d } := by
  obtain ⟨serial, n, hnum⟩ := h.pairs
  refine ⟨fun j hj => ?_, serial, n, hnum.congr (fun _ => rfl) rfl⟩
  dsimp only at hj ⊢
  by_cases hji : j = i
  · rw [hji, Function.update_self] at hj ⊢
    exact hd hj
  · rw [Function.update_of_ne hji] at hj ⊢
    exact h.posix j hj

theorem Wf.pipe (h : f.Wf) {i : Fin kMaxPipes} {p : UserPipe} (hp : p.ends = (f.pipes i).ends) :
    Wf { f with pipes := Function.update f.pipes i p } := by
  obtain ⟨serial, n, hnum⟩ := h.pairs
  exact ⟨h.posix, serial, n, hnum.congr (ends_update hp) rfl⟩

theorem Wf.newPipe (h : f.Wf) {i : Fin kMaxPipes} (hclosed : (f.pipes i).isOpen = false) :
    Wf { f with pipes := Function.update f.pipes i (.fresh f.next (f.next + 1)), next := f.next + 1 + 1 } := by
  obtain ⟨serial, n, hnum⟩ := h.pairs
  refine ⟨h.posix, _, _, hnum.take (x := .inl i) (UserPipe.ends_closed hclosed) ?_ (fun y hy => ?_) rfl⟩
  · show (Function.update f.pipes i _ i).ends = _
    rw [Function.update_self]
    rfl
  · cases y with
    | inl j =>
      show (Function.update f.pipes i _ j).ends = (f.pipes j).ends
      rw [Function.update_of_ne fun hji => hy (congrArg Sum.inl hji)]
    | inr j => rfl

theorem Wf.newPty (h : f.Wf) {i : Fin kMaxPtys} (hclosed : (f.ptys i).isOpen = false) (name : Option String) :
    let pty : PseudoTerminal := { masterFd := f.next, slaveFd := f.next + 1, name := name, isOpen := true }
    Wf { f with ptys := Function.update f.ptys i pty, next := f.next + 1 + 1 } := by
  intro pty
  obtain ⟨serial, n, hnum⟩ := h.pairs
  refine ⟨h.posix, _, _, hnum.take (x := .inr i) (PseudoTerminal.ends_closed hclosed) ?_ (fun y hy => ?_) rfl⟩
  · show (Function.update f.ptys i pty i).ends = _
    rw [Function.update_self]
    rfl
  · cases y with
    | inl j => rfl
    | inr j =>
      show (Function.update f.ptys i pty j).ends = (f.ptys j).ends
      rw [Function.update_of_ne fun hji => hy (congrArg Sum.inr hji)]

theorem wf_file {s : State} (h : s.files.Wf) (op : FileOp) : (s.file op).2.files.Wf := by
  cases op with
  | posixOpen path =>
    show (s.posixOpen path).2.files.Wf
    rcases s.posixOpen_cases path with hop | ⟨i, -, hop⟩ <;> rw [hop]
    · exact h
    · exact h.posixFile (fun _ => rfl)
  | posixClose fd =>
    show (s.posixClose fd).2.files.Wf
    rcases s.posixClose_cases fd with ⟨hop, -⟩ | ⟨i, -, -, hop⟩ <;> rw [hop]
    · exact h
    · exact h.posixFile (fun hopen => absurd hopen (by simp))
  | createPipe outs =>
    show (s.createPipe outs).2.files.Wf
    rcases s.createPipe_cases outs with hop | ⟨i, hclosed, hop⟩ <;> rw [hop]
    · exact h
    · exact h.newPipe hclosed
  | pipeWrite fd data length =>
    show (s.pipeWrite fd data length).2.files.Wf
    rcases s.pipeWrite_cases fd data length with ⟨hop, -⟩ | ⟨d, i, -, -, -, hop⟩ <;> rw [hop]
    · exact h
    · exact h.pipe (UserPipe.ends_writeLoop d length.toNat 0 (s.pipes i))
  | pipeRead fd buffer length =>
    show (s.pipeRead fd buffer length).2.files.Wf
    rcases s.pipeRead_cases fd buffer length with ⟨hop, -⟩ | ⟨i, -, -, -, hop⟩ <;> rw [hop]
    · exact h
    · exact h.pipe (UserPipe.ends_readLoop length.toNat (s.pipes i))
  | openPseudoTerminal name outs =>
    show (s.openPseudoTerminal name outs).2.files.Wf
    rcases s.openPseudoTerminal_cases name outs with hop | ⟨i, hclosed, hop⟩ <;> rw [hop]
    · exact h
    · exact h.newPty hclosed name

theorem wf_reset : State.initialised.files.Wf := by
  have hfiles : State.initialised.files = State.files {} := rfl
  rw [hfiles]
  refine ⟨fun i hopen => ?_, fun _ => none, 0, ⟨.empty, fun x => ?_, rfl⟩⟩
  · exact absurd hopen (by simp [State.files])
  · cases x <;> rfl

end Files

theorem files_wf (e : Entries) (heap : { h : KernelHeap // h.InBlock }) (as : List System.Action) :
    (reached e heap as).user.files.Wf :=
  files_invariant (I := fun f _ => f.Wf) Files.wf_reset (fun _ _ op h => Files.wf_file h op) e heap as

/-! ## All descriptors together -/

/-- What a descriptor can be of: a file, one end of a pair (`second` is the write end of a pipe and the slave of a
    pseudo terminal), or an event object. -/
inductive Holder where
  | file (i : Fin kMaxPosixFileDescriptors)
  | pair (x : PairHolder) (second : Bool)
  | event (i : Fin Scheduler.kMaxEventObjects)
  deriving DecidableEq

/-- The descriptor of an open file. -/
def PosixFileDescriptor.descriptor (d : PosixFileDescriptor) : Option Int32 := if d.isOpen then some d.fd else none

/-- The descriptor that a holder has while it is open. -/
def System.descriptor (s : System) : Holder → Option Int32
  | .file i        => (s.user.posixFileDescriptors i).descriptor
  | .pair x second => (s.user.files.ends x).map fun ends => if second then ends.2 else ends.1
  | .event i       =>
    if (s.kernel.sched.eventObjects i).type = .empty then none else some (s.kernel.sched.eventObjects i).fd

/-- The number that a holder's descriptor is, in a system whose pairs are numbered by `serial`. -/
def Holder.number (serial : PairHolder → Option Nat) : Holder → Option Nat
  | .file i        => some (i.val + 3)
  | .pair x second => (serial x).map fun n => if second then 64 + 2 * n + 1 else 64 + 2 * n
  | .event i       => some (32 + i.val)

section Numbers

variable {s : System} {serial : PairHolder → Option Nat} {n : Nat}

theorem Holder.number_pair {x : PairHolder} {second : Bool} {k : Nat}
    (h : Holder.number serial (.pair x second) = some k) :
    ∃ m, serial x = some m ∧ (second = true ∧ k = 64 + 2 * m + 1 ∨ second = false ∧ k = 64 + 2 * m) := by
  obtain ⟨m, hm, hk⟩ := Option.map_eq_some_iff.mp h
  cases second with
  | true => exact ⟨m, hm, .inl ⟨rfl, hk.symm⟩⟩
  | false => exact ⟨m, hm, .inr ⟨rfl, hk.symm⟩⟩

/-- The three ranges, below `32`, up to `64` and from there, do not meet. -/
theorem Holder.number_range {h : Holder} {k : Nat} (hserial : Lib.Serial serial n) (hk : h.number serial = some k) :
    match h with
    | .file _   => 3 ≤ k ∧ k < 32
    | .event _  => 32 ≤ k ∧ k < 64
    | .pair _ _ => 64 ≤ k ∧ k < 64 + 2 * n := by
  cases h with
  | file i =>
    have hi : i.val < 8 := i.isLt
    have hik : i.val + 3 = k := Option.some.inj hk
    constructor <;> omega
  | event i =>
    have hi : i.val < 16 := i.isLt
    have hik : 32 + i.val = k := Option.some.inj hk
    constructor <;> omega
  | pair x second =>
    obtain ⟨m, hm, hkm⟩ := number_pair hk
    have hlt := hserial.below x m hm
    constructor <;> omega

/-- **No two holders have one number.** -/
theorem Holder.number_inj (hserial : Lib.Serial serial n) {h h' : Holder} {k : Nat} (hk : h.number serial = some k)
    (hk' : h'.number serial = some k) : h = h' := by
  have hrange := number_range hserial hk
  have hrange' := number_range hserial hk'
  cases h with
  | file i =>
    cases h' with
    | file j =>
      have hi : i.val + 3 = k := Option.some.inj hk
      have hj : j.val + 3 = k := Option.some.inj hk'
      exact congrArg Holder.file (Fin.ext (by omega))
    | event j => exact absurd hrange.2 (by dsimp only at hrange'; omega)
    | pair y second => exact absurd hrange.2 (by dsimp only at hrange'; omega)
  | event i =>
    cases h' with
    | file j => exact absurd hrange'.2 (by dsimp only at hrange; omega)
    | event j =>
      have hi : 32 + i.val = k := Option.some.inj hk
      have hj : 32 + j.val = k := Option.some.inj hk'
      exact congrArg Holder.event (Fin.ext (by omega))
    | pair y second => exact absurd hrange.2 (by dsimp only at hrange'; omega)
  | pair x first =>
    cases h' with
    | file j => exact absurd hrange'.2 (by dsimp only at hrange; omega)
    | event j => exact absurd hrange'.2 (by dsimp only at hrange; omega)
    | pair y second =>
      obtain ⟨m, hm, hkm⟩ := number_pair hk
      obtain ⟨l, hl, hkl⟩ := number_pair hk'
      -- the parity tells the two ends apart, and then the serial numbers are the same
      have hends : first = second := by
        rcases hkm with ⟨hfirst, hkm⟩ | ⟨hfirst, hkm⟩ <;> rcases hkl with ⟨hsecond, hkl⟩ | ⟨hsecond, hkl⟩
        · exact hfirst.trans hsecond.symm
        · omega
        · omega
        · exact hfirst.trans hsecond.symm
      have hml : m = l := by omega
      rw [hends, hserial.distinct x y m hm (hml ▸ hl)]

/-- An open holder's descriptor is its number. -/
theorem System.descriptor_number (hfiles : s.user.files.Wf) (hnum : s.user.files.Numbered serial n)
    (htable : Scheduler.EventTable s.kernel.sched) {h : Holder} {fd : Int32} (hfd : s.descriptor h = some fd) :
    ∃ k, h.number serial = some k ∧ fd = Int32.ofNat k := by
  cases h with
  | file i =>
    have hopen : (s.user.posixFileDescriptors i).isOpen = true := by
      by_contra hclosed
      have hnone : s.descriptor (.file i) = none := if_neg hclosed
      rw [hnone] at hfd
      exact absurd hfd (by simp)
    have hsome : s.descriptor (.file i) = some (s.user.posixFileDescriptors i).fd := if_pos hopen
    refine ⟨i.val + 3, rfl, ?_⟩
    rw [hsome] at hfd
    rw [← hfiles.posix i hopen]
    exact (Option.some.inj hfd).symm
  | pair x second =>
    obtain ⟨ends, hx, hends⟩ := Option.map_eq_some_iff.mp hfd
    obtain ⟨m, hm, -, rfl⟩ := hnum.pair hx
    refine ⟨if second then 64 + 2 * m + 1 else 64 + 2 * m, ?_, ?_⟩
    · show (serial x).map _ = _
      rw [hm]
      rfl
    · rw [← hends]
      cases second <;> rfl
  | event i =>
    obtain ⟨used, hfilled⟩ := htable
    have htype : (s.kernel.sched.eventObjects i).type ≠ .empty := by
      intro hempty
      have hnone : s.descriptor (.event i) = none := if_pos hempty
      rw [hnone] at hfd
      exact absurd hfd (by simp)
    have hsome : s.descriptor (.event i) = some (s.kernel.sched.eventObjects i).fd := if_neg htype
    refine ⟨32 + i.val, rfl, ?_⟩
    rw [hsome, hfilled.fd i (hfilled.lt htype)] at hfd
    have hadd : Scheduler.descriptor i.val = Int32.ofNat (32 + i.val) := (Int32.ofNat_add 32 i.val).symm
    rw [← hadd]
    exact (Option.some.inj hfd).symm

end Numbers

theorem ofNat_inj {k l : Nat} (hk : k < 2 ^ 31) (hl : l < 2 ^ 31) (h : Int32.ofNat k = Int32.ofNat l) : k = l := by
  have hint : (Int32.ofNat k).toInt = (Int32.ofNat l).toInt := congrArg Int32.toInt h
  rw [Int32.toInt_ofNat_of_lt hk, Int32.toInt_ofNat_of_lt hl] at hint
  omega

theorem eventTable (e : Entries) (heap : { h : KernelHeap // h.InBlock }) (as : List System.Action) :
    Scheduler.EventTable (reached e heap as).kernel.sched := by
  obtain ⟨bs, hbs⟩ := kernel_reached e heap as
  rw [hbs]
  exact (Scheduler.books_reached heap bs).table

theorem descriptor_open {d : PosixFileDescriptor} (h : d.isOpen = true) : d.descriptor = some d.fd := if_pos h

theorem descriptor_some {d : PosixFileDescriptor} {fd : Int32} (h : d.descriptor = some fd) :
    d.isOpen = true ∧ d.fd = fd := by
  unfold PosixFileDescriptor.descriptor at h
  split at h
  · next hopen => exact ⟨hopen, Option.some.inj h⟩
  · exact absurd h (by simp)

/-- **`PosixClose`** either finds no file and changes nothing, or it closes one file with the descriptor it is given. -/
theorem posixClose_spec (s : State) (fd : Int32) :
    ((∀ i, (s.posixFileDescriptors i).descriptor ≠ some fd) ∧ s.posixClose fd = (-1, s)) ∨
    ∃ i, (s.posixFileDescriptors i).descriptor = some fd ∧
      s.posixClose fd = (0, s.setPosixFileDescriptor i { fd := -1, path := none, isOpen := false }) := by
  rcases s.posixClose_cases fd with ⟨hop, hmiss⟩ | ⟨i, hopen, hfd, hop⟩
  · left
    refine ⟨fun i hi => ?_, hop⟩
    obtain ⟨hopen, hfd⟩ := descriptor_some hi
    exact hmiss i hopen hfd
  · right
    refine ⟨i, ?_, hop⟩
    rw [descriptor_open hopen, hfd]

/-- **One name space.** In every state of every run the open descriptors are distinct and at least 3, and
    `PosixClose` closes the file with the descriptor it is given, if there is one, and nothing else. -/
theorem descriptors_apart (e : Entries) (heap : { h : KernelHeap // h.InBlock }) (as : List System.Action) :
    let s := reached e heap as
    (∀ h h' fd, s.descriptor h = some fd → s.descriptor h' = some fd → h = h') ∧
    (∀ h fd, s.descriptor h = some fd → 3 ≤ fd) ∧
    ∀ fd,
      let s' := s.call e (.file (.posixClose fd))
      (∀ i, s.descriptor (.file i) = some fd → s'.descriptor (.file i) = none) ∧
      (∀ h, (∀ i, h = .file i → s.descriptor h ≠ some fd) → s'.descriptor h = s.descriptor h) ∧
      (∀ i, s.descriptor (.file i) ≠ some fd → s'.user.posixFileDescriptors i = s.user.posixFileDescriptors i) ∧
      s'.user.pipes = s.user.pipes ∧ s'.user.ptys = s.user.ptys ∧ s'.kernel = s.kernel := by
  intro s
  have hfiles : s.user.files.Wf := files_wf e heap as
  have htable : Scheduler.EventTable s.kernel.sched := eventTable e heap as
  obtain ⟨serial, n, hnum⟩ := hfiles.pairs
  have hle := hnum.le
  have hnumber : ∀ h fd, s.descriptor h = some fd →
      ∃ k, h.number serial = some k ∧ fd = Int32.ofNat k ∧ 3 ≤ k ∧ k < 80 := by
    intro h fd hfd
    obtain ⟨k, hk, hfdk⟩ := System.descriptor_number hfiles hnum htable hfd
    have hrange := Holder.number_range hnum.numbers hk
    refine ⟨k, hk, hfdk, ?_⟩
    cases h <;> dsimp only at hrange <;> omega
  have hapart : ∀ h h' fd, s.descriptor h = some fd → s.descriptor h' = some fd → h = h' := by
    intro h h' fd hh hh'
    obtain ⟨k, hk, hfdk, -, hlt⟩ := hnumber h fd hh
    obtain ⟨l, hl, hfdl, -, hlt'⟩ := hnumber h' fd hh'
    have hkl : k = l := ofNat_inj (by omega) (by omega) (hfdk.symm.trans hfdl)
    exact Holder.number_inj hnum.numbers hk (hkl ▸ hl)
  refine ⟨hapart, fun h fd hfd => ?_, fun fd => ?_⟩
  · obtain ⟨k, -, hfdk, hge, hlt⟩ := hnumber h fd hfd
    have hthree : (3 : Int32).toInt = 3 := rfl
    rw [hfdk, Int32.le_iff_toInt_le, Int32.toInt_ofNat_of_lt (by omega), hthree]
    omega
  · intro s'
    have huser : s'.user = (s.user.posixClose fd).2 := rfl
    rcases posixClose_spec s.user fd with ⟨hmiss, hop⟩ | ⟨i, hi, hop⟩ <;> rw [hop] at huser
    · have hsame : ∀ h, s'.descriptor h = s.descriptor h := by
        intro h
        cases h with
        | file i =>
          show (s'.user.posixFileDescriptors i).descriptor = _
          rw [huser]
          rfl
        | pair x second =>
          show (s'.user.files.ends x).map _ = _
          rw [huser]
          rfl
        | event i => rfl
      refine ⟨fun i hi => absurd hi (hmiss i), fun h _ => hsame h, fun i _ => ?_, ?_, ?_, rfl⟩ <;> rw [huser]
    · have hself : s'.user.posixFileDescriptors i = { fd := -1, path := none, isOpen := false } := by
        rw [huser]
        exact Function.update_self _ _ _
      have hother : ∀ j, j ≠ i → s'.user.posixFileDescriptors j = s.user.posixFileDescriptors j := by
        intro j hj
        rw [huser]
        exact Function.update_of_ne hj _ _
      have hfile : ∀ j, s.descriptor (.file j) ≠ some fd → j ≠ i := by
        rintro j hj rfl
        exact hj hi
      refine ⟨fun j hj => ?_, fun h hne => ?_, fun j hj => hother j (hfile j hj), ?_, ?_, rfl⟩
      · have hji : j = i := Holder.file.inj (hapart _ _ fd hj hi)
        show (s'.user.posixFileDescriptors j).descriptor = none
        rw [hji, hself]
        rfl
      · cases h with
        | file j =>
          show (s'.user.posixFileDescriptors j).descriptor = _
          rw [hother j (hfile j (hne j rfl))]
          rfl
        | pair x second =>
          show (s'.user.files.ends x).map _ = _
          rw [huser]
          rfl
        | event i => rfl
      · rw [huser]
        rfl
      · rw [huser]
        rfl

end Userspace
end UefiBoot
