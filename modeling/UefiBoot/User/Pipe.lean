import UefiBoot.User.Descriptors

/-!
# `User.Pipe` — a pipe as a queue

`accepted` and `returned` read the log: the bytes that the writes to a descriptor have accepted and the bytes that
the reads from one have returned. A pipe keeps every byte it has accepted in its buffer, in order, and its read
offset says how many have been returned (`Fifo`), so what has been returned is a prefix of what has been accepted
(`pipe_fifo`).

Neither offset ever goes back, so the buffer is used once: `write_progress_iff` says that a pipe stops accepting
when it has accepted as many bytes as the buffer holds, however many of them have been read.
-/

namespace UefiBoot
namespace Userspace

/-! ## Histories -/

/-- The bytes that one call hands over to the pipe with write end `fd`. -/
def acceptedBy (fd : Int32) : FileOp × Result → List UInt8
  | (.pipeWrite fd' (some data) _, .count n) => if fd' = fd then (List.range n.toNat).map data else []
  | _                                        => []

/-- The bytes that one call takes from the pipe with read end `fd`. -/
def returnedBy (fd : Int32) : FileOp × Result → List UInt8
  | (.pipeRead fd' _ _, .bytes l) => if fd' = fd then l else []
  | _                             => []

/-- Everything accepted at the write end `fd`, oldest first. -/
def accepted (fd : Int32) : List (FileOp × Result) → List UInt8
  | []         => []
  | c :: calls => accepted fd calls ++ acceptedBy fd c

/-- Everything returned at the read end `fd`, oldest first. -/
def returned (fd : Int32) : List (FileOp × Result) → List UInt8
  | []         => []
  | c :: calls => returned fd calls ++ returnedBy fd c

theorem accepted_cons_other {fd : Int32} {c : FileOp × Result} (h : acceptedBy fd c = [])
    (calls : List (FileOp × Result)) : accepted fd (c :: calls) = accepted fd calls := by
  show accepted fd calls ++ acceptedBy fd c = _
  rw [h, List.append_nil]

theorem returned_cons_other {fd : Int32} {c : FileOp × Result} (h : returnedBy fd c = [])
    (calls : List (FileOp × Result)) : returned fd (c :: calls) = returned fd calls := by
  show returned fd calls ++ returnedBy fd c = _
  rw [h, List.append_nil]

/-! ## The invariant -/

/-- The pipe holds what was accepted at its write end, and has returned as much of it as its read offset says. -/
structure Fifo (p : UserPipe) (calls : List (FileOp × Result)) : Prop where
  bounded : p.Bounded
  written : accepted p.writeFd calls = p.stored
  taken   : returned p.readFd calls = p.stored.take p.readOffset.toNat

/-- **The pipes.** Every open pipe is a queue, and nothing has gone through a descriptor that no open pipe has. -/
structure Piped (f : Files) (calls : List (FileOp × Result)) : Prop where
  wf      : f.Wf
  fifo    : ∀ i, (f.pipes i).isOpen = true → Fifo (f.pipes i) calls
  written : ∀ fd, (∀ i, (f.pipes i).isOpen = true → (f.pipes i).writeFd ≠ fd) → accepted fd calls = []
  taken   : ∀ fd, (∀ i, (f.pipes i).isOpen = true → (f.pipes i).readFd ≠ fd) → returned fd calls = []

namespace Files

variable {f : Files} {i j : Fin kMaxPipes}

theorem fdPair_inj {k l : Nat} (hk : k ≤ 8) (hl : l ≤ 8) :
    ((fdPair k).1 = (fdPair l).1 → k = l) ∧ ((fdPair k).2 = (fdPair l).2 → k = l) := by
  constructor <;> intro h
  · have := ofNat_inj (by omega) (by omega) h
    omega
  · have := ofNat_inj (by omega) (by omega) h
    omega

/-- The serial number of an open pipe. -/
theorem Numbered.pipe {serial : PairHolder → Option Nat} {n : Nat} (h : f.Numbered serial n)
    (hopen : (f.pipes i).isOpen = true) :
    ∃ k, serial (.inl i) = some k ∧ k < n ∧ (f.pipes i).readFd = (fdPair k).1 ∧ (f.pipes i).writeFd = (fdPair k).2 := by
  have hends : f.ends (.inl i) = some ((f.pipes i).readFd, (f.pipes i).writeFd) := if_pos hopen
  obtain ⟨k, hk, hlt, heq⟩ := h.pair hends
  exact ⟨k, hk, hlt, congrArg Prod.fst heq, congrArg Prod.snd heq⟩

/-- The ends of the open pipes are all different, and none is at the counter. -/
theorem Wf.pipes (h : f.Wf) (hi : (f.pipes i).isOpen = true) :
    (∀ j, (f.pipes j).isOpen = true → (f.pipes j).readFd = (f.pipes i).readFd → j = i) ∧
    (∀ j, (f.pipes j).isOpen = true → (f.pipes j).writeFd = (f.pipes i).writeFd → j = i) ∧
    (f.pipes i).readFd ≠ f.next ∧ (f.pipes i).writeFd ≠ f.next + 1 := by
  obtain ⟨serial, n, hnum⟩ := h.pairs
  have hle := hnum.le
  obtain ⟨k, hk, hlt, hread, hwrite⟩ := hnum.pipe hi
  have hsame : ∀ j l, serial (.inl j) = some l → l = k → j = i :=
    fun j l hl hlk => Sum.inl_injective (hnum.numbers.distinct _ _ k (hlk ▸ hl) hk)
  refine ⟨fun j hj hfd => ?_, fun j hj hfd => ?_, fun hfd => ?_, fun hfd => ?_⟩
  · obtain ⟨l, hl, hltl, hreadl, -⟩ := hnum.pipe hj
    rw [hreadl, hread] at hfd
    exact hsame j l hl ((fdPair_inj (by omega) (by omega)).1 hfd)
  · obtain ⟨l, hl, hltl, -, hwritel⟩ := hnum.pipe hj
    rw [hwritel, hwrite] at hfd
    exact hsame j l hl ((fdPair_inj (by omega) (by omega)).2 hfd)
  · rw [hread, hnum.next] at hfd
    have := (fdPair_inj (by omega) hle).1 hfd
    omega
  · rw [hwrite, hnum.next, ← fdPair_snd] at hfd
    have := (fdPair_inj (by omega) hle).2 hfd
    omega

end Files

section Find

variable {s : State} {fd : Int32} {i : Fin kMaxPipes}

theorem findWriteEnd_some (h : s.findWriteEnd fd = some i) :
    (s.pipes i).isOpen = true ∧ (s.pipes i).writeFd = fd := by
  simpa using Lib.firstSlot_true h

theorem findReadEnd_some (h : s.findReadEnd fd = some i) :
    (s.pipes i).isOpen = true ∧ (s.pipes i).readFd = fd := by
  simpa using Lib.firstSlot_true h

theorem findWriteEnd_self (h : s.files.Wf) (hi : (s.pipes i).isOpen = true) :
    s.findWriteEnd (s.pipes i).writeFd = some i := by
  apply Lib.firstSlot_unique
  · simpa using hi
  · intro j hj
    rw [Bool.and_eq_true, beq_iff_eq] at hj
    exact (h.pipes hi).2.1 j hj.1 hj.2

theorem findReadEnd_self (h : s.files.Wf) (hi : (s.pipes i).isOpen = true) :
    s.findReadEnd (s.pipes i).readFd = some i := by
  apply Lib.firstSlot_unique
  · simpa using hi
  · intro j hj
    rw [Bool.and_eq_true, beq_iff_eq] at hj
    exact (h.pipes hi).1 j hj.1 hj.2

end Find

/-! ## Every call keeps the invariant -/

section Step

variable {f f' : Files} {calls : List (FileOp × Result)} {c : FileOp × Result}

/-- A call that hands over nothing to a pipe and takes nothing from it leaves the queue as it was. -/
theorem Fifo.other {p : UserPipe} (h : Fifo p calls) (haccepted : acceptedBy p.writeFd c = [])
    (hreturned : returnedBy p.readFd c = []) : Fifo p (c :: calls) := by
  refine ⟨h.bounded, ?_, ?_⟩
  · rw [accepted_cons_other haccepted, h.written]
  · rw [returned_cons_other hreturned, h.taken]

/-- A call that no pipe has to do with. -/
theorem Piped.other (h : Piped f calls) (hwf : f'.Wf) (hpipes : f'.pipes = f.pipes)
    (haccepted : ∀ fd, acceptedBy fd c = []) (hreturned : ∀ fd, returnedBy fd c = []) : Piped f' (c :: calls) := by
  refine ⟨hwf, fun i hi => ?_, fun fd hfd => ?_, fun fd hfd => ?_⟩
  · rw [hpipes] at hi ⊢
    exact (h.fifo i hi).other (haccepted _) (hreturned _)
  · rw [accepted_cons_other (haccepted fd)]
    exact h.written fd (hpipes ▸ hfd)
  · rw [returned_cons_other (hreturned fd)]
    exact h.taken fd (hpipes ▸ hfd)

/-- A new pipe: nothing has gone through its descriptors yet. -/
theorem Piped.newPipe (h : Piped f calls) {i : Fin kMaxPipes} (hclosed : (f.pipes i).isOpen = false)
    (haccepted : ∀ fd, acceptedBy fd c = []) (hreturned : ∀ fd, returnedBy fd c = []) :
    Piped { f with pipes := Function.update f.pipes i (.fresh f.next (f.next + 1)), next := f.next + 1 + 1 }
      (c :: calls) := by
  have hself : Function.update f.pipes i (UserPipe.fresh f.next (f.next + 1)) i = .fresh f.next (f.next + 1) :=
    Function.update_self _ _ _
  have hother : ∀ {j}, j ≠ i → Function.update f.pipes i (UserPipe.fresh f.next (f.next + 1)) j = f.pipes j :=
    fun hj => Function.update_of_ne hj _ _
  have hne : ∀ {j}, (f.pipes j).isOpen = true → j ≠ i := by
    rintro j hj rfl
    rw [hclosed] at hj
    exact absurd hj (by simp)
  refine ⟨h.wf.newPipe hclosed, fun j hj => ?_, fun fd hfd => ?_, fun fd hfd => ?_⟩
  · dsimp only at hj ⊢
    by_cases hji : j = i
    · rw [hji, hself]
      refine ⟨⟨le_refl _, Nat.zero_le _⟩, ?_, ?_⟩
      · rw [accepted_cons_other (haccepted _)]
        exact h.written _ fun k hk => (h.wf.pipes hk).2.2.2
      · rw [returned_cons_other (hreturned _)]
        exact h.taken _ fun k hk => (h.wf.pipes hk).2.2.1
    · rw [hother hji] at hj ⊢
      exact (h.fifo j hj).other (haccepted _) (hreturned _)
  · rw [accepted_cons_other (haccepted fd)]
    refine h.written fd fun j hj => ?_
    have hfdj := hfd j
    dsimp only at hfdj
    rw [hother (hne hj)] at hfdj
    exact hfdj hj
  · rw [returned_cons_other (hreturned fd)]
    refine h.taken fd fun j hj => ?_
    have hfdj := hfd j
    dsimp only at hfdj
    rw [hother (hne hj)] at hfdj
    exact hfdj hj

/-- A call that changes one open pipe, and hands over or takes bytes at its descriptors only. -/
theorem Piped.setPipe (h : Piped f calls) {i : Fin kMaxPipes} {p : UserPipe} (hopen : (f.pipes i).isOpen = true)
    (hends : p.ends = (f.pipes i).ends) (hfifo : Fifo p (c :: calls))
    (haccepted : ∀ fd, (f.pipes i).writeFd ≠ fd → acceptedBy fd c = [])
    (hreturned : ∀ fd, (f.pipes i).readFd ≠ fd → returnedBy fd c = []) :
    Piped { f with pipes := Function.update f.pipes i p } (c :: calls) := by
  have hself : Function.update f.pipes i p i = p := Function.update_self _ _ _
  have hother : ∀ {j}, j ≠ i → Function.update f.pipes i p j = f.pipes j := fun hj => Function.update_of_ne hj _ _
  have hp : p.isOpen = true ∧ p.readFd = (f.pipes i).readFd ∧ p.writeFd = (f.pipes i).writeFd := by
    have hsome : p.ends = some ((f.pipes i).readFd, (f.pipes i).writeFd) := hends.trans (if_pos hopen)
    unfold UserPipe.ends at hsome
    split at hsome
    · next hpopen =>
      have heq := Option.some.inj hsome
      exact ⟨hpopen, congrArg Prod.fst heq, congrArg Prod.snd heq⟩
    · exact absurd hsome (by simp)
  refine ⟨h.wf.pipe hends, fun j hj => ?_, fun fd hfd => ?_, fun fd hfd => ?_⟩
  · dsimp only at hj ⊢
    by_cases hji : j = i
    · rw [hji, hself]
      exact hfifo
    · rw [hother hji] at hj ⊢
      refine (h.fifo j hj).other (haccepted _ fun hfd => ?_) (hreturned _ fun hfd => ?_)
      · exact hji ((h.wf.pipes hopen).2.1 j hj hfd.symm)
      · exact hji ((h.wf.pipes hopen).1 j hj hfd.symm)
  · have hfds : ∀ j, (f.pipes j).isOpen = true → (f.pipes j).writeFd ≠ fd := by
      intro j hj
      have hfdj := hfd j
      dsimp only at hfdj
      by_cases hji : j = i
      · rw [hji, hself, hp.2.2] at hfdj
        rw [hji]
        exact hfdj hp.1
      · rw [hother hji] at hfdj
        exact hfdj hj
    rw [accepted_cons_other (haccepted fd (hfds i hopen))]
    exact h.written fd hfds
  · have hfds : ∀ j, (f.pipes j).isOpen = true → (f.pipes j).readFd ≠ fd := by
      intro j hj
      have hfdj := hfd j
      dsimp only at hfdj
      by_cases hji : j = i
      · rw [hji, hself, hp.2.1] at hfdj
        rw [hji]
        exact hfdj hp.1
      · rw [hother hji] at hfdj
        exact hfdj hj
    rw [returned_cons_other (hreturned fd (hfds i hopen))]
    exact h.taken fd hfds

variable {s : State}

/-- A write hands over what it returns as its count. -/
theorem Piped.write (h : Piped s.files calls) (fd : Int32) (data : Option (Nat → UInt8)) (length : UInt32) :
    Piped (s.pipeWrite fd data length).2.files
      ((.pipeWrite fd data length, .count (s.pipeWrite fd data length).1) :: calls) := by
  rcases s.pipeWrite_cases fd data length with ⟨hop, -⟩ | ⟨d, i, rfl, -, hfind, hop⟩ <;> rw [hop]
  · refine h.other h.wf rfl (fun fd' => ?_) (fun _ => rfl)
    cases data with
    | none => rfl
    | some d => exact ite_self _
  · obtain ⟨hopen, hfd⟩ := findWriteEnd_some hfind
    have hfifo : Fifo (s.pipes i) calls := h.fifo i hopen
    have hloop := UserPipe.writeLoop_spec d hfifo.bounded.room length.toNat 0
    have hends := UserPipe.ends_writeLoop d length.toNat 0 (s.pipes i)
    set r := UserPipe.writeLoop d length.toNat 0 (s.pipes i) with hr
    obtain ⟨hcount, hoffset, hstored, hread, hreadFd, hwriteFd, -⟩ := hloop
    have hroom := hfifo.bounded.room
    have horder := hfifo.bounded.order
    have hsize : kPipeBufferSize = 64 := rfl
    have hbig : 64 < UInt32.size := by decide
    have hcount' : (UInt32.ofNat r.1).toNat = r.1 := UInt32.toNat_ofNat_of_lt' (by omega)
    refine h.setPipe hopen hends ⟨⟨?_, ?_⟩, ?_, ?_⟩ (fun fd' hne => ?_) (fun _ _ => rfl)
    · rw [hread]
      omega
    · omega
    · have hself : acceptedBy r.2.writeFd (.pipeWrite fd (some d) length, .count (UInt32.ofNat r.1)) =
          (List.range (UInt32.ofNat r.1).toNat).map d := if_pos (hfd.symm.trans hwriteFd.symm)
      show accepted r.2.writeFd calls ++ _ = _
      rw [hself, hwriteFd, hfifo.written, hstored, hcount', hcount, List.range_eq_range', Nat.zero_add]
    · have hlen : (s.pipes i).readOffset.toNat ≤ (s.pipes i).stored.length := by
        rw [UserPipe.length_stored]
        exact horder
      rw [returned_cons_other rfl, hreadFd, hfifo.taken, hstored, hread, List.take_append_of_le_length hlen]
    · exact if_neg fun heq => hne (hfd.trans heq)

/-- A read takes what it returns. -/
theorem Piped.read (h : Piped s.files calls) (fd : Int32) (buffer : Bool) (length : UInt32) :
    Piped (s.pipeRead fd buffer length).2.files
      ((.pipeRead fd buffer length, .bytes (s.pipeRead fd buffer length).1) :: calls) := by
  rcases s.pipeRead_cases fd buffer length with ⟨hop, -⟩ | ⟨i, -, -, hfind, hop⟩ <;> rw [hop]
  · exact h.other h.wf rfl (fun _ => rfl) (fun fd' => ite_self _)
  · obtain ⟨hopen, hfd⟩ := findReadEnd_some hfind
    have hfifo : Fifo (s.pipes i) calls := h.fifo i hopen
    have hloop := UserPipe.readLoop_spec hfifo.bounded length.toNat
    have hends := UserPipe.ends_readLoop length.toNat (s.pipes i)
    set r := UserPipe.readLoop length.toNat (s.pipes i) with hr
    obtain ⟨hbytes, hpipe, hoffset⟩ := hloop
    have hroom := hfifo.bounded.room
    have horder := hfifo.bounded.order
    have hstored : r.2.stored = (s.pipes i).stored := by rw [hpipe]; rfl
    have hreadFd : r.2.readFd = (s.pipes i).readFd := by rw [hpipe]
    have hwriteFd : r.2.writeFd = (s.pipes i).writeFd := by rw [hpipe]
    have hwrite : r.2.writeOffset = (s.pipes i).writeOffset := by rw [hpipe]
    refine h.setPipe hopen hends ⟨⟨?_, ?_⟩, ?_, ?_⟩ (fun _ _ => rfl) (fun fd' hne => ?_)
    · rw [hwrite]
      omega
    · rw [hwrite]
      exact hroom
    · rw [accepted_cons_other rfl, hwriteFd, hfifo.written, hstored]
    · have hself : returnedBy r.2.readFd (.pipeRead fd buffer length, .bytes r.1) = r.1 :=
        if_pos (hfd.symm.trans hreadFd.symm)
      show returned r.2.readFd calls ++ _ = _
      rw [hself, hreadFd, hfifo.taken, hbytes, hstored, hoffset, ← List.take_add]
    · exact if_neg fun heq => hne (hfd.trans heq)

/-- **Every call about files** keeps the pipes queues. -/
theorem Piped.file (h : Piped s.files calls) (op : FileOp) :
    Piped (s.file op).2.files ((op, (s.file op).1) :: calls) := by
  have hwf := Files.wf_file h.wf op
  cases op with
  | posixOpen path =>
    refine h.other hwf ?_ (fun _ => rfl) (fun _ => rfl)
    show (s.posixOpen path).2.pipes = s.pipes
    rcases s.posixOpen_cases path with hop | ⟨i, -, hop⟩
    · rw [hop]
    · rw [hop]
      rfl
  | posixClose fd =>
    refine h.other hwf ?_ (fun _ => rfl) (fun _ => rfl)
    show (s.posixClose fd).2.pipes = s.pipes
    rcases s.posixClose_cases fd with ⟨hop, -⟩ | ⟨i, -, -, hop⟩
    · rw [hop]
    · rw [hop]
      rfl
  | createPipe outs =>
    show Piped (s.createPipe outs).2.files (_ :: calls)
    rcases s.createPipe_cases outs with hop | ⟨i, hclosed, hop⟩
    · rw [hop]
      exact h.other h.wf rfl (fun _ => rfl) (fun _ => rfl)
    · rw [hop]
      exact h.newPipe hclosed (fun _ => rfl) (fun _ => rfl)
  | pipeWrite fd data length => exact h.write fd data length
  | pipeRead fd buffer length => exact h.read fd buffer length
  | openPseudoTerminal name outs =>
    refine h.other hwf ?_ (fun _ => rfl) (fun _ => rfl)
    show (s.openPseudoTerminal name outs).2.pipes = s.pipes
    rcases s.openPseudoTerminal_cases name outs with hop | ⟨i, -, hop⟩
    · rw [hop]
    · rw [hop]
      rfl

theorem piped_reset : Piped State.initialised.files [] := by
  refine ⟨Files.wf_reset, fun i hi => ?_, fun _ _ => rfl, fun _ _ => rfl⟩
  have hclosed : (State.initialised.files.pipes i).isOpen = false := rfl
  rw [hclosed] at hi
  exact absurd hi (by simp)

end Step

theorem piped (e : Entries) (heap : { h : KernelHeap // h.InBlock }) (as : List System.Action) :
    Piped (reached e heap as).user.files (fileCalls (reached e heap as).log) :=
  files_invariant piped_reset (fun _ _ op h => h.file op) e heap as

/-! ## The queue law -/

section Runs

variable {s : State} {calls : List (FileOp × Result)} {i : Fin kMaxPipes}

/-- The bytes on their way. -/
theorem Fifo.unread {p : UserPipe} (h : Fifo p calls) :
    (accepted p.writeFd calls).length - (returned p.readFd calls).length =
      p.writeOffset.toNat - p.readOffset.toNat := by
  have horder := h.bounded.order
  rw [h.written, h.taken, List.length_take, UserPipe.length_stored]
  omega

/-- What a read at the read end of a pipe returns. -/
theorem Piped.length_read (h : Piped s.files calls) (hi : (s.pipes i).isOpen = true) (length : UInt32) :
    (s.pipeRead (s.pipes i).readFd true length).1.length =
      min length.toNat ((s.pipes i).writeOffset.toNat - (s.pipes i).readOffset.toNat) := by
  have hfifo : Fifo (s.pipes i) calls := h.fifo i hi
  have hfind := findReadEnd_self h.wf hi
  rcases s.pipeRead_cases (s.pipes i).readFd true length with ⟨hop, hwhy⟩ | ⟨j, -, -, hfindj, hop⟩ <;> rw [hop]
  · rcases hwhy with hbuf | hlen | hnone
    · exact absurd hbuf (by simp)
    · rw [hlen]
      simp
    · rw [hfind] at hnone
      exact absurd hnone (by simp)
  · rw [hfind] at hfindj
    rw [← Option.some.inj hfindj]
    obtain ⟨hbytes, -, -⟩ := UserPipe.readLoop_spec hfifo.bounded length.toNat
    rw [hbytes, List.length_take, List.length_drop, UserPipe.length_stored]
    omega

/-- What a write at the write end of a pipe accepts. -/
theorem Piped.count_write (h : Piped s.files calls) (hi : (s.pipes i).isOpen = true) (data : Nat → UInt8)
    (length : UInt32) :
    (s.pipeWrite (s.pipes i).writeFd (some data) length).1.toNat =
      min length.toNat (kPipeBufferSize - (s.pipes i).writeOffset.toNat) := by
  have hfifo : Fifo (s.pipes i) calls := h.fifo i hi
  have hfind := findWriteEnd_self h.wf hi
  rcases s.pipeWrite_cases (s.pipes i).writeFd (some data) length with
    ⟨hop, hwhy⟩ | ⟨d, j, hd, -, hfindj, hop⟩ <;> rw [hop]
  · rcases hwhy with hdata | hlen | hnone
    · exact absurd hdata (by simp)
    · rw [hlen]
      simp
    · rw [hfind] at hnone
      exact absurd hnone (by simp)
  · rw [hfind] at hfindj
    rw [← Option.some.inj hfindj, ← Option.some.inj hd]
    have hspec := UserPipe.writeLoop_spec data hfifo.bounded.room length.toNat 0
    have hsize : kPipeBufferSize = 64 := rfl
    have hbig : 64 < UInt32.size := by decide
    rw [UInt32.toNat_ofNat_of_lt' (by omega), hspec.1, Nat.zero_add]

/-- The calls that use a pipe. -/
def System.Action.Uses (p : UserPipe) : System.Action → Prop
  | .call (.file (.pipeWrite fd _ _)) => fd = p.writeFd
  | .call (.file (.pipeRead fd _ _))  => fd = p.readFd
  | _                                 => False

/-- A call about files that does not use an open pipe leaves it alone. -/
theorem pipes_file (hi : (s.pipes i).isOpen = true) {op : FileOp}
    (hop : ¬ System.Action.Uses (s.pipes i) (.call (.file op))) : (s.file op).2.pipes i = s.pipes i := by
  cases op with
  | posixOpen path =>
    show (s.posixOpen path).2.pipes i = s.pipes i
    rcases s.posixOpen_cases path with heq | ⟨j, -, heq⟩
    · rw [heq]
    · rw [heq]
      rfl
  | posixClose fd =>
    show (s.posixClose fd).2.pipes i = s.pipes i
    rcases s.posixClose_cases fd with ⟨heq, -⟩ | ⟨j, -, -, heq⟩
    · rw [heq]
    · rw [heq]
      rfl
  | createPipe outs =>
    show (s.createPipe outs).2.pipes i = s.pipes i
    rcases s.createPipe_cases outs with heq | ⟨j, hclosed, heq⟩
    · rw [heq]
    · have hij : i ≠ j := by
        rintro rfl
        rw [hclosed] at hi
        exact absurd hi (by simp)
      rw [heq]
      exact Function.update_of_ne hij _ _
  | pipeWrite fd data length =>
    show (s.pipeWrite fd data length).2.pipes i = s.pipes i
    rcases s.pipeWrite_cases fd data length with ⟨heq, -⟩ | ⟨d, j, -, -, hfind, heq⟩
    · rw [heq]
    · have hij : i ≠ j := by
        rintro rfl
        exact hop (findWriteEnd_some hfind).2.symm
      rw [heq]
      exact Function.update_of_ne hij _ _
  | pipeRead fd buffer length =>
    show (s.pipeRead fd buffer length).2.pipes i = s.pipes i
    rcases s.pipeRead_cases fd buffer length with ⟨heq, -⟩ | ⟨j, -, -, hfind, heq⟩
    · rw [heq]
    · have hij : i ≠ j := by
        rintro rfl
        exact hop (findReadEnd_some hfind).2.symm
      rw [heq]
      exact Function.update_of_ne hij _ _
  | openPseudoTerminal name outs =>
    show (s.openPseudoTerminal name outs).2.pipes i = s.pipes i
    rcases s.openPseudoTerminal_cases name outs with heq | ⟨j, -, heq⟩
    · rw [heq]
    · rw [heq]
      rfl

/-- A step that does not use an open pipe leaves it alone. -/
theorem pipes_step {e : Entries} {s : System} {i : Fin kMaxPipes}
    (hi : (s.user.pipes i).isOpen = true) {a : System.Action} (ha : ¬ a.Uses (s.user.pipes i)) :
    (s.step e a).user.pipes i = s.user.pipes i := by
  have hsame : ∀ {t : State}, t.files = s.user.files → t.pipes i = s.user.pipes i :=
    fun ht => congrFun (congrArg Files.pipes ht) i
  rcases s.step_cases e a with hstep | ⟨op, rfl, -, hstep⟩ | ⟨b, -, -, hstep⟩ <;> rw [hstep]
  · cases op with
    | file op => exact pipes_file hi ha
    | process op => exact hsame (s.sameTables_process e op).files
    | signal op => exact hsame (s.files_signal op)
  · dsimp only
    split
    · exact hsame (s.sameTables_entered e).files
    · rfl

/-- **A pipe is a queue.** In every state of every run, what the reads of an open pipe have returned is a prefix of
    what its writes have accepted, a read returns as many of the unread bytes as it asks for, the offsets are in
    order and in the buffer, and only calls that name the pipe change it. -/
theorem pipe_fifo (e : Entries) (heap : { h : KernelHeap // h.InBlock }) (as : List System.Action) (i : Fin kMaxPipes)
    (hi : ((reached e heap as).user.pipes i).isOpen = true) :
    let s := reached e heap as
    let p := s.user.pipes i
    let calls := fileCalls s.log
    returned p.readFd calls <+: accepted p.writeFd calls ∧
    p.readOffset ≤ p.writeOffset ∧ p.writeOffset.toNat ≤ kPipeBufferSize ∧
    (∀ length, (s.user.pipeRead p.readFd true length).1.length =
      min length.toNat ((accepted p.writeFd calls).length - (returned p.readFd calls).length)) ∧
    ∀ a : System.Action, ¬ a.Uses p → (s.step e a).user.pipes i = p := by
  intro s p calls
  have hpiped : Piped s.user.files calls := piped e heap as
  have hfifo : Fifo p calls := hpiped.fifo i hi
  refine ⟨?_, UInt32.le_iff_toNat_le.mpr hfifo.bounded.order, hfifo.bounded.room, fun length => ?_,
    fun a ha => pipes_step hi ha⟩
  · rw [hfifo.written, hfifo.taken]
    exact List.take_prefix _ _
  · rw [hfifo.unread]
    exact hpiped.length_read hi length

/-- One pipe, three bytes written, two of them read. -/
def pipeRun : List System.Action :=
  [.call (.file (.createPipe true)),
    .call (.file (.pipeWrite 65 (some fun k => UInt8.ofNat (k + 7)) 3)),
    .call (.file (.pipeRead 64 true 2))]

theorem pipe_fifo_pipeRun :
    let s := reached entriesAt1MiB Scheduler.heapAt2MiB pipeRun
    returned (s.user.pipes 0).readFd (fileCalls s.log) <+: accepted (s.user.pipes 0).writeFd (fileCalls s.log) ∧
    returned (s.user.pipes 0).readFd (fileCalls s.log) = [7, 8] :=
  ⟨(pipe_fifo entriesAt1MiB Scheduler.heapAt2MiB pipeRun 0 (by decide +kernel)).1, by decide +kernel⟩

/-! ## The buffer is used once -/

/-- **When a write makes progress.** At an open pipe with room for unread bytes, a write of at least one byte accepts
    something exactly when fewer bytes have been accepted since the pipe was opened than the buffer holds. -/
theorem write_progress_iff (e : Entries) (heap : { h : KernelHeap // h.InBlock }) (as : List System.Action)
    (i : Fin kMaxPipes) (hi : ((reached e heap as).user.pipes i).isOpen = true) :
    let s := reached e heap as
    let p := s.user.pipes i
    let calls := fileCalls s.log
    (accepted p.writeFd calls).length - (returned p.readFd calls).length < kPipeBufferSize →
    ∀ data length, length ≠ 0 →
      (0 < (s.user.pipeWrite p.writeFd (some data) length).1.toNat ↔
        (accepted p.writeFd calls).length < kPipeBufferSize) := by
  intro s p calls _ data length hlen
  have hpiped : Piped s.user.files calls := piped e heap as
  have hfifo : Fifo p calls := hpiped.fifo i hi
  have hpos : 0 < length.toNat := Nat.pos_of_ne_zero fun hz => hlen (UInt32.toNat_inj.mp hz)
  rw [hpiped.count_write hi, hfifo.written, UserPipe.length_stored]
  show 0 < min _ (kPipeBufferSize - p.writeOffset.toNat) ↔ _
  omega

theorem write_progress_iff_pipeRun :
    let s := reached entriesAt1MiB Scheduler.heapAt2MiB pipeRun
    0 < (s.user.pipeWrite (s.user.pipes 0).writeFd (some fun _ => 0) 5).1.toNat ↔
      (accepted (s.user.pipes 0).writeFd (fileCalls s.log)).length < kPipeBufferSize :=
  write_progress_iff entriesAt1MiB Scheduler.heapAt2MiB pipeRun 0 (by decide +kernel) (by decide +kernel)
    (fun _ => 0) 5 (by decide)

/-- A pipe whose whole buffer has been written and read. -/
def drainedRun : List System.Action :=
  [.call (.file (.createPipe true)),
    .call (.file (.pipeWrite 65 (some fun _ => 1) 64)),
    .call (.file (.pipeRead 64 true 64))]

/-- The drained pipe has no unread byte and accepts none. -/
theorem drained_pipe_stalls :
    let s := reached entriesAt1MiB Scheduler.heapAt2MiB drainedRun
    let p := s.user.pipes 0
    p.isOpen = true ∧
    (accepted p.writeFd (fileCalls s.log)).length - (returned p.readFd (fileCalls s.log)).length = 0 ∧
    (s.user.pipeWrite p.writeFd (some fun _ => 1) 1).1 = 0 := by
  decide +kernel

end Runs
end Userspace
end UefiBoot
