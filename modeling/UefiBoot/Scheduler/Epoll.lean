import Mathlib.Data.List.Dedup
import UefiBoot.Scheduler.EventTable

/-!
# `Scheduler.Epoll` — what `KernelEpollWait` reports

`KernelEpollAdd` appends to the watches of an epoll until they are full, and never looks whether the object is
watched already: a watch is a registration and not an object. `KernelEpollWait` walks the watches in that order.
So what it reports is the list of the ready registrations, cut off at `capacity` (`epollWait_registrations`), and an
object that was registered twice is reported twice (`watchedTwice_reported`).

A poll of a timer writes its expiration count, and whether an object is ready does not depend on that count. This is
what carries the loop: the objects polled so far leave the readiness of every descriptor alone (`readyFd_eventReady`).
-/

namespace UefiBoot
namespace Scheduler

/-- What `EventReady` returns true for: an eventfd with a counter, a timer that is armed and due. -/
def EventObject.Ready (o : EventObject) (tick : UInt64) : Prop :=
  (o.type = .event ∧ o.value ≠ 0) ∨ (o.type = .timer ∧ o.deadline ≠ 0 ∧ o.deadline ≤ tick)

instance (o : EventObject) (tick : UInt64) : Decidable (o.Ready tick) := by
  unfold EventObject.Ready
  infer_instance

/-- The descriptor names an object, and the object is ready. -/
def State.readyFd (s : State) (fd : Int32) : Bool :=
  (s.findEventObject fd).any fun i => decide ((s.eventObjects i).Ready s.schedulerTick)

/-- A sequence of `KernelEpollAdd` calls, with any epolls and any watched descriptors. -/
def State.epollAdds (s : State) (adds : List (Int32 × Int32)) : State :=
  adds.foldl (fun s add => (kernelEpollAdd s add.1 add.2).2) s

/-- The descriptors that calls register with one epoll: those that name an object. -/
def State.registrations (s : State) (epollFd : Int32) (adds : List (Int32 × Int32)) : List Int32 :=
  (adds.filter fun add => add.1 == epollFd && (s.findEventObject add.2).isSome).map Prod.snd

variable {s s' : State} {i j : Fin kMaxEventObjects} {epollFd fd : Int32}

/-! ## Readiness -/

/-- `EventReady` returns the readiness of the object. -/
theorem eventReady_fst (o : EventObject) (tick : UInt64) : (o.eventReady tick).1 = decide (o.Ready tick) := by
  unfold EventObject.eventReady EventObject.Ready
  split
  · rename_i hevent
    by_cases hvalue : o.value = 0
    · simp [hevent, hvalue]
    · simp [hevent, hvalue]
  · rename_i hevent
    split
    · rename_i hdue
      obtain ⟨htimer, harmed, hle⟩ := hdue
      have hready : (o.type = .event ∧ o.value ≠ 0) ∨ (o.type = .timer ∧ o.deadline ≠ 0 ∧ o.deadline ≤ tick) :=
        Or.inr ⟨htimer, harmed, hle⟩
      exact (decide_eq_true hready).symm
    · rename_i hdue
      symm
      apply decide_eq_false
      rintro (hready | hready)
      · exact hevent hready.1
      · exact hdue hready

/-- The expiration count that a poll writes plays no part in the readiness of a timer. -/
theorem ready_eventReady (o : EventObject) (tick tick' : UInt64) :
    (o.eventReady tick).2.Ready tick' ↔ o.Ready tick' := by
  unfold EventObject.eventReady
  split
  · exact Iff.rfl
  · split
    · rename_i hevent hdue
      unfold EventObject.Ready
      simp only [hevent, false_and, false_or]
    · exact Iff.rfl

/-- Writes that keep type, descriptor and readiness of every object keep what is ready. -/
theorem readyFd_congr {s s' : State} (htick : s'.schedulerTick = s.schedulerTick)
    (hobj : ∀ i, (s'.eventObjects i).type = (s.eventObjects i).type ∧
      (s'.eventObjects i).fd = (s.eventObjects i).fd ∧
      ((s'.eventObjects i).Ready s.schedulerTick ↔ (s.eventObjects i).Ready s.schedulerTick)) :
    s'.findEventObject = s.findEventObject ∧ s'.readyFd = s.readyFd := by
  have hfind : s'.findEventObject = s.findEventObject := by
    funext fd
    unfold State.findEventObject
    congr 1
    funext i
    rw [(hobj i).1, (hobj i).2.1]
  refine ⟨hfind, ?_⟩
  funext fd
  unfold State.readyFd
  rw [hfind, htick]
  congr 1
  funext i
  exact decide_eq_decide.mpr (hobj i).2.2

theorem readyFd_eventReady (s : State) (i : Fin kMaxEventObjects) :
    (eventReady s i).2.findEventObject = s.findEventObject ∧ (eventReady s i).2.readyFd = s.readyFd := by
  refine @readyFd_congr s (eventReady s i).2 rfl fun j => ?_
  have hpolled := (polls_eventReady s i).obj j
  refine ⟨hpolled.1, hpolled.2.1, ?_⟩
  show (Function.update s.eventObjects i _ j).Ready _ ↔ _
  by_cases hji : j = i
  · rw [hji, Function.update_self]
    exact ready_eventReady _ _ _
  · rw [Function.update_of_ne hji]

/-! ## The loop of `KernelEpollWait` -/

/-- One turn of the loop reports the descriptor if it is ready and there is room. -/
theorem epollPoll_fst (capacity : Nat) (out : List Int32) (s : State) (fd : Int32) :
    (epollPoll capacity (out, s) fd).1 = if out.length < capacity ∧ s.readyFd fd = true then out ++ [fd] else out := by
  unfold epollPoll State.readyFd
  dsimp only
  by_cases hfull : capacity ≤ out.length
  · rw [if_pos hfull, if_neg fun h => absurd h.1 (by omega)]
  · rw [if_neg hfull]
    cases hfind : s.findEventObject fd with
    | none => simp
    | some i =>
      have hfd := (findEventObject_some hfind).2
      have hready : (eventReady s i).1 = decide ((s.eventObjects i).Ready s.schedulerTick) := eventReady_fst _ _
      dsimp only
      rw [hready, hfd]
      simp only [Option.any_some, Nat.lt_of_not_le hfull, true_and]

/-- A turn leaves the readiness of every descriptor alone. -/
theorem epollPoll_snd (capacity : Nat) (out : List Int32) (s : State) (fd : Int32) :
    (epollPoll capacity (out, s) fd).2.readyFd = s.readyFd := by
  unfold epollPoll
  dsimp only
  split
  · rfl
  · split
    · rfl
    · exact (readyFd_eventReady s _).2

/-- The loop appends the ready descriptors in their order, while there is room. -/
theorem epollPolls (capacity : Nat) (fds out : List Int32) (s : State) :
    (fds.foldl (epollPoll capacity) (out, s)).1 = out ++ (fds.filter s.readyFd).take (capacity - out.length) := by
  induction fds generalizing out s with
  | nil => simp
  | cons fd fds ih =>
    have hout := epollPoll_fst capacity out s fd
    have hready := epollPoll_snd capacity out s fd
    rw [List.foldl_cons, ← Prod.mk.eta (p := epollPoll capacity (out, s) fd), ih, hready, hout, List.filter_cons]
    by_cases hfd : s.readyFd fd = true
    · by_cases hroom : out.length < capacity
      · -- the descriptor takes one of the places left
        have hleft : capacity - out.length = capacity - (out.length + 1) + 1 := by omega
        rw [if_pos ⟨hroom, hfd⟩, if_pos hfd, hleft, List.take_succ_cons, List.length_append, List.append_assoc]
        rfl
      · have hnone : capacity - out.length = 0 := by omega
        rw [if_neg fun h => hroom h.1, hnone, List.take_zero, List.take_zero]
    · rw [if_neg fun h => hfd h.2, if_neg hfd]

/-! ## Registration -/

/-- `KernelEpollAdd` changes the watches of an epoll, and no type, descriptor or readiness. -/
theorem readyFd_epollAdd (s : State) (epollFd watched : Int32) :
    (kernelEpollAdd s epollFd watched).2.findEventObject = s.findEventObject ∧
      (kernelEpollAdd s epollFd watched).2.readyFd = s.readyFd := by
  rcases epollAdd_cases s epollFd watched with h | ⟨i, -, -, h⟩
  · rw [h]
    exact ⟨rfl, rfl⟩
  · rw [h]
    refine @readyFd_congr s (s.setEventObject i _) rfl fun j => ?_
    rw [State.setEventObject_eventObjects]
    by_cases hji : j = i
    · rw [hji, Function.update_self]
      exact ⟨rfl, rfl, Iff.rfl⟩
    · rw [Function.update_of_ne hji]
      exact ⟨rfl, rfl, Iff.rfl⟩

/-- An object keeps its type, and is watched for what it was and perhaps one descriptor more. -/
theorem epollAdd_object (hfind : s.findEventObject epollFd = some i) (htype : (s.eventObjects i).type = .epoll)
    (fd watched : Int32) :
    ((kernelEpollAdd s fd watched).2.eventObjects i).type = .epoll ∧
      ((kernelEpollAdd s fd watched).2.eventObjects i).watches =
        (s.eventObjects i).watches ++ (s.registrations epollFd [(fd, watched)]).take
          (kMaxEpollWatches - (s.eventObjects i).watches.length) := by
  unfold kernelEpollAdd State.registrations
  by_cases hfd : fd = epollFd
  · rw [hfd, hfind]
    dsimp only
    cases hwatched : s.findEventObject watched with
    | none => simp [hwatched, htype]
    | some k =>
      by_cases hfull : kMaxEpollWatches ≤ (s.eventObjects i).watches.length
      · have hnone : kMaxEpollWatches - (s.eventObjects i).watches.length = 0 := by omega
        rw [if_pos (Or.inr (Or.inr hfull)), hnone, List.take_zero, List.append_nil]
        exact ⟨htype, rfl⟩
      · have hsome : kMaxEpollWatches - (s.eventObjects i).watches.length
            = kMaxEpollWatches - (s.eventObjects i).watches.length - 1 + 1 := by omega
        have hok : ¬ ((s.eventObjects i).type ≠ .epoll ∨ some k = none ∨
            kMaxEpollWatches ≤ (s.eventObjects i).watches.length) := by simp [htype, hfull]
        rw [if_neg hok, hsome]
        simp [hwatched, htype]
  · -- the call is on another epoll, whose slot is another one
    have hbeq : (fd == epollFd) = false := beq_false_of_ne hfd
    simp only [List.filter_cons, List.filter_nil, hbeq, Bool.false_and, Bool.false_eq_true, if_false, List.map_nil,
      List.take_nil, List.append_nil]
    split
    · exact ⟨htype, rfl⟩
    · rename_i k hk
      have hki : i ≠ k := by
        intro hik
        rw [← hik] at hk
        exact hfd ((findEventObject_some hk).2.symm.trans (findEventObject_some hfind).2)
      split
      · exact ⟨htype, rfl⟩
      · dsimp only
        rw [State.setEventObject_eventObjects, Function.update_of_ne hki]
        exact ⟨htype, rfl⟩

/-- **The watches of an epoll** are the registrations in their order, until there is no room. -/
theorem epollAdds_watches (adds : List (Int32 × Int32)) (hfind : s.findEventObject epollFd = some i)
    (htype : (s.eventObjects i).type = .epoll) :
    (s.epollAdds adds).findEventObject = s.findEventObject ∧ (s.epollAdds adds).readyFd = s.readyFd ∧
      ((s.epollAdds adds).eventObjects i).type = .epoll ∧
      ((s.epollAdds adds).eventObjects i).watches =
        (s.eventObjects i).watches ++ (s.registrations epollFd adds).take
          (kMaxEpollWatches - (s.eventObjects i).watches.length) := by
  induction adds generalizing s with
  | nil => simp [State.epollAdds, State.registrations, htype]
  | cons add adds ih =>
    obtain ⟨fd, watched⟩ := add
    obtain ⟨hfinds, hreadys⟩ := readyFd_epollAdd s fd watched
    obtain ⟨htype', hwatches⟩ := epollAdd_object hfind htype fd watched
    obtain ⟨hfinds', hreadys', htypes, hrest⟩ :=
      ih (s := (kernelEpollAdd s fd watched).2) ((congrFun hfinds epollFd).trans hfind) htype'
    refine ⟨hfinds'.trans hfinds, hreadys'.trans hreadys, htypes, hrest.trans ?_⟩
    -- a cut of the first registration followed by a cut of the others is one cut
    have hregs : s.registrations epollFd ((fd, watched) :: adds)
        = s.registrations epollFd [(fd, watched)] ++
          (kernelEpollAdd s fd watched).2.registrations epollFd adds := by
      unfold State.registrations
      rw [hfinds, ← List.singleton_append, List.filter_append, List.map_append]
    rw [hwatches, hregs, List.take_append, List.append_assoc, List.length_append, List.length_take]
    congr 3
    omega

/-- `KernelEpollWait` on an epoll is its loop. -/
theorem epollWait_loop (hfind : s.findEventObject epollFd = some i) (htype : (s.eventObjects i).type = .epoll)
    (capacity : UInt32) :
    (kernelEpollWait s epollFd true capacity).1 = ((s.eventObjects i).watches.filter s.readyFd).take capacity.toNat := by
  have hok : ¬ ((s.eventObjects i).type ≠ .epoll ∨ true = false) := by simp [htype]
  unfold kernelEpollWait
  rw [hfind]
  dsimp only
  rw [if_neg hok, epollPolls, List.nil_append, List.length_nil, Nat.sub_zero]

/-- **`KernelEpollWait` reports the ready registrations**, in the order they were made and one for each, up to
    `capacity`. Where no ready object was registered twice these are distinct objects. -/
theorem epollWait_registrations (s : State) (adds : List (Int32 × Int32)) (epollFd : Int32) (capacity : UInt32)
    (i : Fin kMaxEventObjects) (hfind : s.findEventObject epollFd = some i)
    (htype : (s.eventObjects i).type = .epoll) :
    let watches := (s.eventObjects i).watches ++
      (s.registrations epollFd adds).take (kMaxEpollWatches - (s.eventObjects i).watches.length)
    let ready := watches.filter (s.epollAdds adds).readyFd
    let reported := (kernelEpollWait (s.epollAdds adds) epollFd true capacity).1
    ((s.epollAdds adds).eventObjects i).watches = watches ∧
      reported = ready.take capacity.toNat ∧
      reported.length = min capacity.toNat ready.length ∧
      (ready.Nodup → reported.Nodup ∧ reported.length = min capacity.toNat ready.toFinset.card) := by
  obtain ⟨hfinds, -, htypes, hwatches⟩ := epollAdds_watches adds hfind htype
  intro watches ready reported
  have hreported : reported = ready.take capacity.toNat := by
    have hloop := epollWait_loop ((congrFun hfinds epollFd).trans hfind) htypes capacity
    rw [hwatches] at hloop
    exact hloop
  have hlength : reported.length = min capacity.toNat ready.length := by
    rw [hreported, List.length_take]
  refine ⟨hwatches, hreported, hlength, fun hnodup => ⟨?_, ?_⟩⟩
  · rw [hreported]
    exact hnodup.sublist (List.take_sublist _ _)
  · rw [hlength, List.toFinset_card_of_nodup hnodup]

/-- A due timer (descriptor 32), an eventfd with a counter (33) and an epoll (34). -/
def threeObjects : State :=
  let s := (kernelTimerFd { schedulerTick := 2 } 1 0).2
  let s := (kernelEventFd { s with schedulerTick := 3 } 1).2
  (kernelEpollCreate s).2

/-- The eventfd first and the timer after it; there is room for one. -/
theorem epollWait_registrations_cut :
    threeObjects.findEventObject 34 = some 2 ∧ (threeObjects.eventObjects 2).type = .epoll ∧
      (kernelEpollWait (threeObjects.epollAdds [(34, 33), (34, 32)]) 34 true 1).1.length = 1 :=
  have hfind : threeObjects.findEventObject 34 = some 2 := by decide +kernel
  have htype : (threeObjects.eventObjects 2).type = .epoll := by decide +kernel
  have hready : min (1 : UInt32).toNat (((threeObjects.eventObjects 2).watches ++
      (threeObjects.registrations 34 [(34, 33), (34, 32)]).take
        (kMaxEpollWatches - (threeObjects.eventObjects 2).watches.length)).filter
          (threeObjects.epollAdds [(34, 33), (34, 32)]).readyFd).length = 1 := by decide +kernel
  ⟨hfind, htype,
    (epollWait_registrations threeObjects [(34, 33), (34, 32)] 34 1 2 hfind htype).2.2.1.trans hready⟩

/-- An eventfd that was added twice is reported twice, where there is one ready object. -/
theorem watchedTwice_reported :
    (kernelEpollWait (threeObjects.epollAdds [(34, 33), (34, 33)]) 34 true 4).1 = [33, 33] ∧
      ((threeObjects.epollAdds [(34, 33), (34, 33)]).eventObjects 2).watches.dedup.countP
        (threeObjects.epollAdds [(34, 33), (34, 33)]).readyFd = 1 := by
  decide +kernel

end Scheduler
end UefiBoot
