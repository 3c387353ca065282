import AsyncUdx.BasePipe
import AsyncUdx.PairDelivery

/-! Two connected streams are a reliable pipe in each direction. What the users of the two sides see of an event
is what a write says it has taken and what a read puts into its buffer; along every run these are the steps of
a pipe, whatever the network does and whatever else happens to the streams. A read that cannot finish a packet
puts bytes into its buffer as well, also when it then reports that it is pending or fails: these count as
given out. -/

namespace AsyncUdx

open Relation UdxStreamInner

variable {ok : IncomingPacket → Prop} {now : Nat}

/-! ### What users see of a call -/

namespace UdxStream

/-- The bytes a call is told were taken. -/
def taken (u : UdxStream) : Call → List UInt8
  | .write waker buf => if u.handles = 0 then [] else takenBytes buf (u.inner.pollWrite u.clock waker buf).2
  | _ => []

/-- The bytes a call puts into a read buffer. -/
def given (u : UdxStream) : Call → List UInt8
  | .read waker remaining => if u.handles = 0 then [] else (u.inner.pollRead waker remaining).2.1
  | _ => []

theorem call_taken (u : UdxStream) (c : Call) : (u.call c).accepted = u.accepted ++ u.taken c := by
  cases c with
  | write waker buf =>
      rw [call, taken]
      split
      · exact (List.append_nil _).symm
      · rfl
  | _ => exact (call_accepted u _ fun _ _ h => by cases h).trans (List.append_nil _).symm

end UdxStream

theorem Micro.delivered_eq {s t : UdxStreamInner} (h : Micro ok now s t) :
    t.ghost.delivered = s.ghost.delivered := by
  cases h with
  | ackNext packet hok hlt => exact congrArg RecvSide.delivered (ackPacket_recvSide _ _)
  | sack packet i hok htype => exact congrArg RecvSide.delivered (ackPacket_recvSide _ _)
  | _ => rfl

/-- What the history records of a read is what it puts into the buffer. -/
theorem pollRead_delivered (s : UdxStreamInner) (waker : Waker) (remaining : Nat) :
    ((s.pollRead waker remaining).1.ghost.delivered.map Prod.snd).flatten =
      (s.ghost.delivered.map Prod.snd).flatten ++ (s.pollRead waker remaining).2.1 := by
  have hbytes : (s.pollRead waker remaining).2.1 = (s.readNext remaining).2.1 := by
    unfold pollRead
    split
    · rename_i h
      rw [h]
    · rename_i h
      rw [h]
      split <;> rfl
  rw [pollRead_frame (fun s => (s.ghost.delivered.map Prod.snd).flatten) (fun _ _ => rfl), hbytes]
  exact readLoop_delivered _ remaining s

namespace UdxStream

theorem call_given (u : UdxStream) (c : Call) : (u.call c).deliveredBytes = u.deliveredBytes ++ u.given c := by
  by_cases hread : ∃ waker remaining, c = .read waker remaining
  · obtain ⟨waker, remaining, rfl⟩ := hread
    rw [call, given]
    split
    · exact (List.append_nil _).symm
    · exact pollRead_delivered u.inner waker remaining
  · have hsame : (u.call c).inner.ghost.delivered = u.inner.ghost.delivered :=
      call_frame (fun s => s.ghost.delivered) u c (fun _ _ _ h => h.delivered_eq) (fun _ _ => rfl) (fun _ _ _ => rfl)
        (fun _ _ _ _ _ => rfl) (fun waker remaining h => absurd ⟨waker, remaining, h⟩ hread) (fun _ _ => rfl)
        fun _ _ _ _ _ _ => rfl
    have hnone : u.given c = [] := by
      cases c with
      | read waker remaining => exact absurd ⟨waker, remaining, rfl⟩ hread
      | _ => rfl
    rw [deliveredBytes, hsame, hnone, List.append_nil, deliveredBytes]

end UdxStream

/-! ### The pipe of a pair -/

namespace Pair

/-- The bytes an event is told were taken at a side. -/
def taken (p : Pair) (x : Side) : PairEvent → List UInt8
  | .call y c => if y = x then (p.peer x).taken c else []
  | .deliver _ _ => []

/-- The bytes an event puts into a read buffer at a side. -/
def given (p : Pair) (x : Side) : PairEvent → List UInt8
  | .call y c => if y = x then (p.peer x).given c else []
  | .deliver _ _ => []

/-- What is seen of an event in the direction from a side to the other one. -/
def observe (x : Side) (p : Pair) (e : PairEvent) : Pipe.Action UInt8 where
  taken := p.taken x e
  given := p.given x.other e

/-- An event that is no call at a side leaves what its users have seen. -/
theorem step_peer (p : Pair) (x : Side) (e : PairEvent) :
    (∃ c, e = .call x c ∧ (p.step e).peer x = (p.peer x).call c) ∨
    (p.taken x e = [] ∧ p.given x e = [] ∧ ((p.step e).peer x).accepted = (p.peer x).accepted ∧
      ((p.step e).peer x).deliveredBytes = (p.peer x).deliveredBytes) := by
  cases e with
  | call y c =>
      cases x <;> cases y
      · exact Or.inl ⟨c, rfl, rfl⟩
      · exact Or.inr ⟨rfl, rfl, rfl, rfl⟩
      · exact Or.inr ⟨rfl, rfl, rfl, rfl⟩
      · exact Or.inl ⟨c, rfl, rfl⟩
  | deliver y n =>
      refine Or.inr ⟨rfl, rfl, ?_⟩
      rw [step]
      split
      · exact ⟨rfl, rfl⟩
      · cases x <;> cases y <;> exact ⟨rfl, rfl⟩

theorem step_taken (p : Pair) (x : Side) (e : PairEvent) :
    ((p.step e).peer x).accepted = (p.peer x).accepted ++ p.taken x e := by
  rcases p.step_peer x e with ⟨c, rfl, h⟩ | ⟨htaken, -, h, -⟩
  · rw [h, UdxStream.call_taken, taken, if_pos rfl]
  · rw [h, htaken, List.append_nil]

theorem step_given (p : Pair) (x : Side) (e : PairEvent) :
    ((p.step e).peer x).deliveredBytes = (p.peer x).deliveredBytes ++ p.given x e := by
  rcases p.step_peer x e with ⟨c, rfl, h⟩ | ⟨-, hgiven, -, h⟩
  · rw [h, UdxStream.call_given, given, if_pos rfl]
  · rw [h, hgiven, List.append_nil]

/-- A pipe that has taken in what a side has accepted, and given out what the other side has read. -/
structure Carries (x : Side) (p : Pair) (pipe : Pipe UInt8) : Prop where
  flow : Flow (p.peer x) (p.peer x.other)
  written : pipe.written = (p.peer x).accepted
  read : pipe.read = (p.peer x.other).deliveredBytes

/-- An event is a step of the pipe. -/
theorem Carries.step {x : Side} {p : Pair} {pipe : Pipe UInt8} (h : Carries x p pipe) (e : PairEvent)
    (hfew : FewCreated ((p.step e).peer x).inner) :
    ∃ pipe', Pipe.Step pipe (observe x p e) pipe' ∧ Carries x (p.step e) pipe' := by
  have hflow := (p.step_link e x).flow h.flow hfew
  let pipe' : Pipe UInt8 := {
    written := ((p.step e).peer x).accepted
    read := ((p.step e).peer x.other).deliveredBytes
    ordered := hflow.accepted ▸ hflow.receives.delivered_prefix }
  refine ⟨pipe', ⟨?_, ?_⟩, hflow, rfl, rfl⟩
  · rw [h.written]
    exact p.step_taken x e
  · rw [h.read]
    exact p.step_given x.other e

/-- **Two connected streams are a reliable pipe.** What is seen along a run, in either direction, is a trace of a
pipe. -/
theorem refines_pipe (startA startB : Nat) (addrA addrB : SocketAddr) (idA idB : UInt32) (x : Side)
    (events : List PairEvent)
    (hfew : FewCreated ((Runs.run step (connect startA startB addrA addrB idA idB) events).peer x).inner) :
    ∃ pipe, Runs.Trace Pipe.Step .empty
        (Runs.observations step (observe x) (connect startA startB addrA addrB idA idB) events) pipe ∧
      Carries x (Runs.run step (connect startA startB addrA addrB idA idB) events) pipe := by
  refine Runs.trace_of_run (Carries x) (fun p : Pair => FewCreated (p.peer x).inner)
    (fun p e => (p.step_link e x).fewCreated) (fun p e pipe h => h.step e) ?_ hfew
  cases x <;> exact ⟨connect_flow _ _ _ _ _ _ _ _, rfl, rfl⟩

/-- All that the writes of a side have taken is what the reads of the other side were given, in that order,
followed by what is still under way. -/
theorem taken_eq_given (startA startB : Nat) (addrA addrB : SocketAddr) (idA idB : UInt32) (x : Side)
    (events : List PairEvent)
    (hfew : FewCreated ((Runs.run step (connect startA startB addrA addrB idA idB) events).peer x).inner) :
    let seen := Runs.observations step (observe x) (connect startA startB addrA addrB idA idB) events
    ∃ pending, seen.flatMap Pipe.Action.taken = seen.flatMap Pipe.Action.given ++ pending := by
  intro seen
  obtain ⟨pipe, htrace, -⟩ := refines_pipe startA startB addrA addrB idA idB x events hfew
  exact ⟨pipe.pending, Pipe.conserves_of_trace htrace⟩

end Pair

end AsyncUdx
