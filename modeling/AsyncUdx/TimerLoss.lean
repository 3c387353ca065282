import AsyncUdx.StreamTask

/-! The retransmission timer. One timer serves all packets: it is armed when the stream connects, when the
cumulative acknowledgement moves on, and when it has fired with packets outstanding. A packet is declared
lost only when the timer has fired, so never earlier than the least timeout after the timer was armed; how
long the packet itself has been under way plays no role. -/

namespace AsyncUdx

open Relation UdxStreamInner

variable {ok : IncomingPacket → Prop} {now : Nat}

/-- The fields of a stream that concern the timer. -/
structure TimerSide where
  rto : Nat
  rtoTimeout : Nat
  armedAt : Nat
  armedBefore : Nat
  deadlineBefore : Nat
  lost : List Loss

def UdxStreamInner.timerSide (s : UdxStreamInner) : TimerSide where
  rto := s.rto
  rtoTimeout := s.rtoTimeout
  armedAt := s.ghost.armedAt
  armedBefore := s.ghost.armedBefore
  deadlineBefore := s.ghost.deadlineBefore
  lost := s.ghost.lost

/-- The timer has always been armed for a second at least, and fired before each loss. -/
structure TimerArmed (v : TimerSide) : Prop where
  floor : millis 1000 ≤ v.rto
  current : v.armedAt + millis 1000 ≤ v.rtoTimeout
  before : v.armedBefore + millis 1000 ≤ v.deadlineBefore
  losses : ∀ loss ∈ v.lost, loss.armedAt + millis 1000 ≤ loss.declaredAt

theorem timings_floor {srtt rttvar rto : Nat} (h : millis 1000 ≤ rto) (sample : Option Nat) :
    millis 1000 ≤ (timings srtt rttvar rto sample).2.2 := by
  cases sample with
  | none => exact h
  | some rtt => exact Nat.le_max_left _ _

theorem ackPacket_timerArmed {s : UdxStreamInner} (i : UInt32) (hs : TimerArmed s.timerSide) :
    TimerArmed (s.ackPacket now i).timerSide := by
  unfold ackPacket
  split
  · exact ⟨timings_floor hs.floor _, hs.current, hs.before, hs.losses⟩
  · exact hs

/-- Arming the timer for at least the least timeout. -/
theorem resetTimer_timerArmed {s : UdxStreamInner} (wait : Nat) (hs : TimerArmed s.timerSide)
    (hwait : millis 1000 ≤ wait) : TimerArmed (s.resetTimer now (now + wait)).timerSide :=
  ⟨hs.floor, Nat.add_le_add_left hwait now, hs.current, hs.losses⟩

theorem Micro.timerArmed {s t : UdxStreamInner} (h : Micro ok now s t) (hs : TimerArmed s.timerSide) :
    TimerArmed t.timerSide := by
  cases h with
  | ackNext packet hok hlt => exact ackPacket_timerArmed _ ⟨hs.floor, hs.current, hs.before, hs.losses⟩
  | sack packet i hok htype => exact ackPacket_timerArmed i hs
  | rearm => exact resetTimer_timerArmed s.rto hs hs.floor
  | backOff hdue hout =>
      have hfloor : millis 1000 ≤ s.rto := hs.floor
      exact resetTimer_timerArmed (2 * s.rto) hs (by omega)
  | park i packet hlookup hwaiting hmax hdue =>
      refine ⟨hs.floor, hs.current, hs.before, fun loss hloss => ?_⟩
      rcases List.mem_cons.mp hloss with rfl | hloss
      · exact Nat.le_trans hs.before hdue
      · exact hs.losses loss hloss
  | _ => exact hs

theorem timerArmed_invariant :
    MoveInvariant UdxStream.anyPacket (fun s => TimerArmed s.timerSide) (fun _ => True) where
  connect := fun _ _ _ _ => ⟨Nat.le_refl _, Nat.le_refl _, Nat.le_refl _, fun _ h => absurd h List.not_mem_nil⟩
  back := fun _ _ _ _ _ => trivial
  move := fun _ _ _ h hs _ => by
    cases h with
    | micro h => exact h.timerArmed hs
    | _ => exact hs
  channel := fun _ _ => id
  channel_back := fun _ _ _ => trivial

/-- **No loss within a second of arming the timer.** Whenever a packet is declared lost, at least a second has
passed since the timer that fired was armed, and so at least a second since the packet was last queued, if
that was no later. -/
theorem lost_after_timeout {u : UdxStream} (hu : u.Reachable) {loss : Loss} (hloss : loss ∈ u.inner.ghost.lost) :
    loss.armedAt + millis 1000 ≤ loss.declaredAt ∧
      ∀ queued ∈ loss.packet.queuedAt.head?, queued ≤ loss.armedAt → queued + millis 1000 ≤ loss.declaredAt := by
  have h : TimerArmed u.inner.timerSide := timerArmed_invariant.of_reachable hu
  have hlate := h.losses loss hloss
  exact ⟨hlate, fun queued _ hqueued => by omega⟩

/-- A packet sent right after the connection, and no answer. -/
def unansweredRun : List Event :=
  [.call (.write 0 [1]), .call (.poll 0 0 10 1), .call (.tick (millis 1000)), .call (.poll 0 0 10 1)]

theorem lost_after_timeout_unanswered :
    let u := (UdxStream.connect 0 ⟨.v4 0, 2⟩ 2 1).run unansweredRun
    ∃ loss ∈ u.inner.ghost.lost, loss.packet.queuedAt = [0] ∧ loss.armedAt + millis 1000 ≤ loss.declaredAt := by
  intro u
  refine ⟨u.inner.ghost.lost.head (by decide), List.head_mem _, by decide, ?_⟩
  exact (lost_after_timeout ⟨0, ⟨.v4 0, 2⟩, 2, 1, unansweredRun, rfl⟩ (List.head_mem _)).1

/-- A packet that was sent just before the timer fired for the one before it. -/
def sharedTimerRun : List Event :=
  [.call (.write 0 [1]), .call (.poll 0 0 10 1), .call (.tick (millis 999)), .call (.write 0 [2]),
    .call (.poll 0 0 10 1), .call (.tick (millis 1)), .call (.poll 0 0 10 1)]

/-- Both are declared lost, the second one a millisecond after it was queued. -/
theorem sharedTimerRun_lost_early :
    ((UdxStream.connect 0 ⟨.v4 0, 2⟩ 2 1).run sharedTimerRun).inner.ghost.lost.map
        (fun loss => (loss.packet.seq, loss.packet.queuedAt, loss.declaredAt)) =
      [(1, [millis 999], millis 1000), (0, [0], millis 1000)] := by
  decide

-- after an idle time the timer has fired and is not armed by a write: the packet is lost as it is queued
example :
    ((UdxStream.connect 0 ⟨.v4 0, 2⟩ 2 1).run [.call (.tick (millis 5000)), .call (.poll 0 0 10 1),
        .call (.write 0 [1]), .call (.poll 0 0 10 1)]).inner.ghost.lost.map
        (fun loss => (loss.packet.queuedAt, loss.armedAt, loss.declaredAt)) =
      [([millis 5000], 0, millis 5000)] := by
  decide

end AsyncUdx
