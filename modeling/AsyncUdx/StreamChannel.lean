import AsyncUdx.PollIncoming
import AsyncUdx.StreamTask

/-! The two channels between a stream and its socket. A stream never closes them and never changes its id; it
tells the socket that it is gone when its driver completes, and never before. As long as the socket is there
the driver does not panic. -/

namespace AsyncUdx

open Relation UdxStreamInner

variable {ok : IncomingPacket → Prop} {now : Nat}

/-- Whether the channel from the socket is closed, and whether the one to the socket is. -/
def UdxStreamInner.closedEnds (s : UdxStreamInner) : Bool × Bool := (s.recvRx.closed, s.sendTx.closed)

/-- The id of the stream that an event reports as gone. -/
def EventOutgoing.report : EventOutgoing → Option UInt32
  | .streamDropped localId => some localId
  | _ => none

/-- The ids a stream has reported as gone so far. -/
def UdxStreamInner.reports (s : UdxStreamInner) : List UInt32 := s.sendTx.events.filterMap EventOutgoing.report

/-! ### What no function changes -/

theorem ackPacket_localId (s : UdxStreamInner) (i : UInt32) : (s.ackPacket now i).localId = s.localId := by
  unfold ackPacket
  split <;> rfl

theorem ackPacket_sendTx (s : UdxStreamInner) (i : UInt32) : (s.ackPacket now i).sendTx = s.sendTx := by
  unfold ackPacket
  split <;> rfl

theorem Move.localId_eq {s t : UdxStreamInner} (h : Move ok now s t) : t.localId = s.localId := by
  cases h with
  | micro h =>
      cases h with
      | ackNext packet hok hlt => exact ackPacket_localId _ _
      | sack packet i hok htype => exact ackPacket_localId _ _
      | _ => rfl
  | _ => rfl

theorem ackPacket_remoteId (s : UdxStreamInner) (i : UInt32) : (s.ackPacket now i).remoteId = s.remoteId := by
  unfold ackPacket
  split <;> rfl

theorem Move.remoteId_eq {s t : UdxStreamInner} (h : Move ok now s t) : t.remoteId = s.remoteId := by
  cases h with
  | micro h =>
      cases h with
      | ackNext packet hok hlt => exact ackPacket_remoteId _ _
      | sack packet i hok htype => exact ackPacket_remoteId _ _
      | _ => rfl
  | _ => rfl

theorem Micro.closedEnds_eq {s t : UdxStreamInner} (h : Micro ok now s t) : t.closedEnds = s.closedEnds := by
  have hack : ∀ (s : UdxStreamInner) (i : UInt32), (s.ackPacket now i).closedEnds = s.closedEnds := by
    intro s i
    rw [closedEnds, ackPacket_recvRx, ackPacket_sendTx, closedEnds]
  cases h with
  | ackNext packet hok hlt => exact hack _ _
  | sack packet i hok htype => exact hack _ _
  | _ => rfl

theorem Micro.reports_eq {s t : UdxStreamInner} (h : Micro ok now s t) : t.reports = s.reports := by
  cases h with
  | ackNext packet hok hlt => rw [reports, UdxStreamInner.ackNext, ackPacket_sendTx, reports]
  | sack packet i hok htype => rw [reports, ackPacket_sendTx, reports]
  | transmit rest sets hrest hsets =>
      have hnone : (sets.map EventOutgoing.transmit).filterMap EventOutgoing.report = [] := by
        rw [List.filterMap_map]
        exact List.filterMap_eq_nil_iff.mpr fun _ _ => rfl
      change (s.sendTx.events ++ sets.map EventOutgoing.transmit).filterMap EventOutgoing.report = _
      rw [List.filterMap_append, hnone, List.append_nil, reports]
  | _ => rfl

theorem Move.events_prefix {s t : UdxStreamInner} (h : Move ok now s t) : s.sendTx.events <+: t.sendTx.events := by
  cases h with
  | micro h =>
      cases h with
      | ackNext packet hok hlt =>
          rw [UdxStreamInner.ackNext, ackPacket_sendTx]
      | sack packet i hok htype => rw [ackPacket_sendTx]
      | transmit rest sets hrest hsets => exact List.prefix_append _ _
      | _ => exact List.prefix_rfl
  | complete hdone => exact List.prefix_append _ _
  | _ => exact List.prefix_rfl

namespace UdxStream

theorem step_localId (u : UdxStream) (e : Event) : (u.step e).inner.localId = u.inner.localId :=
  (u.step_advance_any e).invariant (fun s => s.localId = u.inner.localId) (fun _ _ h hs => h.localId_eq.trans hs)
    (fun _ _ => id) rfl

theorem step_remoteId (u : UdxStream) (e : Event) : (u.step e).inner.remoteId = u.inner.remoteId :=
  (u.step_advance_any e).invariant (fun s => s.remoteId = u.inner.remoteId) (fun _ _ h hs => h.remoteId_eq.trans hs)
    (fun _ _ => id) rfl

theorem step_events_prefix (u : UdxStream) (e : Event) :
    u.inner.sendTx.events <+: (u.step e).inner.sendTx.events :=
  (u.step_advance_any e).invariant (fun s => u.inner.sendTx.events <+: s.sendTx.events)
    (fun _ _ h hs => hs.trans h.events_prefix) (fun _ _ => id) List.prefix_rfl

end UdxStream

/-! ### Panics -/

theorem pollIncoming_panic {s : UdxStreamInner} {cx : Context} {message : String} :
    (s.pollIncoming cx).2 ≠ .error (.panic message) := by
  rw [pollIncoming_result]
  split <;> exact fun h => by cases h

theorem timeoutLoop_panic {keys : List UInt32} {s : UdxStreamInner} {message : String} :
    (timeoutLoop now keys s).2 ≠ .error (.panic message) := by
  induction keys generalizing s with
  | nil => exact fun h => by cases h
  | cons i rest ih =>
      rw [timeoutLoop]
      split
      · exact ih
      · split_ifs
        · exact ih
        · exact fun h => by cases h
        · exact ih

theorem pollCheckTimeouts_panic {s : UdxStreamInner} {cx : Context} {message : String} :
    (s.pollCheckTimeouts cx).2 ≠ .error (.panic message) := by
  unfold pollCheckTimeouts
  split_ifs
  · exact fun h => by cases h
  · exact fun h => by cases h
  · exact timeoutLoop_panic

/-- A poll panics only when the socket is gone. -/
theorem pollDrive_panic {s : UdxStreamInner} (hopen : s.sendTx.closed = false) {cx : Context} {message : String} :
    (s.pollDrive cx).2 ≠ .error (.panic message) := by
  intro h
  have hincoming : Chain UdxStream.anyPacket cx.now s (s.pollIncoming cx).1 :=
    incomingLoop_chain _ _ s (Or.inl rfl) fun _ _ => trivial
  unfold pollDrive at h
  split at h
  · rename_i s1 fault h1
    cases h
    exact absurd (congrArg Prod.snd h1) pollIncoming_panic
  · rename_i s1 h1
    rw [h1] at hincoming
    have hcheck : Chain UdxStream.anyPacket cx.now s1 (s1.pollCheckTimeouts cx).1 := pollCheckTimeouts_chain s1 cx
    split at h
    · rename_i s2 fault h2
      cases h
      exact absurd (congrArg Prod.snd h2) pollCheckTimeouts_panic
    · rename_i s2 h2
      rw [h2] at hcheck
      have hflush : Chain UdxStream.anyPacket cx.now s2 (s2.flushWaitingPackets cx.now) := flushLoop_chain _ s2
      have hends := chain_value closedEnds (fun _ _ h => h.closedEnds_eq) ((hincoming.trans hcheck).trans hflush)
      dsimp only at h
      split at h
      · rename_i s3 fault h3
        cases h
        have hok := transmitLoop_ok (min cx.maxGsoSegments maxSegments) (s2.flushWaitingPackets cx.now).sendQueue 0 []
          (s2.flushWaitingPackets cx.now) ((congrArg Prod.snd hends).trans hopen)
        exact absurd ((congrArg Prod.snd h3).symm.trans hok) (by simp)
      · cases h

/-! ### Calls -/

namespace UdxStream

/-- No call but the loss of the socket closes a channel. -/
theorem call_closedEnds (u : UdxStream) (c : Call)
    (hc : ∀ recvClosed sendClosed, c ≠ .socketGone recvClosed sendClosed) :
    (u.call c).inner.closedEnds = u.inner.closedEnds :=
  call_frame closedEnds u c (fun _ _ _ h => h.closedEnds_eq) (fun _ _ => rfl) (fun _ _ _ => rfl)
    (fun _ _ _ _ _ => rfl) (fun _ _ _ => ⟨fun _ _ _ => rfl, fun _ _ => rfl⟩) (fun _ _ => rfl)
    fun recvClosed sendClosed h => absurd h (hc recvClosed sendClosed)

/-- A stream reports its own id when its driver completes, and nothing else. -/
theorem call_reports (u : UdxStream) (c : Call) :
    (u.completes c ∧ (u.call c).driver = .completed ∧
      (u.call c).inner.reports = u.inner.reports ++ [u.inner.localId]) ∨
    (¬u.completes c ∧ (u.call c).inner.reports = u.inner.reports) := by
  by_cases hdone : u.completes c
  · left
    refine ⟨hdone, ?_⟩
    cases c with
    | poll waker timerLag budget maxGsoSegments =>
        rw [call, if_pos hdone.1]
        constructor
        · rw [poll_eq, pollDriver_complete _ _ hdone.2]
        · rw [poll_frame reports (fun _ _ => rfl) (fun _ _ _ => rfl), pollDriver_complete _ _ hdone.2]
          exact List.filterMap_append
    | _ => exact hdone.elim
  · right
    refine ⟨hdone, ?_⟩
    exact call_frame reports u c (fun _ _ _ h => h.reports_eq) (fun _ _ => rfl) (fun _ _ _ => rfl)
      (fun _ _ _ _ _ => rfl) (fun _ _ _ => ⟨fun _ _ _ => rfl, fun _ _ => rfl⟩) (fun h => absurd h hdone)
      fun _ _ _ _ _ _ => rfl

/-- A driver that has stopped stays as it is. -/
theorem call_stopped {u : UdxStream} (hstopped : u.driver ≠ .running) (c : Call) : (u.call c).driver = u.driver := by
  cases c with
  | poll waker timerLag budget maxGsoSegments => rw [call, if_neg hstopped]
  | _ =>
      rw [call_driver]
      intros
      exact Call.noConfusion

/-- As long as the socket is there, a driver that stops has completed. -/
theorem call_running {u : UdxStream} (hrunning : u.driver = .running) (hopen : u.inner.sendTx.closed = false)
    (c : Call) : (u.call c).driver = .running ∨ u.completes c := by
  cases c with
  | poll waker timerLag budget maxGsoSegments =>
      cases hdone : u.inner.closedAndDrained with
      | true => exact Or.inr ⟨hrunning, hdone⟩
      | false =>
          left
          rw [call_poll hrunning, poll_eq]
          rcases pollDriver_cases u.inner ⟨waker, u.clock, timerLag, budget, maxGsoSegments⟩ hdone with
            ⟨flag, waker, woken, -, hpoll⟩ | ⟨err, woken, -, hpoll⟩ | ⟨message, hpanic, -⟩
          · rw [hpoll]
            exact hrunning
          · rw [hpoll]
            exact hrunning
          · have hopen' : ({ u.inner with driveWaker := none } : UdxStreamInner).sendTx.closed = false := hopen
            exact absurd hpanic (pollDrive_panic hopen')
  | _ =>
      left
      rw [call_driver]
      · exact hrunning
      · intros
        exact Call.noConfusion

end UdxStream

end AsyncUdx
