import Mathlib.Algebra.Group.Prod
import AsyncUdx.EndAnswer
import AsyncUdx.PairDelivery

/-! The statistics of a stream. They are counted where packets are created and where they are handled, and
retransmissions are not counted; so over a whole run they can be compared with what went in and out: the bytes that
writes were told were taken, the packets created, and the packets that have arrived. -/

namespace AsyncUdx

open Relation UdxStreamInner

variable {ok : IncomingPacket → Prop} {now : Nat}

/-! ### Packets that have arrived -/

def Event.arrivals : Event → List IncomingPacket
  | .recv header buf source => [⟨header, buf, 0, source⟩]
  | .call _ => []

/-- The number of packets and, of those with data, the bytes of their payloads. -/
def rxTotals (packets : List IncomingPacket) : Nat × Nat :=
  (packets.length, (packets.map fun packet => if packet.hasType udxHeaderData then packet.dataLen else 0).sum)

def StreamStats.rx (stats : StreamStats) : Nat × Nat := (stats.rxPackets, stats.rxBytes)

theorem rxTotals_append (first rest : List IncomingPacket) :
    rxTotals (first ++ rest) = rxTotals first + rxTotals rest := by
  rw [rxTotals, rxTotals, rxTotals, List.length_append, List.map_append, List.sum_append]
  rfl

theorem foldl_rxTotals (packets : List IncomingPacket) (rx : Nat × Nat) :
    packets.foldl (fun rx packet => rx + rxTotals [packet]) rx = rx + rxTotals packets := by
  induction packets generalizing rx with
  | nil => rfl
  | cons packet rest ih =>
      rw [List.foldl_cons, ih, add_assoc, ← rxTotals_append]
      rfl

theorem ackPacket_rx (s : UdxStreamInner) (i : UInt32) : (s.ackPacket now i).stats.rx = s.stats.rx := by
  unfold ackPacket
  split <;> rfl

/-- A packet is counted, its selective acks are applied, and END and DATA are handled; what acks leave alone is known
before END. -/
theorem handleIncoming_staged {β : Type} (f : UdxStreamInner → β) (hack : ∀ s i, f (ackPacket s now i) = f s)
    {s : UdxStreamInner} (hfirewall : s.onFirewall = none) (packet : IncomingPacket) :
    ∃ t : UdxStreamInner, f t = f { s with stats := { s.stats with rxPackets := s.stats.rxPackets + 1 } } ∧
      s.handleIncoming now packet = ((t.endPart packet).dataPart packet).congestionControl packet.header := by
  refine ⟨_, ?_, handleIncoming_parts hfirewall packet⟩
  exact List.foldlRecOn (motive := fun t => f t = _) packet.sacked _ rfl fun t ht i _ => (hack t i).trans ht

/-- Every packet is counted, and of those with data the payload, also if it was received before. -/
theorem handleIncoming_rx {s : UdxStreamInner} (packet : IncomingPacket) (hfirewall : s.onFirewall = none) :
    (s.handleIncoming now packet).stats.rx = s.stats.rx + rxTotals [packet] := by
  obtain ⟨t, ht, hparts⟩ := handleIncoming_staged (fun s => s.stats.rx) ackPacket_rx hfirewall packet
  have hend : (t.endPart packet).stats.rx = t.stats.rx := by
    unfold endPart
    split <;> rfl
  have hdata (r : UdxStreamInner) : (r.dataPart packet).stats.rx =
      r.stats.rx + (0, if packet.hasType udxHeaderData then packet.dataLen else 0) := by
    unfold dataPart
    split <;> rfl
  calc
    (s.handleIncoming now packet).stats.rx = ((t.endPart packet).dataPart packet).stats.rx := by
      rw [hparts]
      rfl
    _ = t.stats.rx + (0, if packet.hasType udxHeaderData then packet.dataLen else 0) := by rw [hdata, hend]
    _ = s.stats.rx + rxTotals [packet] := by
      rw [show t.stats.rx = _ from ht, rxTotals, List.map_singleton, List.sum_singleton]
      exact Prod.ext rfl rfl

theorem pollDrive_rx {s : UdxStreamInner} (cx : Context) (hfirewall : s.onFirewall = none) :
    (s.pollDrive cx).1.stats.rx = s.stats.rx + rxTotals (s.consumes cx.budget) := by
  have hincoming : (s.pollIncoming cx).1.stats.rx = s.stats.rx + rxTotals (s.consumes cx.budget) := by
    rw [pollIncoming_state, handleIncomingMaxRemoteAck_frame (fun s => s.stats.rx) ackPacket_rx (fun _ _ => rfl)
      (fun _ _ => rfl) (fun _ _ => rfl), ← foldl_rxTotals]
    exact handled_view (fun s => s.stats.rx) _ (fun _ _ => rfl) (fun s packet => handleIncoming_rx packet) hfirewall
  let Counted (t : UdxStreamInner) : Prop := t.stats.rx = s.stats.rx + rxTotals (s.consumes cx.budget)
  refine pollDrive_stages Counted s cx hincoming (fun t ht => ?_) (fun t ht => ?_) fun t ht => ?_
  · unfold pollCheckTimeouts
    split_ifs
    · exact ht
    · exact ht
    · exact (timeoutLoop_frame (fun s => s.stats.rx) (fun _ _ _ _ => rfl) _ _).trans ht
  · exact (flushLoop_frame (fun s => s.stats.rx) (fun _ _ _ _ => rfl) _ _).trans ht
  · exact (pollTransmit_frame (fun s => s.stats.rx) (fun _ _ _ => rfl) t cx).trans ht

/-- What a stream has counted of the packets that have arrived, and those it has not handled yet. -/
def UdxStreamInner.rxSide (s : UdxStreamInner) : (Nat × Nat) × List IncomingPacket := (s.stats.rx, s.recvRx.queue)

theorem rxSide_callInvariant (now : Nat) (side : (Nat × Nat) × List IncomingPacket) :
    CallInvariant now (fun s => s.rxSide = side) where
  push := fun _ _ _ _ _ _ h => h
  blocked := fun _ _ _ _ _ _ h => h
  readPart := fun _ _ _ h => h
  readWhole := fun _ _ h => h
  readWaker := fun _ _ h => h
  terminate := fun _ _ h => h
  slot := fun _ _ _ h => h
  complete := fun _ h => h
  mark := fun _ _ _ _ _ h => h
  gone := fun _ _ _ h => h

/-- Every packet that has arrived is counted or waits in the channel. -/
theorem step_rx {u : UdxStream} (hu : u.Reachable) (e : Event) :
    (u.step e).inner.stats.rx + rxTotals (u.step e).inner.recvRx.queue =
      u.inner.stats.rx + rxTotals u.inner.recvRx.queue + rxTotals e.arrivals := by
  cases e with
  | recv header buf source =>
      change u.inner.stats.rx + rxTotals (u.inner.recvRx.queue ++ [_]) = _
      rw [rxTotals_append, ← add_assoc]
      rfl
  | call c =>
      by_cases hdrives : u.drives c
      · cases c with
        | poll waker timerLag budget maxGsoSegments =>
            let cx : Context := ⟨waker, u.clock, timerLag, budget, maxGsoSegments⟩
            have hrx : (u.poll cx).inner.stats.rx = u.inner.stats.rx + rxTotals (u.inner.recvRx.queue.take budget) :=
              calc
                (u.poll cx).inner.stats.rx = (u.inner.pollDriver cx).1.stats.rx :=
                  UdxStream.poll_frame (fun s => s.stats.rx) (fun _ _ => rfl) (fun _ _ _ => rfl) _ _
                _ = ({ u.inner with driveWaker := none }.pollDrive cx).1.stats.rx :=
                  pollDriver_frame (fun s => s.stats.rx) (fun _ _ => rfl) (fun _ _ _ => rfl) _ _ hdrives.2
                _ = u.inner.stats.rx + rxTotals (u.inner.recvRx.queue.take budget) :=
                  pollDrive_rx (s := { u.inner with driveWaker := none }) cx hu.onFirewall
            have hqueue : (u.poll cx).inner.recvRx.queue = u.inner.recvRx.queue.drop budget :=
              congrArg RecvChannel.queue (UdxStream.poll_recvRx cx hdrives.2)
            rw [UdxStream.step, UdxStream.call_poll hdrives.1]
            change (u.poll cx).inner.stats.rx + rxTotals (u.poll cx).inner.recvRx.queue = _
            rw [hrx, hqueue, add_assoc, ← rxTotals_append, List.take_append_drop]
            rfl
        | _ => exact hdrives.elim
      · have hside := u.call_invariant c (rxSide_callInvariant u.clock u.inner.rxSide) hdrives rfl
        have hrx : (u.call c).inner.stats.rx = u.inner.stats.rx := congrArg Prod.fst hside
        have hqueue : (u.call c).inner.recvRx.queue = u.inner.recvRx.queue := congrArg Prod.snd hside
        rw [UdxStream.step, hrx, hqueue]
        rfl

/-! ### Packets that were created -/

/-- The number of state packets among packets on their way. -/
def statePackets (refs : List PacketRef) : Nat :=
  refs.countP fun
    | .owned _ => true
    | .shared _ => false

/-- What counts for the statistics of packets created. -/
def UdxStreamInner.txSide (s : UdxStreamInner) : SendChannel × Nat × Nat × Nat :=
  (s.sendTx, s.stats.txPackets, s.ghost.created.length, statePackets s.sendQueue)

/-- As long as the socket takes packets, each packet counted is a data packet, or a state packet that was handed over
or waits to be. -/
def TxCounted (s : UdxStreamInner) : Prop :=
  s.sendTx.closed = false → s.stats.txPackets =
    s.ghost.created.length + statePackets (transmitted s.sendTx.events) + statePackets s.sendQueue

theorem TxCounted.of_eq {s t : UdxStreamInner} (hs : TxCounted s) (h : t.txSide = s.txSide) : TxCounted t := by
  simp only [UdxStreamInner.txSide, Prod.mk.injEq] at h
  obtain ⟨hsend, hpackets, hcreated, hqueue⟩ := h
  intro hopen
  rw [hpackets, hcreated, hqueue, hsend]
  exact hs (by rwa [hsend] at hopen)

theorem statePackets_append (first rest : List PacketRef) :
    statePackets (first ++ rest) = statePackets first + statePackets rest := List.countP_append

/-- A state packet that is queued is counted. -/
theorem TxCounted.answers {s t : UdxStreamInner} (hs : TxCounted s) {packet : Packet} (hsend : t.sendTx = s.sendTx)
    (hpackets : t.stats.txPackets = s.stats.txPackets + 1) (hcreated : t.ghost.created = s.ghost.created)
    (hqueue : t.sendQueue = s.sendQueue ++ [.owned packet]) : TxCounted t := by
  intro hopen
  rw [hsend] at hopen
  rw [hpackets, hcreated, hsend, hqueue, statePackets_append, hs hopen]
  rfl

theorem terminate_txCounted {s : UdxStreamInner} (error : UdxError) (hs : TxCounted s) :
    TxCounted (s.terminate error) := hs.answers rfl rfl rfl rfl

theorem handleIncomingData_txCounted {s : UdxStreamInner} (packet : IncomingPacket) (hs : TxCounted s) :
    TxCounted (s.handleIncomingData packet) := hs.answers rfl rfl rfl rfl

theorem ackPacket_txSide (s : UdxStreamInner) (i : UInt32) : (s.ackPacket now i).txSide = s.txSide := by
  unfold ackPacket
  split <;> rfl

theorem ackPacket_txBytes (s : UdxStreamInner) (i : UInt32) : (s.ackPacket now i).stats.txBytes = s.stats.txBytes := by
  unfold ackPacket
  split <;> rfl

theorem handleIncoming_txCounted {s : UdxStreamInner} (packet : IncomingPacket) (hfirewall : s.onFirewall = none)
    (hs : TxCounted s) : TxCounted (s.handleIncoming now packet) := by
  obtain ⟨t, ht, hparts⟩ := handleIncoming_staged txSide ackPacket_txSide hfirewall packet
  have hacked : TxCounted t := hs.of_eq ht
  have hend : TxCounted (t.endPart packet) := by
    unfold endPart
    split
    · exact terminate_txCounted _ hacked
    · exact hacked
  have hdata : TxCounted ((t.endPart packet).dataPart packet) := by
    unfold dataPart
    split
    · exact handleIncomingData_txCounted packet hend
    · exact hend
  rw [hparts]
  exact hdata

theorem pollTransmit_txCounted {s : UdxStreamInner} (cx : Context) (hs : TxCounted s) :
    TxCounted (s.pollTransmit cx).1 := by
  intro hopen
  obtain ⟨rest, sets, heq, -⟩ := transmitLoop_spec (min cx.maxGsoSegments maxSegments) s.sendQueue 0 [] s
  have hopen' : s.sendTx.closed = false := by
    rw [pollTransmit, heq] at hopen
    exact hopen
  have hcounted : s.stats.txPackets = s.ghost.created.length +
      (statePackets (transmitted s.sendTx.events) + statePackets s.sendQueue) := (hs hopen').trans (Nat.add_assoc ..)
  have hpackets : (s.pollTransmit cx).1.stats.txPackets = s.stats.txPackets :=
    pollTransmit_frame (fun s => s.stats.txPackets) (fun _ _ _ => rfl) s cx
  have hcreated : (s.pollTransmit cx).1.ghost.created = s.ghost.created :=
    pollTransmit_frame (fun s => s.ghost.created) (fun _ _ _ => rfl) s cx
  have hsent : transmitted (s.pollTransmit cx).1.sendTx.events = transmitted s.sendTx.events ++ ([] ++ s.sendQueue) :=
    transmitLoop_transmitted _ _ _ _ _ hopen'
  have hqueue : (s.pollTransmit cx).1.sendQueue = [] :=
    transmitLoop_sendQueue _ _ _ _ _ rfl (transmitLoop_ok _ _ _ _ _ hopen')
  rw [hpackets, hcreated, hsent, hqueue, hcounted, List.nil_append, statePackets_append]
  rfl

theorem pollDrive_txCounted {s : UdxStreamInner} (cx : Context) (hfirewall : s.onFirewall = none) (hs : TxCounted s) :
    TxCounted (s.pollDrive cx).1 := by
  have hincoming : TxCounted (s.pollIncoming cx).1 := by
    have hhandled : TxCounted (s.handled cx) := by
      let Inv (t : UdxStreamInner) : Prop := t.onFirewall = none ∧ TxCounted t
      have hpacket (t : UdxStreamInner) (packet : IncomingPacket) (ht : Inv t) : Inv (t.handleIncoming cx.now packet) :=
        ⟨(handleIncoming_onFirewall t packet).trans ht.1, handleIncoming_txCounted packet ht.1 ht.2⟩
      exact (handled_invariant Inv ⟨hfirewall, hs⟩ hpacket).2
    rw [pollIncoming_state]
    exact hhandled.of_eq (handleIncomingMaxRemoteAck_frame txSide ackPacket_txSide (fun _ _ => rfl) (fun _ _ => rfl)
      (fun _ _ => rfl) _ _)
  refine pollDrive_stages TxCounted s cx hincoming (fun t ht => ?_) (fun t ht => ?_) fun t ht =>
    pollTransmit_txCounted cx ht
  · refine ht.of_eq ?_
    unfold pollCheckTimeouts
    split_ifs
    · rfl
    · rfl
    · exact timeoutLoop_frame txSide (fun _ _ _ _ => rfl) _ _
  · refine ht.of_eq (flushLoop_frame txSide (fun s _ i packet => ?_) _ _)
    change (_, _, _, statePackets (s.sendQueue ++ [.shared _])) = (_, _, _, statePackets s.sendQueue)
    rw [statePackets_append]
    rfl

theorem txCounted_callInvariant (now : Nat) : CallInvariant now TxCounted where
  push := fun s body _ _ _ _ hs hopen => by
    change s.stats.txPackets + 1 = (s.ghost.created ++ [_]).length + statePackets (transmitted s.sendTx.events) +
      statePackets (s.sendQueue ++ [.shared _])
    rw [statePackets_append, List.length_append, hs hopen]
    change _ = s.ghost.created.length + 1 + _ + (statePackets s.sendQueue + 0)
    omega
  blocked := fun _ _ _ _ _ _ hs => hs
  readPart := fun _ _ _ hs => hs
  readWhole := fun _ _ hs => hs
  readWaker := fun _ _ hs => hs
  terminate := fun _ error hs => terminate_txCounted error hs
  slot := fun _ _ _ hs => hs
  complete := fun s hs hopen => by
    rw [complete_transmitted]
    exact hs hopen
  mark := fun _ _ _ _ _ hs => hs
  gone := fun s _ _ hs hopen => hs (Bool.or_eq_false_iff.mp hopen).1

theorem step_txCounted {u : UdxStream} (e : Event) (hfirewall : u.inner.onFirewall = none) (hu : TxCounted u.inner) :
    TxCounted (u.step e).inner :=
  u.step_invariant e (txCounted_callInvariant u.clock) (fun _ _ _ hs => hs) (fun _ _ hs => hs)
    (fun cx => pollDrive_txCounted (s := { u.inner with driveWaker := none }) cx hfirewall hu) hu

/-- The bytes counted are the payloads of the packets created: a packet is counted when it is created, not when it is
sent. -/
theorem txBytes_invariant : MoveInvariant UdxStream.anyPacket (fun s => s.stats.txBytes = (createdBytes s).length)
    (fun _ => True) where
  connect := fun _ _ _ _ => rfl
  back := fun _ _ _ _ _ => trivial
  move := fun now s t h hs _ => by
    cases h with
    | micro h =>
        have htx : t.stats.txBytes = s.stats.txBytes := by
          cases h with
          | ackNext packet hok hlt => exact ackPacket_txBytes { s with remoteAcked := s.remoteAcked + 1 } _
          | sack packet i hok htype => exact ackPacket_txBytes _ _
          | _ => rfl
        rw [htx, h.createdBytes_eq, hs]
    | send body herror hbody hlen hroom =>
        have hlength : (s.createPacket udxHeaderData body).dataLen = body.length := by
          rw [Packet.dataLen, show (s.createPacket udxHeaderData body).buf.len = _ from Packet.new_len _ _ _,
            Nat.add_sub_cancel_left]
        change s.stats.txBytes + (s.createPacket udxHeaderData body).dataLen = _
        rw [pushData_createdBytes, List.length_append, hs, hlength]
    | _ => exact hs
  channel := fun _ _ => id
  channel_back := fun _ _ _ => trivial

/-! ### Whole runs -/

theorem run_rx (start : Nat) (dest : SocketAddr) (remoteId localId : UInt32) (events : List Event) :
    let u := (UdxStream.connect start dest remoteId localId).run events
    u.inner.stats.rx + rxTotals u.inner.recvRx.queue = rxTotals (events.flatMap Event.arrivals) := by
  induction events using List.reverseRecOn with
  | nil => rfl
  | append_singleton events e ih =>
      have hstep := step_rx (u := (UdxStream.connect start dest remoteId localId).run events)
        ⟨start, dest, remoteId, localId, events, rfl⟩ e
      rw [show (UdxStream.connect start dest remoteId localId).run (events ++ [e]) = _ from List.foldl_append ..,
        List.flatMap_append, rxTotals_append, List.flatMap_singleton, ← ih]
      exact hstep

/-- **The statistics are exact.** In every run the packets that have arrived, and the payloads of those with data, are
those counted and those that still wait in the channel, received before or not; the bytes counted as sent are those that
writes were told were taken, however often they were transmitted; and as long as the socket takes packets, the packets
counted as sent are the data packets, each counted once, and the state packets that were handed over or wait to be. -/
theorem stats_exact (start : Nat) (dest : SocketAddr) (remoteId localId : UInt32) (events : List Event) :
    let u := (UdxStream.connect start dest remoteId localId).run events
    u.inner.stats.rx + rxTotals u.inner.recvRx.queue = rxTotals (events.flatMap Event.arrivals) ∧
    u.inner.stats.txBytes = u.accepted.length ∧
    (u.inner.sendTx.closed = false →
      u.inner.stats.txPackets = u.inner.ghost.created.length + statePackets (u.sent ++ u.inner.sendQueue)) := by
  intro u
  have hu : u.Reachable := ⟨start, dest, remoteId, localId, events, rfl⟩
  have haccepted : u.accepted = createdBytes u.inner :=
    Runs.run_invariant (fun u : UdxStream => u.accepted = createdBytes u.inner) (fun _ e h => step_accepted e h) rfl
      events
  have hcounted : TxCounted u.inner := by
    let Inv (u : UdxStream) : Prop := u.inner.onFirewall = none ∧ TxCounted u.inner
    exact (Runs.run_invariant Inv (fun u e h => ⟨u.step_onFirewall e h.1, step_txCounted e h.1 h.2⟩)
      ⟨rfl, fun _ => rfl⟩ events).2
  refine ⟨run_rx start dest remoteId localId events, ?_, fun hopen => ?_⟩
  · rw [haccepted]
    exact txBytes_invariant.of_reachable hu
  · rw [statePackets_append, ← Nat.add_assoc]
    exact hcounted hopen

/-- A write, and a packet of three bytes that arrives twice. -/
def countedRun : List Event :=
  let packet : Event := .recv ⟨udxHeaderData, 0, 1, 0xffffffff, 0, 0⟩ [1, 2, 3] ⟨.v4 0, 2⟩
  [.call (.write 0 [4, 5]), packet, .call (.poll 0 0 10 1), packet, .call (.poll 0 0 10 1), packet]

theorem stats_exact_counted :
    let u := (UdxStream.connect 0 ⟨.v4 0, 2⟩ 2 1).run countedRun
    u.inner.stats.rx = (2, 6) ∧ u.inner.stats.txBytes = 2 ∧ u.inner.stats.txPackets = 3 ∧
    u.inner.stats.txPackets = u.inner.ghost.created.length + statePackets (u.sent ++ u.inner.sendQueue) :=
  ⟨by decide, by decide, by decide, (stats_exact 0 ⟨.v4 0, 2⟩ 2 1 countedRun).2.2 (by decide)⟩

end AsyncUdx
