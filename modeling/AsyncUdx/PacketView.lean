import AsyncUdx.BaseView
import AsyncUdx.PacketLoad

/-! What a stream reads of the packets that arrive. A header says who the packet is for and how much the sender could
take, and the socket adds where it came from; but nothing of that is looked at once the packet has reached a stream. A
packet is its type bits for data, end and selective acks, its two numbers and its payload, and streams that are given
packets which agree in these cannot be told apart, in whatever order they are called. -/

namespace AsyncUdx

open UdxStreamInner

variable {now : Nat}

/-! ### Views -/

/-- The part of a packet that a stream reads. -/
def IncomingPacket.view (packet : IncomingPacket) : IncomingPacket where
  header :=
    { typ := packet.header.typ &&& (udxHeaderData ||| udxHeaderEnd ||| udxHeaderSack)
      dataOffset := 0
      streamId := 0
      recvWin := 0
      seq := packet.seq
      ack := packet.ack }
  buf := packet.buf
  readOffset := packet.readOffset
  source := ⟨.v4 0, 0⟩

def Event.view : Event → Event
  | .recv header buf source =>
      let packet := (IncomingPacket.mk header buf 0 source).view
      .recv packet.header packet.buf packet.source
  | .call c => .call c

/-- A stream with the packets it keeps replaced by their views. -/
def UdxStreamInner.view (s : UdxStreamInner) : UdxStreamInner :=
  { s with
    recvRx := { s.recvRx with queue := s.recvRx.queue.map IncomingPacket.view }
    incoming := s.incoming.mapValues IncomingPacket.view }

def UdxStream.view (u : UdxStream) : UdxStream := { u with inner := u.inner.view }

theorem IncomingPacket.view_hasType (packet : IncomingPacket) {typ : UInt32}
    (htyp : (udxHeaderData ||| udxHeaderEnd ||| udxHeaderSack) &&& typ = typ) :
    packet.view.hasType typ = packet.hasType typ := by
  rw [hasType, hasType, view, UInt32.and_assoc, htyp]

/-! ### Acknowledgements -/

theorem ackPacket_view (s : UdxStreamInner) (i : UInt32) : s.view.ackPacket now i = (s.ackPacket now i).view := by
  rw [ackPacket, ackPacket, show s.view.outgoing = s.outgoing from rfl]
  cases s.outgoing.lookup i <;> rfl

theorem ackLoop_view (n : Nat) (s : UdxStreamInner) : ackLoop now n s.view = (ackLoop now n s).view := by
  induction n generalizing s with
  | zero => rfl
  | succ n ih =>
      rw [ackLoop, ackLoop, ← ih]
      exact congrArg (ackLoop now n) (ackPacket_view { s with remoteAcked := s.remoteAcked + 1 } _)

theorem handleIncomingMaxRemoteAck_view (s : UdxStreamInner) (ack : UInt32) :
    s.view.handleIncomingMaxRemoteAck now ack = (s.handleIncomingMaxRemoteAck now ack).view := by
  unfold handleIncomingMaxRemoteAck
  by_cases hack : ack ≤ s.remoteAcked
  · rw [if_pos hack]
    exact if_pos hack
  · rw [if_neg hack]
    refine (if_neg hack).trans ?_
    dsimp only
    rw [show s.view.remoteAcked = s.remoteAcked from rfl, ackLoop_view]
    rfl

/-! ### Incoming packets -/

theorem advanceAck_view (incoming : SeqMap IncomingPacket) (fuel : Nat) (ack : UInt32) :
    advanceAck (incoming.mapValues IncomingPacket.view) fuel ack = advanceAck incoming fuel ack := by
  induction fuel generalizing ack with
  | zero => rfl
  | succ fuel ih =>
      rw [advanceAck, advanceAck, ih]
      exact if_congr (AList.mem_mapValues _) rfl rfl

/-- The state after a data packet, from the map that results and the number up to which everything has arrived. -/
def UdxStreamInner.receive (s : UdxStreamInner) (packet : IncomingPacket) (incoming : SeqMap IncomingPacket)
    (ack : UInt32) : UdxStreamInner :=
  ({ s with
    stats := { s.stats with rxBytes := s.stats.rxBytes + packet.dataLen }
    ghost := { s.ghost with
      received := s.ghost.received ++ [packet.seq]
      kept := if s.ack ≤ packet.seq then s.ghost.kept.insert packet.seq packet.buf else s.ghost.kept }
    incoming := incoming
    ack := ack }.wakeReader (packet.seq ≤ ack)).sendStatePacket

theorem handleIncomingData_view (s : UdxStreamInner) (packet : IncomingPacket) :
    s.view.handleIncomingData packet.view = (s.handleIncomingData packet).view := by
  let kept := if s.ack ≤ packet.seq then s.incoming.insert packet.seq packet else s.incoming
  let seen := if s.ack ≤ packet.seq then (s.incoming.mapValues IncomingPacket.view).insert packet.seq packet.view
    else s.incoming.mapValues IncomingPacket.view
  have hseen : seen = kept.mapValues IncomingPacket.view := by
    unfold seen kept
    split
    · exact (AList.mapValues_insert _ _ _ _).symm
    · rfl
  unfold handleIncomingData
  generalize 2 ^ 32 = rounds
  calc
    _ = s.view.receive packet.view seen (advanceAck seen rounds s.ack) := rfl
    _ = s.view.receive packet.view (kept.mapValues IncomingPacket.view) (advanceAck kept rounds s.ack) := by
      rw [hseen, advanceAck_view]
    _ = _ := rfl

theorem handleIncoming_view {s : UdxStreamInner} (packet : IncomingPacket) (hfirewall : s.onFirewall = none) :
    s.view.handleIncoming now packet.view = (s.handleIncoming now packet).view := by
  have hsack : packet.view.sacked = packet.sacked := by
    rw [IncomingPacket.sacked, packet.view_hasType (by decide)]
    rfl
  have hend (t : UdxStreamInner) : t.view.endPart packet.view = (t.endPart packet).view := by
    rw [endPart, endPart, packet.view_hasType (by decide)]
    split <;> rfl
  have hdata (t : UdxStreamInner) : t.view.dataPart packet.view = (t.dataPart packet).view := by
    rw [dataPart, dataPart, packet.view_hasType (by decide)]
    split
    · exact handleIncomingData_view t packet
    · rfl
  let t : UdxStreamInner := { s with stats := { s.stats with rxPackets := s.stats.rxPackets + 1 } }
  have hacked : packet.sacked.foldl (fun s i => s.ackPacket now i) t.view =
      (packet.sacked.foldl (fun s i => s.ackPacket now i) t).view :=
    List.foldl_hom view fun s i => ackPacket_view s i
  rw [handleIncoming_parts hfirewall, handleIncoming_parts (s := s.view) hfirewall, hsack]
  change (((packet.sacked.foldl (fun s i => s.ackPacket now i) t.view).endPart packet.view).dataPart
    packet.view).congestionControl packet.view.header = _
  rw [hacked, hend, hdata]
  rfl

theorem incomingLoop_view (budget : Nat) (remoteAck : UInt32) {s : UdxStreamInner} (hfirewall : s.onFirewall = none) :
    incomingLoop now budget remoteAck s.view = (incomingLoop now budget remoteAck s).map view id := by
  induction budget generalizing remoteAck s with
  | zero => exact congrArg (·, Except.ok ()) (handleIncomingMaxRemoteAck_view s remoteAck)
  | succ budget ih =>
      rw [incomingLoop, incomingLoop, show s.view.recvRx.queue = s.recvRx.queue.map IncomingPacket.view from rfl]
      cases hqueue : s.recvRx.queue with
      | nil =>
          change (if s.recvRx.closed then _ else _) = Prod.map view id (if s.recvRx.closed then _ else _)
          split
          · rfl
          · exact congrArg (·, Except.ok ()) (handleIncomingMaxRemoteAck_view s remoteAck)
      | cons packet rest =>
          let t : UdxStreamInner := { s with recvRx := { s.recvRx with queue := rest } }
          have hnext : t.view.handleIncoming now packet.view = (t.handleIncoming now packet).view :=
            handleIncoming_view packet hfirewall
          have hnone : (t.handleIncoming now packet).onFirewall = none :=
            (handleIncoming_onFirewall t packet).trans hfirewall
          change incomingLoop now budget _ (t.view.handleIncoming now packet.view) = _
          rw [hnext, ih _ hnone]
          rfl

/-! ### Timeouts, retransmission and transmission -/

theorem timeoutLoop_view (keys : List UInt32) (s : UdxStreamInner) :
    timeoutLoop now keys s.view = (timeoutLoop now keys s).map view id := by
  induction keys generalizing s with
  | nil => rfl
  | cons i rest ih =>
      rw [timeoutLoop, timeoutLoop, show s.view.outgoing = s.outgoing from rfl]
      cases s.outgoing.lookup i with
      | none => exact ih s
      | some packet =>
          dsimp only
          split_ifs
          · exact ih s
          · rfl
          · exact ih (s.park now i packet)

theorem pollCheckTimeouts_view (s : UdxStreamInner) (cx : Context) :
    s.view.pollCheckTimeouts cx = (s.pollCheckTimeouts cx).map view id := by
  unfold pollCheckTimeouts
  change (if cx.now < s.rtoTimeout + cx.timerLag then _ else if s.remoteAcked = s.seq then _ else _) = _
  split_ifs
  · rfl
  · rfl
  · exact timeoutLoop_view _ (s.backOff cx.now)

theorem flushLoop_view (keys : List UInt32) (s : UdxStreamInner) :
    flushLoop now keys s.view = (flushLoop now keys s).view := by
  induction keys generalizing s with
  | nil => rfl
  | cons i rest ih =>
      rw [flushLoop, flushLoop, show s.view.outgoing = s.outgoing from rfl]
      cases s.outgoing.lookup i with
      | none => exact ih s
      | some packet =>
          change (if !packet.waiting then _ else if s.inflight + packet.len > s.cwnd then _ else _) = _
          dsimp only
          split_ifs
          · exact ih s
          · rfl
          · exact ih (s.requeue now i packet)

theorem transmitLoop_view (limit : Nat) (pending : List PacketRef) (segmentSize : Nat) (queue : List PacketRef)
    (s : UdxStreamInner) :
    transmitLoop limit pending segmentSize queue s.view =
      (transmitLoop limit pending segmentSize queue s).map view id := by
  induction pending generalizing segmentSize queue s with
  | nil =>
      rw [transmitLoop, transmitLoop]
      change (if queue.isEmpty || s.sendTx.closed then _ else _) = _
      split <;> rfl
  | cons packet rest ih =>
      rw [transmitLoop, transmitLoop]
      change (if packet.deref.buf.len ≠ segmentSize ∨ queue.length = limit then
        if queue.isEmpty then _ else if s.sendTx.closed then _ else _ else _) = Prod.map view id
          (if packet.deref.buf.len ≠ segmentSize ∨ queue.length = limit then
            if queue.isEmpty then _ else if s.sendTx.closed then _ else _ else _)
      split_ifs
      · exact ih _ _ { s with sendQueue := rest }
      · rfl
      · exact ih _ _ ({ s with sendQueue := rest }.sendEvent _)
      · exact ih _ _ { s with sendQueue := rest }

/-! ### The driver -/

theorem pollDrive_view {s : UdxStreamInner} (cx : Context) (hfirewall : s.onFirewall = none) :
    s.view.pollDrive cx = (s.pollDrive cx).map view id := by
  have hincoming : s.view.pollIncoming cx = (s.pollIncoming cx).map view id := incomingLoop_view cx.budget 0 hfirewall
  rw [pollDrive, pollDrive, hincoming]
  rcases s.pollIncoming cx with ⟨t, fault | _⟩
  · rfl
  · dsimp only [Prod.map, id]
    rw [pollCheckTimeouts_view]
    rcases t.pollCheckTimeouts cx with ⟨t, fault | _⟩
    · rfl
    · have htransmit : (t.view.flushWaitingPackets cx.now).pollTransmit cx =
          ((t.flushWaitingPackets cx.now).pollTransmit cx).map view id :=
        (congrArg (pollTransmit · cx) (flushLoop_view _ t)).trans (transmitLoop_view _ _ _ _ _)
      dsimp only [Prod.map, id]
      rw [htransmit]
      rcases (t.flushWaitingPackets cx.now).pollTransmit cx with ⟨t, fault | _⟩ <;> rfl

theorem pollDriver_view {s : UdxStreamInner} (cx : Context) (hfirewall : s.onFirewall = none) :
    s.view.pollDriver cx = (s.pollDriver cx).map view id := by
  let t : UdxStreamInner := { s with driveWaker := none }
  have hdrive : t.view.pollDrive cx = (t.pollDrive cx).map view id := pollDrive_view cx hfirewall
  by_cases hdrained : t.closedAndDrained = true
  · have hdone : s.pollDriver cx = (t.complete, .ready) := if_pos hdrained
    have hviewDone : s.view.pollDriver cx = (t.view.complete, .ready) := if_pos hdrained
    rw [hdone, hviewDone]
    rfl
  · rw [pollDriver, pollDriver, if_neg hdrained, if_neg (by exact hdrained)]
    rw [show UdxStreamInner.pollDrive { s.view with driveWaker := none } cx = _ from hdrive]
    rcases t.pollDrive cx with ⟨t, (err | message) | shouldContinue⟩
    · rfl
    · rfl
    · cases shouldContinue <;> rfl

/-! ### Reading and writing -/

theorem readPart_view (s : UdxStreamInner) (packet : IncomingPacket) (remaining : Nat) :
    s.view.readPart packet.view remaining = (s.readPart packet remaining).view := by
  have hincoming : (s.view.incoming.erase s.readCursor).insert packet.seq
      { packet with readOffset := packet.readOffset + remaining }.view =
      ((s.incoming.erase s.readCursor).insert packet.seq
        { packet with readOffset := packet.readOffset + remaining }).mapValues IncomingPacket.view := by
    rw [AList.mapValues_insert, AList.mapValues_erase]
    rfl
  exact congrArg (fun incoming => ({ (s.readPart packet remaining).view with incoming := incoming } : UdxStreamInner))
    hincoming

theorem readWhole_view (s : UdxStreamInner) (packet : IncomingPacket) :
    s.view.readWhole packet.view = (s.readWhole packet).view :=
  congrArg (fun incoming => ({ (s.readWhole packet).view with incoming := incoming } : UdxStreamInner))
    (AList.mapValues_erase _ _ _).symm

theorem readLoop_view (fuel remaining : Nat) (s : UdxStreamInner) :
    readLoop fuel remaining s.view = (readLoop fuel remaining s).map view id := by
  induction fuel generalizing remaining s with
  | zero => rfl
  | succ fuel ih =>
      have hlookup : s.view.incoming.lookup s.readCursor = (s.incoming.lookup s.readCursor).map IncomingPacket.view :=
        AList.mapValues_lookup _ _ _
      rw [readLoop, readLoop, show s.view.readCursor = s.readCursor from rfl, hlookup]
      cases s.incoming.lookup s.readCursor with
      | none => rfl
      | some packet =>
          change (if usizeSub packet.buf.length packet.readOffset > remaining then
            (s.view.readPart packet.view remaining, _)
            else ((readLoop fuel _ (s.view.readWhole packet.view)).1, _ ++ (readLoop fuel _ _).2.1, true)) =
            Prod.map view id (if usizeSub packet.buf.length packet.readOffset > remaining then _ else _)
          rw [readPart_view, readWhole_view, ih]
          split <;> rfl

theorem pollRead_view (s : UdxStreamInner) (waker : Waker) (remaining : Nat) :
    s.view.pollRead waker remaining = (s.pollRead waker remaining).map view id := by
  have hnext : s.view.readNext remaining = (s.readNext remaining).map view id := by
    rw [readNext, readNext, ← readLoop_view]
    exact congrArg (fun fuel => readLoop fuel remaining s.view) (AList.mapValues_size _ _)
  rw [pollRead, pollRead, hnext]
  rcases s.readNext remaining with ⟨t, bytes, _ | _⟩
  · dsimp only [Prod.map, id]
    rw [show t.view.error = t.error from rfl]
    split <;> rfl
  · rfl

theorem writeLoop_view (waker : Waker) (buf : List UInt8) (fuel written : Nat) (s : UdxStreamInner) :
    writeLoop now waker buf fuel written s.view = (writeLoop now waker buf fuel written s).map view id := by
  induction fuel generalizing written s with
  | zero => rfl
  | succ fuel ih =>
      have hsent (buf : List UInt8) : s.view.sendDataPacket now buf = (s.sendDataPacket now buf).map view id := by
        unfold sendDataPacket
        change (if s.inflight + min buf.length udxMaxDataSize > s.cwnd then _ else _) = Prod.map view id
          (if s.inflight + min buf.length udxMaxDataSize > s.cwnd then _ else _)
        split <;> rfl
      rw [writeLoop, writeLoop, hsent]
      dsimp only [Prod.map, id]
      split_ifs
      · rfl
      · rfl
      · rfl
      · exact ih _ _

theorem pollWrite_view (s : UdxStreamInner) (waker : Waker) (buf : List UInt8) :
    s.view.pollWrite now waker buf = (s.pollWrite now waker buf).map view id := by
  rw [pollWrite, pollWrite, show s.view.error = s.error from rfl]
  cases s.error with
  | some error => rfl
  | none =>
      dsimp only
      split
      · rfl
      · exact writeLoop_view waker buf _ _ s

/-! ### Steps and runs -/

/-- Views of both branches are views of the choice. -/
theorem UdxStream.ite_view (c : Prop) [Decidable c] {u v u' v' : UdxStream} (hu : u' = u.view) (hv : v' = v.view) :
    (if c then u' else v') = (if c then u else v).view := by
  split
  · exact hu
  · exact hv

theorem UdxStream.release_view (u : UdxStream) : u.view.release = u.release.view :=
  ite_view (u.strongCount = 0) rfl rfl

theorem UdxStream.onDrop_view (u : UdxStream) : u.view.onDrop = u.onDrop.view :=
  ite_view (u.strongCount ≤ 2) rfl rfl

theorem UdxStream.dropDriver_view (u : UdxStream) (driver : Driver) :
    u.view.dropDriver driver = (u.dropDriver driver).view := by
  rw [dropDriver, onDrop_view]
  exact release_view { u.onDrop with driver := driver }

theorem UdxStream.poll_view {u : UdxStream} (cx : Context) (hfirewall : u.inner.onFirewall = none) :
    u.view.poll cx = (u.poll cx).view := by
  have hdriver : u.view.inner.pollDriver cx = (u.inner.pollDriver cx).map UdxStreamInner.view id :=
    pollDriver_view cx hfirewall
  rw [poll, poll, hdriver]
  rcases u.inner.pollDriver cx with ⟨inner, _ | _ | _⟩
  · exact dropDriver_view { u with inner := inner } .completed
  · rfl
  · exact dropDriver_view { u with inner := inner } .panicked

theorem markSent_view (s : UdxStreamInner) (sent : Nat) (seq : UInt32) :
    UdxStream.markSent s.view sent seq = (UdxStream.markSent s sent seq).view := by
  rw [UdxStream.markSent, UdxStream.markSent, show s.view.outgoing = s.outgoing from rfl]
  cases s.outgoing.lookup seq <;> rfl

theorem UdxStream.call_view {u : UdxStream} (c : Call) (hfirewall : u.inner.onFirewall = none) :
    u.view.call c = (u.call c).view := by
  cases c with
  | write waker buf =>
      have hwrite : u.view.inner.pollWrite u.clock waker buf =
          (u.inner.pollWrite u.clock waker buf).map UdxStreamInner.view id := pollWrite_view _ _ _
      refine ite_view (u.handles = 0) rfl ?_
      rw [show u.view.clock = u.clock from rfl, hwrite]
      rfl
  | read waker remaining =>
      have hread : u.view.inner.pollRead waker remaining =
          (u.inner.pollRead waker remaining).map UdxStreamInner.view id := pollRead_view _ _ _
      refine ite_view (u.handles = 0) rfl ?_
      rw [hread]
      rfl
  | close => exact ite_view (u.handles = 0) rfl rfl
  | clone => exact ite_view (u.handles = 0) rfl rfl
  | drop =>
      refine ite_view (u.handles = 0) rfl ?_
      rw [onDrop_view]
      exact release_view { u.onDrop with handles := u.handles - 1 }
  | poll waker timerLag budget maxGsoSegments =>
      exact ite_view (u.driver = .running) (poll_view _ hfirewall) rfl
  | tick elapsed => rfl
  | markSent seq sent => exact congrArg (fun inner => { u with inner := inner }) (markSent_view u.inner sent seq)
  | socketGone recvClosed sendClosed => rfl

theorem UdxStream.step_view {u : UdxStream} (e : Event) (hfirewall : u.inner.onFirewall = none) :
    u.view.step e.view = (u.step e).view := by
  cases e with
  | call c => exact call_view c hfirewall
  | recv header buf source =>
      let packet : IncomingPacket := ⟨header, buf, 0, source⟩
      have hqueue : u.inner.recvRx.queue.map IncomingPacket.view ++ [packet.view] =
          (u.inner.recvRx.queue ++ [packet]).map IncomingPacket.view := by
        rw [List.map_append, List.map_singleton]
      exact congrArg (fun queue => { u with inner := { u.inner.view with
        recvRx := { u.inner.recvRx with queue := queue } } }) hqueue

/-- Runs whose packets look the same end in streams that look the same. -/
theorem UdxStream.run_view (start : Nat) (dest : SocketAddr) (remoteId localId : UInt32) (events : List Event) :
    ((UdxStream.connect start dest remoteId localId).run events).view =
      (UdxStream.connect start dest remoteId localId).run (events.map Event.view) := by
  apply Runs.run_view UdxStream.view (fun u : UdxStream => u.inner.onFirewall = none)
    (fun u e hfirewall => u.step_onFirewall e hfirewall)
  · exact fun u e hfirewall => (step_view e hfirewall).symm
  · rfl

/-- **What a stream does not read.** Take two runs of a stream with the same calls in the same order, in which the
packets that arrive agree in their bits for data, end and selective acks, in their sequence numbers, acks and payloads;
they may differ in their stream ids, receive windows, data offsets, other type bits, and the addresses they come from.
The streams then differ in nothing but the packets they keep: they have handed over the same packets, delivered the same
bytes, woken the same tasks and ended with the same error, and every further read or write has the same result. -/
theorem UdxStream.unread_fields_ignored (start : Nat) (dest : SocketAddr) (remoteId localId : UInt32)
    {events others : List Event} (hevents : events.map Event.view = others.map Event.view) :
    let u := (UdxStream.connect start dest remoteId localId).run events
    let v := (UdxStream.connect start dest remoteId localId).run others
    v = { u with inner := { u.inner with
      recvRx := { u.inner.recvRx with queue := v.inner.recvRx.queue }
      incoming := v.inner.incoming } } ∧
    (∀ waker remaining, (v.inner.pollRead waker remaining).2 = (u.inner.pollRead waker remaining).2) ∧
    ∀ waker buf, (v.inner.pollWrite v.clock waker buf).2 = (u.inner.pollWrite u.clock waker buf).2 := by
  intro u v
  have hview : v.view = u.view := by
    rw [run_view, run_view, hevents]
  have hinner : v.inner.view = u.inner.view := congrArg UdxStream.inner hview
  refine ⟨?_, fun waker remaining => ?_, fun waker buf => ?_⟩
  · exact congrArg (fun w : UdxStream => { w with inner := { w.inner with
      recvRx := { w.inner.recvRx with queue := v.inner.recvRx.queue }
      incoming := v.inner.incoming } }) hview
  · calc
      (v.inner.pollRead waker remaining).2 = (v.inner.view.pollRead waker remaining).2 := by rw [pollRead_view]; rfl
      _ = (u.inner.view.pollRead waker remaining).2 := by rw [hinner]
      _ = (u.inner.pollRead waker remaining).2 := by rw [pollRead_view]; rfl
  · have hclock : v.clock = u.clock := show v.view.clock = u.view.clock by rw [hview]
    calc
      (v.inner.pollWrite v.clock waker buf).2 = (v.inner.view.pollWrite v.clock waker buf).2 := by
        rw [pollWrite_view]
        rfl
      _ = (u.inner.view.pollWrite u.clock waker buf).2 := by rw [hinner, hclock]
      _ = (u.inner.pollWrite u.clock waker buf).2 := by
        rw [pollWrite_view]
        rfl

/-- A packet of the peer, and one that a stranger has made. -/
def genuineRun : List Event :=
  [.recv ⟨udxHeaderData, 0, 1, 0xffffffff, 0, 0⟩ [1, 2, 3] ⟨.v4 0, 2⟩, .call (.poll 0 0 10 1), .call (.read 0 2)]

def strangerRun : List Event :=
  [.recv ⟨24 ||| udxHeaderData, 8, 7, 0, 0, 0⟩ [1, 2, 3] ⟨.v4 9, 9⟩, .call (.poll 0 0 10 1), .call (.read 0 2)]

theorem UdxStream.unread_fields_ignored_stranger :
    let u := (UdxStream.connect 0 ⟨.v4 0, 2⟩ 2 1).run genuineRun
    let v := (UdxStream.connect 0 ⟨.v4 0, 2⟩ 2 1).run strangerRun
    v.deliveredBytes = [1, 2] ∧ v = { u with inner := { u.inner with
      recvRx := { u.inner.recvRx with queue := v.inner.recvRx.queue }
      incoming := v.inner.incoming } } :=
  ⟨by decide, (unread_fields_ignored 0 ⟨.v4 0, 2⟩ 2 1 (by decide : genuineRun.map _ = strangerRun.map _)).1⟩

end AsyncUdx
