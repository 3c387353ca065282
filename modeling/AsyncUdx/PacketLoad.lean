import AsyncUdx.Emission
import AsyncUdx.StreamShutdown

/-! What a stream has put on its way and what it may still put there without being asked: the packets handed to the
socket, those on the send queue and those that wait for room in the window. While no timer expires, only the packets
of the peer add to it, at most two answers each. -/

namespace AsyncUdx

open Relation UdxStreamInner

variable {now : Nat}

/-- The packets of a stream on their way, waiting for it or queued, by a property of the acknowledgement they carry. -/
def UdxStreamInner.load (P : UInt32 → Bool) (s : UdxStreamInner) : Nat :=
  (transmitted s.sendTx.events).countP (fun ref => P ref.deref.header.ack) +
    s.sendQueue.countP (fun ref => P ref.deref.header.ack) +
    AList.total (fun _ packet => if packet.waiting && P packet.header.ack then 1 else 0) s.outgoing

/-- A poll finds its timer pending, or nothing outstanding, when it checks for timeouts. -/
def UdxStreamInner.Unexpired (s : UdxStreamInner) (cx : Context) : Prop :=
  cx.now < (s.pollIncoming cx).1.rtoTimeout + cx.timerLag ∨
    (s.pollIncoming cx).1.remoteAcked = (s.pollIncoming cx).1.seq

variable (P : UInt32 → Bool)

/-! ### Acknowledgements and answers -/

theorem ackPacket_load_le (s : UdxStreamInner) (i : UInt32) : (s.ackPacket now i).load P ≤ s.load P := by
  unfold ackPacket
  split
  · rename_i packet hlookup
    unfold load
    rw [AList.total_of_lookup _ hlookup]
    exact Nat.add_le_add_left (Nat.le_add_left _ _) _
  · exact Nat.le_refl _

theorem handleIncomingSacks_load_le (s : UdxStreamInner) (packet : IncomingPacket) :
    (s.handleIncomingSacks now packet).load P ≤ s.load P := by
  let Below (t : UdxStreamInner) : Prop := t.load P ≤ s.load P
  have hkeep : ∀ t i, Below t → Below (ackPacket t now i) := fun t i ht => (ackPacket_load_le P t i).trans ht
  exact handleIncomingSacks_invariant hkeep packet (Nat.le_refl _)

theorem load_queued {s t : UdxStreamInner} {ref : PacketRef} (hevents : t.sendTx.events = s.sendTx.events)
    (houtgoing : t.outgoing = s.outgoing) (hqueue : t.sendQueue = s.sendQueue ++ [ref]) :
    t.load P = s.load P + if P ref.deref.header.ack then 1 else 0 := by
  unfold load
  rw [hevents, houtgoing, hqueue, List.countP_append, List.countP_singleton]
  omega

theorem terminate_load (s : UdxStreamInner) (error : UdxError) :
    (s.terminate error).load P = s.load P + if P s.ack then 1 else 0 := by
  refine (load_queued P (s := s) (t := s.terminate error) rfl rfl rfl).trans ?_
  rfl

theorem handleIncomingData_load (s : UdxStreamInner) (packet : IncomingPacket) :
    (s.handleIncomingData packet).load P = s.load P + if P (s.handleIncomingData packet).ack then 1 else 0 := by
  refine (load_queued P (s := s) (t := s.handleIncomingData packet) rfl rfl rfl).trans ?_
  rfl

theorem congestionControl_load (s : UdxStreamInner) (header : Header) :
    (s.congestionControl header).load P = s.load P := rfl

theorem congestionControl_ack (s : UdxStreamInner) (header : Header) : (s.congestionControl header).ack = s.ack := rfl

/-- A packet is answered at most twice: to its END, with the acknowledgement from before, and to its data. -/
theorem handleIncoming_load_le (s : UdxStreamInner) (packet : IncomingPacket) :
    (s.handleIncoming now packet).load P ≤
      s.load P + (if P s.ack then 1 else 0) + if P (s.handleIncoming now packet).ack then 1 else 0 := by
  unfold handleIncoming
  split
  · omega
  · let counted : UdxStreamInner := { s with stats := { s.stats with rxPackets := s.stats.rxPackets + 1 } }
    let sacked := if packet.hasType udxHeaderSack then counted.handleIncomingSacks now packet else counted
    let ended := if packet.hasType udxHeaderEnd then sacked.handleIncomingEnd else sacked
    let kept := if packet.hasType udxHeaderData then ended.handleIncomingData packet else ended
    have hsacked : sacked.load P ≤ s.load P ∧ sacked.ack = s.ack := by
      dsimp only [sacked]
      split
      · exact ⟨handleIncomingSacks_load_le P counted packet,
          handleIncomingSacks_frame UdxStreamInner.ack ackPacket_ack counted packet⟩
      · exact ⟨Nat.le_refl _, rfl⟩
    have hended : ended.load P ≤ sacked.load P + (if P s.ack then 1 else 0) := by
      dsimp only [ended]
      split
      · exact (terminate_load P _ _).le.trans_eq (by rw [← hsacked.2]; rfl)
      · exact Nat.le_add_right _ _
    have hkept : kept.load P ≤ ended.load P + if P kept.ack then 1 else 0 := by
      dsimp only [kept]
      split
      · exact (handleIncomingData_load P _ _).le
      · exact Nat.le_add_right _ _
    have hgrown : (kept.congestionControl packet.header).load P ≤ s.load P + (if P s.ack then 1 else 0) +
        if P (kept.congestionControl packet.header).ack then 1 else 0 := by
      rw [congestionControl_load, congestionControl_ack]
      omega
    exact hgrown

theorem handleIncomingMaxRemoteAck_load_le (s : UdxStreamInner) (ack : UInt32) :
    (s.handleIncomingMaxRemoteAck now ack).load P ≤ s.load P := by
  have hloop : ∀ (n : Nat) (s : UdxStreamInner), (ackLoop now n s).load P ≤ s.load P := by
    intro n
    induction n with
    | zero => exact fun s => Nat.le_refl _
    | succ n ih => exact fun s => (ih _).trans (ackPacket_load_le P _ _)
  unfold handleIncomingMaxRemoteAck
  split
  · exact Nat.le_refl _
  · exact hloop _ s

/-- Two answers are paid for by the packet that leaves the channel. -/
theorem pollIncoming_load_le (s : UdxStreamInner) (cx : Context) :
    (s.pollIncoming cx).1.load P + 2 * (s.recvRx.queue.drop cx.budget).length ≤
      s.load P + 2 * s.recvRx.queue.length := by
  have hall : ∀ (packets : List IncomingPacket) (t : UdxStreamInner),
      (t.handleAll cx.now packets).load P ≤ t.load P + 2 * packets.length := by
    intro packets
    induction packets with
    | nil => exact fun t => Nat.le_refl _
    | cons packet rest ih =>
        intro t
        have hpacket := @handleIncoming_load_le cx.now P t packet
        have hrest := ih (t.handleIncoming cx.now packet)
        change ((t.handleIncoming cx.now packet).handleAll cx.now rest).load P ≤ _
        rw [List.length_cons]
        split_ifs at hpacket <;> omega
  have hhandled : (s.handled cx).load P ≤ s.load P + 2 * (s.recvRx.queue.take cx.budget).length :=
    hall _ (s.drained cx.budget)
  have hack := @handleIncomingMaxRemoteAck_load_le cx.now P (s.handled cx) (appliedAck s cx.budget)
  have hlength := congrArg List.length (List.take_append_drop cx.budget s.recvRx.queue)
  rw [List.length_append] at hlength
  rw [pollIncoming_state]
  omega

/-! ### Packets that wait and packets on the queue -/

theorem requeue_load {s : UdxStreamInner} {i : UInt32} {packet : Packet} (hlookup : s.outgoing.lookup i = some packet)
    (hwaiting : packet.waiting = true) : (s.requeue now i packet).load P = s.load P := by
  have htotal := AList.total_replace (fun _ packet => if packet.waiting && P packet.header.ack then 1 else 0)
    { packet with waiting := false, queuedAt := now :: packet.queuedAt } hlookup
  unfold load requeue
  dsimp only at htotal ⊢
  rw [List.countP_append, List.countP_singleton]
  rw [hwaiting, Bool.true_and, Bool.false_and] at htotal
  change _ + (_ + if P packet.header.ack = true then 1 else 0) + _ = _
  simp only [Bool.false_eq_true, if_false] at htotal
  omega

/-- Packets that go from waiting to the queue are not counted twice. -/
theorem flushLoop_load (keys : List UInt32) (s : UdxStreamInner) : (flushLoop now keys s).load P = s.load P := by
  induction keys generalizing s with
  | nil => rfl
  | cons i rest ih =>
      rw [flushLoop]
      split
      · exact ih s
      · rename_i packet hlookup
        split_ifs with hnot hfull
        · exact ih s
        · rfl
        · rw [ih, requeue_load P hlookup (by simpa using hnot)]

theorem transmitLoop_transmitted (limit : Nat) (pending : List PacketRef) (segmentSize : Nat) (queue : List PacketRef)
    (s : UdxStreamInner) (hopen : s.sendTx.closed = false) :
    transmitted (transmitLoop limit pending segmentSize queue s).1.sendTx.events =
      transmitted s.sendTx.events ++ (queue ++ pending) := by
  induction pending generalizing segmentSize queue s with
  | nil =>
      rw [transmitLoop, hopen, Bool.or_false]
      split
      · rename_i hempty
        rw [List.isEmpty_iff.mp hempty, List.append_nil, List.append_nil]
      · change transmitted (s.sendTx.events ++ [_]) = _
        rw [transmitted_append, List.append_nil]
        exact congrArg _ (List.append_nil _)
  | cons packet rest ih =>
      rw [transmitLoop]
      dsimp only
      split_ifs with hflush hempty hclosed
      · refine (ih _ _ _ (by exact hopen)).trans ?_
        rw [List.isEmpty_iff.mp hempty]
        rfl
      · rw [hopen] at hclosed
        cases hclosed
      · refine (ih _ _ _ (by exact hopen)).trans ?_
        change transmitted (s.sendTx.events ++ [_]) ++ _ = _
        rw [transmitted_append, List.append_assoc]
        change _ ++ ((queue ++ []) ++ _) = _
        rw [List.append_nil]
        rfl
      · refine (ih _ _ _ (by exact hopen)).trans ?_
        rw [List.append_assoc]
        rfl

theorem transmitLoop_closed (limit : Nat) (pending : List PacketRef) (segmentSize : Nat) (queue : List PacketRef)
    (s : UdxStreamInner) (hclosed : s.sendTx.closed = true) (hpending : s.sendQueue = pending) :
    (transmitLoop limit pending segmentSize queue s).1.sendTx = s.sendTx ∧
      (transmitLoop limit pending segmentSize queue s).1.sendQueue <:+ pending := by
  induction pending generalizing segmentSize queue s with
  | nil =>
      rw [transmitLoop, hclosed, Bool.or_true, if_pos rfl]
      exact ⟨rfl, hpending ▸ List.suffix_rfl⟩
  | cons packet rest ih =>
      rw [transmitLoop]
      dsimp only
      split_ifs with hflush hempty
      · obtain ⟨htx, hrest⟩ := ih packet.deref.buf.len [packet] { s with sendQueue := rest } hclosed rfl
        exact ⟨htx, hrest.trans (List.suffix_cons _ _)⟩
      · exact ⟨rfl, List.suffix_cons _ _⟩
      · obtain ⟨htx, hrest⟩ := ih segmentSize (queue ++ [packet]) { s with sendQueue := rest } hclosed rfl
        exact ⟨htx, hrest.trans (List.suffix_cons _ _)⟩

theorem pollTransmit_load_le (s : UdxStreamInner) (cx : Context) : (s.pollTransmit cx).1.load P ≤ s.load P := by
  have hframe := pollTransmit_frame outgoing (fun _ _ _ => rfl) s cx
  unfold load
  rw [hframe]
  refine Nat.add_le_add_right ?_ _
  cases hclosed : s.sendTx.closed with
  | false =>
      have hok := transmitLoop_ok (min cx.maxGsoSegments maxSegments) s.sendQueue 0 [] s hclosed
      rw [pollTransmit, transmitLoop_transmitted _ _ _ _ _ hclosed, transmitLoop_sendQueue _ _ _ _ _ rfl hok,
        List.nil_append, List.countP_append]
      exact Nat.le_refl _
  | true =>
      obtain ⟨htx, hrest⟩ :=
        transmitLoop_closed (min cx.maxGsoSegments maxSegments) s.sendQueue 0 [] s hclosed rfl
      rw [pollTransmit, htx]
      exact Nat.add_le_add_left (hrest.sublist.countP_le) _

/-! ### Polls without timeouts -/

theorem pollCheckTimeouts_unexpired {s : UdxStreamInner} {cx : Context} (h : s.Unexpired cx) :
    (s.pollIncoming cx).1.pollCheckTimeouts cx = ((s.pollIncoming cx).1, .ok ()) := by
  unfold pollCheckTimeouts
  by_cases hpending : cx.now < (s.pollIncoming cx).1.rtoTimeout + cx.timerLag
  · rw [if_pos hpending]
  · rw [if_neg hpending, if_pos (h.resolve_left hpending)]

/-- A poll without timeouts that finds its channel open transmits what is on the queue after the incoming packets and
those that fit the window. -/
theorem pollDrive_unexpired {s : UdxStreamInner} {cx : Context} (h : s.Unexpired cx)
    (hin : (s.pollIncoming cx).2 = .ok ()) : (s.pollDrive cx).1 =
      (((s.pollIncoming cx).1.flushWaitingPackets cx.now).pollTransmit cx).1 := by
  have hin' : s.pollIncoming cx = ((s.pollIncoming cx).1, .ok ()) := Prod.ext rfl hin
  rw [pollDrive, hin']
  dsimp only
  rw [pollCheckTimeouts_unexpired h]
  dsimp only
  split <;> rename_i heq <;> rw [heq]

/-- One that finds it closed transmits nothing. -/
theorem pollDrive_failed {s : UdxStreamInner} {cx : Context} {fault : Fault}
    (hin : (s.pollIncoming cx).2 = .error fault) : s.pollDrive cx = ((s.pollIncoming cx).1, .error fault) := by
  have hin' : s.pollIncoming cx = ((s.pollIncoming cx).1, .error fault) := Prod.ext rfl hin
  rw [pollDrive, hin']

theorem pollDrive_load_le {s : UdxStreamInner} {cx : Context} (h : s.Unexpired cx) :
    (s.pollDrive cx).1.load P ≤ (s.pollIncoming cx).1.load P := by
  cases hin : (s.pollIncoming cx).2 with
  | error fault => rw [pollDrive_failed hin]
  | ok _ =>
      rw [pollDrive_unexpired h hin]
      exact (pollTransmit_load_le P _ cx).trans_eq (flushLoop_load P _ _)

theorem pollTransmit_io (s : UdxStreamInner) (cx : Context) (err : IoError) :
    (s.pollTransmit cx).2 ≠ .error (.io err) := by
  have hloop : ∀ (limit : Nat) (pending : List PacketRef) (segmentSize : Nat) (queue : List PacketRef)
      (s : UdxStreamInner), (transmitLoop limit pending segmentSize queue s).2 ≠ .error (.io err) := by
    intro limit pending
    induction pending with
    | nil =>
        intro segmentSize queue s
        rw [transmitLoop]
        split <;> exact fun h => by cases h
    | cons packet rest ih =>
        intro segmentSize queue s
        rw [transmitLoop]
        dsimp only
        split_ifs
        · exact ih _ _ _
        · exact fun h => by cases h
        · exact ih _ _ _
        · exact ih _ _ _
  exact hloop _ _ _ _ s

/-- Without timeouts a poll fails only when it finds its channel closed. -/
theorem pollDrive_io {s : UdxStreamInner} {cx : Context} (h : s.Unexpired cx) (hrecv : s.recvRx.closed = false)
    (err : IoError) : (s.pollDrive cx).2 ≠ .error (.io err) := by
  have hin : s.pollIncoming cx = ((s.pollIncoming cx).1, .ok ()) := by
    exact Prod.ext rfl (pollIncoming_open hrecv cx)
  have hsend := pollTransmit_io ((s.pollIncoming cx).1.flushWaitingPackets cx.now) cx err
  rw [pollDrive, hin]
  dsimp only
  rw [pollCheckTimeouts_unexpired h]
  dsimp only
  split <;> rename_i heq
  · rw [heq] at hsend
    exact fun h => hsend (by cases h; rfl)
  · exact fun h => by cases h

namespace UdxStream

/-- The load of a stream, with the END that may be queued when the driver goes. -/
def load (u : UdxStream) : Nat := u.inner.load P + if u.driver = .running then 1 else 0

/-- A poll of the driver that does not find its timer expired with packets outstanding. -/
def Unexpired (u : UdxStream) (cx : Context) : Prop :=
  u.driver = .running → u.inner.closedAndDrained = false →
    UdxStreamInner.Unexpired { u.inner with driveWaker := none } cx

theorem dropDriver_load_le (u : UdxStream) (driver : Driver) :
    (u.dropDriver driver).inner.load P ≤ u.inner.load P + 1 := by
  rw [dropDriver, release_frame (UdxStreamInner.load P) (fun _ _ _ => rfl)]
  change u.onDrop.inner.load P ≤ _
  unfold onDrop
  split
  · change (u.inner.terminate .closeGraceful).load P ≤ _
    rw [terminate_load]
    split <;> omega
  · exact Nat.le_succ _

theorem poll_drained_load_le {u : UdxStream} (cx : Context) (hdone : u.inner.closedAndDrained = true) :
    (u.poll cx).load P ≤ u.inner.load P + 1 := by
  have hdriver := (poll_drained cx hdone).1
  rw [load, hdriver, if_neg (by decide), Nat.add_zero, poll, pollDriver_complete _ _ hdone]
  refine (dropDriver_load_le P _ _).trans_eq ?_
  dsimp only
  unfold UdxStreamInner.load
  rw [complete_transmitted]
  rfl

theorem poll_driven_load_le {u : UdxStream} {cx : Context} (hopen : u.inner.closedAndDrained = false)
    (hrecv : u.inner.recvRx.closed = false) (h : UdxStreamInner.Unexpired { u.inner with driveWaker := none } cx) :
    (u.poll cx).load P ≤ ({ u.inner with driveWaker := none }.pollIncoming cx).1.load P + 1 := by
  have hdrive := pollDrive_load_le P h
  rw [poll]
  rcases pollDriver_cases u.inner cx hopen with ⟨flag, waker, woken, -, hpoll⟩ | ⟨err, woken, hfailed, -⟩ |
    ⟨message, -, hpoll⟩
  · rw [hpoll]
    dsimp only [load]
    refine Nat.add_le_add hdrive ?_
    split <;> omega
  · exact absurd hfailed (pollDrive_io h hrecv err)
  · rw [hpoll]
    dsimp only
    rw [load, dropDriver_eq, if_neg (by decide : Driver.panicked ≠ .running), Nat.add_zero]
    exact (dropDriver_load_le P _ _).trans (Nat.add_le_add_right hdrive 1)

theorem poll_recvRx {u : UdxStream} (cx : Context) (hopen : u.inner.closedAndDrained = false) :
    (u.poll cx).inner.recvRx = { u.inner.recvRx with queue := u.inner.recvRx.queue.drop cx.budget } := by
  rw [poll_frame recvRx (fun _ _ => rfl) (fun _ _ _ => rfl),
    pollDriver_frame recvRx (fun _ _ => rfl) (fun _ _ _ => rfl) _ _ hopen, pollDrive_recvRx]

theorem poll_drained_recvRx {u : UdxStream} (cx : Context) (hdone : u.inner.closedAndDrained = true) :
    (u.poll cx).inner.recvRx = u.inner.recvRx := by
  rw [poll_frame recvRx (fun _ _ => rfl) (fun _ _ _ => rfl), pollDriver_complete _ _ hdone]
  rfl

/-- **Answers.** A poll without timeouts adds at most two answers for each packet it takes. -/
theorem poll_answers_le {u : UdxStream} {cx : Context} (hrunning : u.driver = .running)
    (hrecv : u.inner.recvRx.closed = false) (h : u.Unexpired cx) :
    (u.poll cx).load P + 2 * (u.poll cx).inner.recvRx.queue.length ≤
      u.load P + 2 * u.inner.recvRx.queue.length := by
  have hload : u.load P = u.inner.load P + 1 := by rw [load, if_pos hrunning]
  cases hdone : u.inner.closedAndDrained with
  | true =>
      have hle := poll_drained_load_le P cx hdone
      rw [poll_drained_recvRx cx hdone]
      omega
  | false =>
      have hle := poll_driven_load_le P hdone hrecv (h hrunning hdone)
      have hin : _ + 2 * (u.inner.recvRx.queue.drop cx.budget).length ≤
        u.inner.load P + 2 * u.inner.recvRx.queue.length :=
        pollIncoming_load_le P { u.inner with driveWaker := none } cx
      rw [poll_recvRx cx hdone]
      dsimp only
      omega

/-! ### Polls that transmit nothing -/

/-- The packets a stream has handed to its socket. -/
def sent (u : UdxStream) : List PacketRef := transmitted u.inner.sendTx.events

theorem poll_sent (u : UdxStream) (cx : Context) :
    (u.poll cx).sent = transmitted (u.inner.pollDriver cx).1.sendTx.events :=
  poll_frame (fun s => transmitted s.sendTx.events) (fun _ _ => rfl) (fun _ _ _ => rfl) u cx

theorem poll_sent_driven {u : UdxStream} (cx : Context) (hopen : u.inner.closedAndDrained = false) :
    (u.poll cx).sent = transmitted ({ u.inner with driveWaker := none }.pollDrive cx).1.sendTx.events := by
  rw [poll_sent]
  exact pollDriver_frame (fun s => transmitted s.sendTx.events) (fun _ _ => rfl) (fun _ _ _ => rfl) _ _ hopen

theorem poll_sent_drained {u : UdxStream} (cx : Context) (hdone : u.inner.closedAndDrained = true) :
    (u.poll cx).sent = u.sent := by
  rw [poll_sent, pollDriver_complete _ _ hdone, complete_transmitted]
  rfl

theorem step_sent_grows (u : UdxStream) (e : Event) : u.sent <+: (u.step e).sent := by
  obtain ⟨more, hmore⟩ := u.step_events_prefix e
  refine ⟨transmitted more, ?_⟩
  rw [sent, sent, ← hmore, transmitted_append]

end UdxStream

theorem pollIncoming_sendTx (s : UdxStreamInner) (cx : Context) : (s.pollIncoming cx).1.sendTx = s.sendTx :=
  pollIncoming_frame sendTx (fun _ _ => rfl) (fun _ _ => rfl) ackPacket_sendTx (fun _ => rfl) (fun _ _ => rfl)
    (fun _ _ => rfl) (fun _ _ => rfl) (fun _ _ => rfl) (fun _ _ => rfl) s

/-- What is true of the channel to the socket is true of it after a poll, if it is after a transmission. -/
theorem pollDrive_sendTx (Inv : SendChannel → Prop) (s : UdxStreamInner) (cx : Context) (hs : Inv s.sendTx)
    (htransmit : ∀ t, Inv t.sendTx → Inv (pollTransmit t cx).1.sendTx) : Inv (s.pollDrive cx).1.sendTx := by
  refine pollDrive_stages (fun t => Inv t.sendTx) s cx (by rw [pollIncoming_sendTx]; exact hs) (fun t ht => ?_)
    (fun t ht => ?_) htransmit
  · unfold pollCheckTimeouts
    split_ifs
    · exact ht
    · exact ht
    · rw [timeoutLoop_frame sendTx fun _ _ _ _ => rfl]
      exact ht
  · rw [flushWaitingPackets, flushLoop_frame sendTx fun _ _ _ _ => rfl]
    exact ht

/-- A poll that finds its channel closed transmits nothing. -/
theorem UdxStream.poll_sent_failed {u : UdxStream} {cx : Context} (hopen : u.inner.closedAndDrained = false)
    (hclosed : u.inner.recvRx.closed = true) (hbudget : u.inner.recvRx.queue.length < cx.budget) :
    (u.poll cx).sent = u.sent := by
  have hin : ({ u.inner with driveWaker := none }.pollIncoming cx).2 =
      .error (.io ⟨.brokenPipe, "Socket driver future was dropped"⟩) := pollIncoming_orphaned hclosed hbudget
  rw [poll_sent_driven cx hopen, pollDrive_failed hin, pollIncoming_sendTx]
  rfl

/-- Without the socket nothing is transmitted. -/
theorem UdxStream.poll_sent_closed {u : UdxStream} (cx : Context) (hclosed : u.inner.sendTx.closed = true) :
    (u.poll cx).sent = u.sent := by
  cases hdone : u.inner.closedAndDrained with
  | true => exact poll_sent_drained cx hdone
  | false =>
      rw [poll_sent_driven cx hdone]
      have hkeep : ({ u.inner with driveWaker := none }.pollDrive cx).1.sendTx = u.inner.sendTx :=
        pollDrive_sendTx (· = u.inner.sendTx) _ cx rfl fun t ht =>
          (transmitLoop_closed _ _ _ _ t (by rw [ht]; exact hclosed) rfl).1.trans ht
      rw [hkeep]
      rfl

end AsyncUdx
