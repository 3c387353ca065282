import AsyncUdx.PairEchoRun
import AsyncUdx.ReadContract
import AsyncUdx.Rollover
import AsyncUdx.SendProgress
import AsyncUdx.TimerLoss
import AsyncUdx.WriteExact

/-! A run in which all three counters wrap. One side writes a byte, the packet is delivered, the other side reads the
byte and its acknowledgement is delivered, and so on: nothing is lost, and everything that is received is acknowledged.
After `2 ^ 32` rounds the counters are at zero again. The last acknowledgement is not taken for a new one, so the last
packet stays outstanding, and the next packet gets the number of the first one. -/

namespace AsyncUdx

open Relation UdxStreamInner

/-! ### Streams between two rounds -/

/-- A stream at time zero that is open, with nothing in its channel and nothing on its queue. -/
structure Resting (u : UdxStream) : Prop where
  running : u.driver = .running
  handles : u.handles ≠ 0
  clock : u.clock = 0
  error : u.inner.error = none
  recv : u.inner.recvRx = {}
  send : u.inner.sendTx.closed = false
  queue : u.inner.sendQueue = []

/-- The writing side when `n` bytes have been acknowledged. -/
structure Sender (n : Nat) (u : UdxStream) : Prop extends Resting u where
  sent_length : u.sent.length = n
  created_length : u.inner.ghost.created.length = n
  seq_eq : u.inner.seq = UInt32.ofNat n
  acked_eq : u.inner.remoteAcked = UInt32.ofNat n
  ack_eq : u.inner.ack = 0
  empty : ∀ k, u.inner.outgoing.lookup k = none

/-- The writing side when `n` bytes have been acknowledged and one more has been sent. -/
structure Sending (n : Nat) (u : UdxStream) : Prop extends Resting u where
  sent_length : u.sent.length = n + 1
  created_length : u.inner.ghost.created.length = n + 1
  seq_eq : u.inner.seq = UInt32.ofNat (n + 1)
  acked_eq : u.inner.remoteAcked = UInt32.ofNat n
  ack_eq : u.inner.ack = 0
  others : ∀ k, k ≠ UInt32.ofNat n → u.inner.outgoing.lookup k = none
  outstanding : ∃ packet, u.inner.outgoing.lookup (UInt32.ofNat n) = some packet ∧ packet.waiting = false
  inflight_eq : u.inner.inflight = udxHeaderSize + 1

/-- The reading side when it has read `n` bytes. -/
structure Receiver (n : Nat) (v : UdxStream) : Prop extends Resting v where
  sent_length : v.sent.length = n
  ack_eq : v.inner.ack = UInt32.ofNat n
  cursor_eq : v.inner.readCursor = UInt32.ofNat n
  empty : ∀ k, v.inner.incoming.lookup k = none
  idle : ∀ k, v.inner.outgoing.lookup k = none

/-- The packet with the byte of a round. -/
structure IsByte (remoteId : UInt32) (n : Nat) (packet : Packet) : Prop where
  typ : packet.header.typ = udxHeaderData
  streamId : packet.header.streamId = remoteId
  seq : packet.header.seq = UInt32.ofNat n
  ack : packet.header.ack = 0
  body : packet.body = [0]
  encoded : packet.Encoded

/-- The acknowledgement of the first `n` bytes. -/
structure IsAnswer (remoteId : UInt32) (n : Nat) (packet : Packet) : Prop where
  typ : packet.header.typ = 0
  streamId : packet.header.streamId = remoteId
  ack : packet.header.ack = UInt32.ofNat n
  body : packet.body = []
  encoded : packet.Encoded

/-! ### Polls -/

/-- The context of the polls in the run. -/
def roundCx : Context := ⟨0, 0, 0, 10, 1⟩

/-- What the rest of a poll makes of a stream that has handled its packets and has none waiting: the queue goes out. -/
def UdxStreamInner.flushed (s : UdxStreamInner) (waker : Option Waker) (woken : List Waker)
    (events : List EventOutgoing) : UdxStreamInner :=
  { s with
    sendQueue := [], sendTx := { s.sendTx with events := events }, driveWaker := waker,
    ghost := { s.ghost with woken := woken } }

theorem Resting.flushed {u : UdxStream} (h : Resting u) {s : UdxStreamInner} (herror : s.error = none)
    (hrecv : s.recvRx = {}) (hsend : s.sendTx.closed = false) (waker : Option Waker) (woken : List Waker)
    (events : List EventOutgoing) {accepted : List UInt8} :
    Resting { u with inner := s.flushed waker woken events, accepted := accepted } where
  running := h.running
  handles := h.handles
  clock := h.clock
  error := herror
  recv := hrecv
  send := hsend
  queue := rfl

theorem poll_round {u : UdxStream} (hu : u.Reachable) (hrunning : u.driver = .running) (hclock : u.clock = 0)
    (herror : u.inner.error = none) (hrecv : u.inner.recvRx.closed = false) (hsend : u.inner.sendTx.closed = false)
    {s : UdxStreamInner} (hs : (UdxStreamInner.pollIncoming { u.inner with driveWaker := none } roundCx).1 = s)
    (hidle : ∀ k packet, s.outgoing.lookup k = some packet → packet.waiting = false) :
    ∃ waker woken events, u.call (.poll 0 0 10 1) = { u with inner := s.flushed waker woken events } ∧
      transmitted events = u.sent ++ s.sendQueue := by
  have hopen : u.inner.closedAndDrained = false := by
    rw [closedAndDrained, herror]
    rfl
  -- The run takes no time, and the timer is set at least a second ahead.
  have hquiet : u.Unexpired roundCx := by
    intro _ _
    have harmed : TimerArmed u.inner.timerSide := timerArmed_invariant.of_reachable hu
    have hchain : Chain UdxStream.anyPacket 0 { u.inner with driveWaker := none } s :=
      hs ▸ incomingLoop_chain _ _ _ (Or.inl rfl) fun _ _ => trivial
    have htimer := (chain_invariant (fun s => TimerArmed s.timerSide) (fun _ _ h => h.timerArmed) hchain harmed).current
    have hpos : 0 < millis 1000 := by decide
    rw [UdxStreamInner.Unexpired, hs]
    exact Or.inl (show 0 < s.rtoTimeout by change s.ghost.armedAt + _ ≤ s.rtoTimeout at htimer; omega)
  have hcall : u.call (.poll 0 0 10 1) = u.poll roundCx := by
    rw [UdxStream.call_poll hrunning, hclock]
    rfl
  obtain ⟨waker, woken, events, hpoll, hevents⟩ := poll_exact hrunning hopen hrecv hsend hquiet
  rw [hs, flushWaitingPackets, flushLoop_idle _ hidle] at hpoll hevents
  exact ⟨waker, woken, events, hcall.trans hpoll, hevents⟩

/-- A packet arrives at a resting stream and the stream is polled. -/
theorem Resting.handles_packet {u : UdxStream} (hu : u.Reachable) (h : Resting u) (header : Header) (buf : List UInt8)
    (source : SocketAddr) {s : UdxStreamInner}
    (hs : UdxStreamInner.handleIncomingMaxRemoteAck (handleIncoming { u.inner with driveWaker := none } 0
      ⟨header, buf, 0, source⟩) 0 header.ack = s)
    (hidle : ∀ k packet, s.outgoing.lookup k = some packet → packet.waiting = false) :
    ∃ waker woken events,
      (u.step (.recv header buf source)).call (.poll 0 0 10 1) = { u with inner := s.flushed waker woken events } ∧
      transmitted events = u.sent ++ s.sendQueue := by
  let arrived : UdxStreamInner := { u.inner with recvRx := { queue := [⟨header, buf, 0, source⟩] } }
  have hstep : u.step (.recv header buf source) = { u with inner := arrived } :=
    congrArg (fun rx : RecvChannel => { u with inner := { u.inner with
      recvRx := { rx with queue := rx.queue ++ [(⟨header, buf, 0, source⟩ : IncomingPacket)] } } }) h.recv
  have hpopped : { u.inner with recvRx := {}, driveWaker := none } = { u.inner with driveWaker := none } :=
    congrArg (fun rx : RecvChannel => { u.inner with recvRx := rx, driveWaker := none }) h.recv.symm
  have hincoming : (UdxStreamInner.pollIncoming { arrived with driveWaker := none } roundCx).1 = s := by
    rw [← hs, ← hpopped]
    exact pollIncoming_singleton (s := { arrived with driveWaker := none }) rfl rfl (by decide)
  have hu1 : (u.step (.recv header buf source)).Reachable := hu.step _
  rw [hstep] at hu1 ⊢
  exact poll_round hu1 h.running h.clock h.error rfl h.send hincoming hidle

/-! ### The writing side -/

/-- One packet in flight leaves room for a byte. -/
theorem Resting.admits {u : UdxStream} (hu : u.Reachable) (h : Resting u)
    (hflight : u.inner.inflight ≤ udxHeaderSize + 1) :
    (u.inner.pollWrite u.clock 0 [0]).1 = u.inner.pushData 0 [0] := by
  have hroomy : udxMtu ≤ u.inner.cwnd := roomy_invariant.of_reachable hu
  have hroom : u.inner.inflight + 1 ≤ u.inner.cwnd :=
    calc u.inner.inflight + 1 ≤ udxHeaderSize + 1 + 1 := Nat.succ_le_succ hflight
      _ ≤ udxMtu := by decide
      _ ≤ u.inner.cwnd := hroomy
  rw [h.clock]
  exact pollWrite_admits h.error (List.cons_ne_nil 0 []) (by decide) hroom

theorem Resting.writes {u : UdxStream} (hu : u.Reachable) (h : Resting u)
    (hflight : u.inner.inflight ≤ udxHeaderSize + 1) :
    ∃ accepted, u.call (.write 0 [0]) = { u with inner := u.inner.pushData 0 [0], accepted := accepted } := by
  refine ⟨(u.call (.write 0 [0])).accepted, (u.write_eq 0 [0] h.handles).trans ?_⟩
  rw [h.admits hu hflight]

theorem dataPacket_isByte {s : UdxStreamInner} {n : Nat} (hopen : s.state.isLocalClosed = false)
    (hseq : s.seq = UInt32.ofNat n) (hack : s.ack = 0) : IsByte s.remoteId n (s.dataPacket 0 [0]) where
  typ := createHeader_typ hopen _
  streamId := rfl
  seq := hseq
  ack := hack
  body := dataPacket_body s [0]
  encoded := createPacket_encoded hopen [0]

theorem Sender.few {n : Nat} {u : UdxStream} (h : Sender n u) (hn : n < 2 ^ 32) : FewCreated u.inner := by
  rw [FewCreated, h.created_length]
  exact hn

theorem Sender.inflight_eq {n : Nat} {u : UdxStream} (h : Sender n u) (haccounted : Accounted u.inner.sendSide) :
    u.inner.inflight = 0 := by
  have hentries : u.inner.outgoing.entries = [] := AList.entries_eq_nil h.empty
  have htotal : u.inner.inflight = u.inner.outgoing.total flightWeight := haccounted.inflight_eq
  rw [htotal, AList.total, hentries]
  rfl

theorem Sender.pushed_lookup {n : Nat} {u : UdxStream} (h : Sender n u) (k : UInt32) :
    (u.inner.pushData 0 [0]).outgoing.lookup k =
      if k = UInt32.ofNat n then some (u.inner.dataPacket 0 [0]) else none := by
  change (u.inner.outgoing.insert u.inner.seq (u.inner.dataPacket 0 [0])).lookup k = _
  rw [h.seq_eq]
  by_cases hk : k = UInt32.ofNat n
  · rw [if_pos hk, hk, AList.lookup_insert]
  · rw [if_neg hk, AList.lookup_insert_ne hk, h.empty]

/-- **A round of the writing side.** The byte is written and the driver is polled. -/
theorem Sender.sends {n : Nat} {u : UdxStream} (hu : u.Reachable) (h : Sender n u) (hn : n < 2 ^ 32) :
    ∃ v, (u.call (.write 0 [0])).call (.poll 0 0 10 1) = v ∧ Sending n v ∧
      ∃ ref, v.sent[n]? = some ref ∧ IsByte v.inner.remoteId n ref.deref := by
  have hemits : Emits u.inner.emitSide := emits_invariant.reachable (fun _ _ _ => trivial) hu (h.few hn)
  have hinflight := h.inflight_eq (accounted_invariant.reachable (fun _ _ _ => trivial) hu (h.few hn))
  obtain ⟨accepted, hwrite⟩ := h.toResting.writes hu (hinflight.trans_le (Nat.zero_le _))
  let packet : Packet := u.inner.dataPacket 0 [0]
  let pushed : UdxStreamInner := { u.inner.pushData 0 [0] with driveWaker := none }
  have hbyte : IsByte u.inner.remoteId n packet := dataPacket_isByte (hemits.opened h.error) h.seq_eq h.ack_eq
  have houtgoing : ∀ k, pushed.outgoing.lookup k = if k = UInt32.ofNat n then some packet else none :=
    h.pushed_lookup
  have hidle : ∀ k other, pushed.outgoing.lookup k = some other → other.waiting = false := by
    intro k other hlookup
    rw [houtgoing] at hlookup
    split at hlookup <;> cases hlookup
    rfl
  have hu1 : (u.call (.write 0 [0])).Reachable := hu.step (.call (.write 0 [0]))
  have hrecv : pushed.recvRx = {} := h.recv
  rw [hwrite] at hu1 ⊢
  obtain ⟨waker, woken, events, hpoll, hevents⟩ := poll_round hu1 h.running h.clock h.error
    (show pushed.recvRx.closed = false by rw [hrecv]) h.send (pollIncoming_nil (s := pushed) (by rw [hrecv]) _) hidle
  have hqueue : pushed.sendQueue = [.shared packet] := congrArg (· ++ [PacketRef.shared packet]) h.queue
  have hsent : transmitted events = u.sent ++ [.shared packet] := by
    rw [hevents, hqueue]
    rfl
  refine ⟨_, hpoll, ?_, .shared packet, ?_, hbyte⟩
  · exact {
      toResting := h.toResting.flushed (s := pushed) h.error h.recv h.send waker woken events
      sent_length := by
        change (transmitted events).length = n + 1
        rw [hsent, List.length_append, h.sent_length]
        rfl
      created_length := by
        change (u.inner.ghost.created ++ [packet]).length = n + 1
        rw [List.length_append, h.created_length]
        rfl
      seq_eq := (congrArg (· + 1) h.seq_eq).trans (Counter.ofNat_succ n)
      acked_eq := h.acked_eq
      ack_eq := h.ack_eq
      others := fun k hk => (houtgoing k).trans (if_neg hk)
      outstanding := ⟨packet, (houtgoing _).trans (if_pos rfl), rfl⟩
      inflight_eq := by
        change (u.inner.pushData 0 [0]).inflight = _
        rw [pushData_inflight, hinflight, Nat.zero_add]
        rfl }
  · change (transmitted events)[n]? = _
    rw [hsent, ← h.sent_length, List.getElem?_concat_length]

/-- Handling an acknowledgement that carries nothing else opens the window. -/
theorem handleIncoming_answer {s : UdxStreamInner} (now : Nat) (hfirewall : s.onFirewall = none)
    {packet : IncomingPacket} (htyp : packet.header.typ = 0) :
    s.handleIncoming now packet =
      congestionControl { s with stats := { s.stats with rxPackets := s.stats.rxPackets + 1 } } packet.header := by
  have hplain : ∀ typ, packet.hasType typ = false := by
    intro typ
    rw [IncomingPacket.hasType, htyp, UInt32.zero_and]
    rfl
  rw [handleIncoming_parts hfirewall, IncomingPacket.sacked, dataPart, endPart, hplain, hplain, hplain]
  rfl

/-- What an acknowledgement leaves alone. -/
def UdxStreamInner.ackFrame (s : UdxStreamInner) :
    Option UdxError × RecvChannel × SendChannel × List PacketRef × UInt32 × UInt32 × List Packet :=
  (s.error, s.recvRx, s.sendTx, s.sendQueue, s.seq, s.ack, s.ghost.created)

theorem ackPacket_ackFrame {now : Nat} (s : UdxStreamInner) (i : UInt32) :
    (s.ackPacket now i).ackFrame = s.ackFrame := by
  unfold ackPacket
  split <;> rfl

/-- The stream when it has handled an answer. -/
def UdxStreamInner.answered (s : UdxStreamInner) (header : Header) : UdxStreamInner :=
  UdxStreamInner.handleIncomingMaxRemoteAck (congestionControl { s with
    driveWaker := none, stats := { s.stats with rxPackets := s.stats.rxPackets + 1 } } header) 0 header.ack

theorem answered_ackFrame (s : UdxStreamInner) (header : Header) : (s.answered header).ackFrame = s.ackFrame :=
  handleIncomingMaxRemoteAck_frame ackFrame ackPacket_ackFrame (fun _ _ => rfl) (fun _ _ => rfl) (fun _ _ => rfl) _ _

/-- The packet that is acknowledged was the only one. -/
theorem Sending.answered_acks {n : Nat} {u : UdxStream} (h : Sending n u) (hn : n + 1 < 2 ^ 32) {header : Header}
    (hack : header.ack = UInt32.ofNat (n + 1)) :
    (u.inner.answered header).remoteAcked = UInt32.ofNat (n + 1) ∧
      ∀ k, (u.inner.answered header).outgoing.lookup k = none := by
  have hold := Counter.ofNat_lt_succ hn
  constructor
  · rw [answered, handleIncomingMaxRemoteAck_remoteAcked, hack]
    change (if u.inner.remoteAcked ≤ _ then _ else _) = _
    rw [h.acked_eq]
    exact if_pos (UInt32.le_of_lt hold)
  · intro k
    rw [answered, handleIncomingMaxRemoteAck_lookup, hack]
    change (if u.inner.remoteAcked ≤ k ∧ k < _ then none else u.inner.outgoing.lookup k) = none
    rw [h.acked_eq]
    by_cases hk : k = UInt32.ofNat n
    · rw [hk, if_pos ⟨UInt32.le_refl _, hold⟩]
    · rw [h.others k hk, ite_self]

/-- The acknowledgement of the byte is handled. -/
theorem Sending.acknowledged {n : Nat} {u : UdxStream} (hu : u.Reachable) (h : Sending n u) (hn : n + 1 < 2 ^ 32)
    {header : Header} (source : SocketAddr) (htyp : header.typ = 0) (hack : header.ack = UInt32.ofNat (n + 1)) :
    Sender (n + 1) ((u.step (.recv header [] source)).call (.poll 0 0 10 1)) := by
  have hs : UdxStreamInner.handleIncomingMaxRemoteAck (handleIncoming { u.inner with driveWaker := none } 0
      ⟨header, [], 0, source⟩) 0 header.ack = u.inner.answered header := by
    rw [handleIncoming_answer (s := { u.inner with driveWaker := none }) 0 hu.onFirewall htyp]
    rfl
  have hframe := answered_ackFrame u.inner header
  simp only [ackFrame, Prod.mk.injEq] at hframe
  obtain ⟨herror, hrecv, hsend, hqueue, hseq, hack', hcreated⟩ := hframe
  obtain ⟨hacked, hempty⟩ := h.answered_acks hn hack
  obtain ⟨waker, woken, events, hpoll, hevents⟩ := h.toResting.handles_packet hu header [] source hs
    fun k packet hlookup => absurd ((hempty k).symm.trans hlookup) nofun
  rw [hqueue, h.queue, List.append_nil] at hevents
  rw [hpoll]
  exact {
    toResting := h.toResting.flushed (herror.trans h.error) (hrecv.trans h.recv)
      ((congrArg SendChannel.closed hsend).trans h.send) waker woken events
    sent_length := (congrArg List.length hevents).trans h.sent_length
    created_length := (congrArg List.length hcreated).trans h.created_length
    seq_eq := hseq.trans h.seq_eq
    acked_eq := hacked
    ack_eq := hack'.trans h.ack_eq
    empty := hempty }

theorem Sending.idle {n : Nat} {u : UdxStream} (h : Sending n u) (k : UInt32) (packet : Packet)
    (hlookup : u.inner.outgoing.lookup k = some packet) : packet.waiting = false := by
  obtain ⟨other, hother, hwaiting⟩ := h.outstanding
  by_cases hk : k = UInt32.ofNat n
  · rw [hk, hother] at hlookup
    cases hlookup
    exact hwaiting
  · rw [h.others k hk] at hlookup
    cases hlookup

/-- An acknowledgement that has wrapped is not taken for a new one. -/
theorem Sending.ignores {n : Nat} {u : UdxStream} (hu : u.Reachable) (h : Sending n u) {header : Header}
    (source : SocketAddr) (htyp : header.typ = 0) (hack : header.ack = 0) :
    Sending n ((u.step (.recv header [] source)).call (.poll 0 0 10 1)) := by
  let s : UdxStreamInner := congestionControl { u.inner with
    driveWaker := none, stats := { u.inner.stats with rxPackets := u.inner.stats.rxPackets + 1 } } header
  have hs : UdxStreamInner.handleIncomingMaxRemoteAck (handleIncoming { u.inner with driveWaker := none } 0
      ⟨header, [], 0, source⟩) 0 header.ack = s := by
    rw [hack, handleIncomingMaxRemoteAck_zero]
    exact handleIncoming_answer (s := { u.inner with driveWaker := none }) 0 hu.onFirewall htyp
  obtain ⟨waker, woken, events, hpoll, hevents⟩ := h.toResting.handles_packet hu header [] source hs h.idle
  have hqueue : s.sendQueue = [] := h.queue
  rw [hqueue, List.append_nil] at hevents
  rw [hpoll]
  exact {
    toResting := h.toResting.flushed (s := s) h.error h.recv h.send waker woken events
    sent_length := (congrArg List.length hevents).trans h.sent_length
    created_length := h.created_length
    seq_eq := h.seq_eq
    acked_eq := h.acked_eq
    ack_eq := h.ack_eq
    others := h.others
    outstanding := h.outstanding
    inflight_eq := h.inflight_eq }

/-! ### The reading side -/

theorem advanceAck_one {incoming : SeqMap IncomingPacket} {ack : UInt32} (hmem : ack ∈ incoming)
    (hnext : ack + 1 ∉ incoming) (fuel : Nat) : advanceAck incoming (fuel + 2) ack = ack + 1 := by
  rw [advanceAck, if_pos hmem, advanceAck, if_neg hnext]

/-- A data packet without acknowledgement, as the reading side handles it. -/
theorem handleIncoming_byte {s : UdxStreamInner} (now : Nat) (hfirewall : s.onFirewall = none)
    {packet : IncomingPacket} (htyp : packet.header.typ = udxHeaderData) :
    s.handleIncoming now packet = congestionControl (handleIncomingData { s with
      stats := { s.stats with rxPackets := s.stats.rxPackets + 1 } } packet) packet.header := by
  have hsack : packet.hasType udxHeaderSack = false := by rw [IncomingPacket.hasType, htyp]; decide
  have hend : packet.hasType udxHeaderEnd = false := by rw [IncomingPacket.hasType, htyp]; decide
  have hdata : packet.hasType udxHeaderData = true := by rw [IncomingPacket.hasType, htyp]; decide
  rw [handleIncoming_parts hfirewall, IncomingPacket.sacked, dataPart, endPart, hsack, hend, hdata]
  rfl

theorem statePacket_isAnswer {s : UdxStreamInner} {n : Nat} (herror : s.error = none) (hack : s.ack = UInt32.ofNat n) :
    IsAnswer s.remoteId n s.statePacket where
  typ := by
    change (if s.state.isLocalClosed then (if s.error.isSome then 0 ||| udxHeaderEnd else 0) &&& udxHeaderEnd
      else if s.error.isSome then 0 ||| udxHeaderEnd else 0) = 0
    rw [herror]
    cases s.state.isLocalClosed <;> rfl
  streamId := rfl
  ack := hack
  body := statePacket_body s
  encoded := (statePacket_isState s).encoded

/-- A packet of one byte is read with nothing behind it. -/
theorem pollRead_byte {s : UdxStreamInner} {packet : IncomingPacket}
    (hlookup : s.incoming.lookup s.readCursor = some packet) (hlen : packet.buf.length = 1)
    (hfresh : packet.readOffset = 0) (hnext : s.readCursor + 1 ∉ s.incoming) :
    (s.pollRead 0 1).1 = s.readWhole packet := by
  have hnone : (s.readWhole packet).incoming.lookup (s.readWhole packet).readCursor = none := by
    change (s.incoming.erase s.readCursor).lookup (s.readCursor + 1) = none
    rw [AList.lookup_erase_ne (Counter.succ_ne_self _), AList.lookup_eq_none]
    exact hnext
  have hfits : usizeSub packet.buf.length packet.readOffset ≤ 1 := by
    rw [hlen, hfresh]
    decide
  have hread := readNext_fits hlookup hfits
  rw [readNext_none hnone] at hread
  rw [pollRead, hread]

/-- The stream when it has handled a data packet of one byte. -/
def UdxStreamInner.taken (s : UdxStreamInner) (header : Header) (source : SocketAddr) : UdxStreamInner :=
  congestionControl (handleIncomingData { s with
    driveWaker := none, stats := { s.stats with rxPackets := s.stats.rxPackets + 1 } } ⟨header, [0], 0, source⟩) header

theorem Receiver.taken_lookup {n : Nat} {v : UdxStream} (h : Receiver n v) {header : Header} (source : SocketAddr)
    (hseq : header.seq = UInt32.ofNat n) (k : UInt32) :
    (v.inner.taken header source).incoming.lookup k =
      if k = UInt32.ofNat n then some ⟨header, [0], 0, source⟩ else none := by
  have hincoming : (v.inner.taken header source).incoming =
      v.inner.incoming.insert (UInt32.ofNat n) ⟨header, [0], 0, source⟩ := by
    change (if v.inner.ack ≤ header.seq then v.inner.incoming.insert header.seq _ else v.inner.incoming) = _
    rw [hseq, h.ack_eq, if_pos (UInt32.le_refl _)]
  rw [hincoming]
  by_cases hk : k = UInt32.ofNat n
  · rw [if_pos hk, hk, AList.lookup_insert]
  · rw [if_neg hk, AList.lookup_insert_ne hk, h.empty]

theorem Receiver.taken_ack {n : Nat} {v : UdxStream} (h : Receiver n v) {header : Header} (source : SocketAddr)
    (hseq : header.seq = UInt32.ofNat n) : (v.inner.taken header source).ack = UInt32.ofNat (n + 1) := by
  have hlookup := h.taken_lookup source hseq
  have hmem : UInt32.ofNat n ∈ (v.inner.taken header source).incoming :=
    AList.mem_of_lookup ((hlookup _).trans (if_pos rfl))
  have hnext : UInt32.ofNat n + 1 ∉ (v.inner.taken header source).incoming := by
    rw [← AList.lookup_eq_none, hlookup, if_neg (Counter.succ_ne_self _)]
  change advanceAck (v.inner.taken header source).incoming (4294967294 + 2) v.inner.ack = _
  rw [h.ack_eq, advanceAck_one hmem hnext, Counter.ofNat_succ]

/-- **A round of the reading side.** The packet arrives, the driver is polled, the byte is read. -/
theorem Receiver.receives {n : Nat} {v : UdxStream} (hv : v.Reachable) (h : Receiver n v) {header : Header}
    (source : SocketAddr) (htyp : header.typ = udxHeaderData) (hseq : header.seq = UInt32.ofNat n)
    (hack : header.ack = 0) :
    ∃ w, ((v.step (.recv header [0] source)).call (.poll 0 0 10 1)).call (.read 0 1) = w ∧ Receiver (n + 1) w ∧
      ∃ ref, w.sent[n]? = some ref ∧ IsAnswer w.inner.remoteId (n + 1) ref.deref := by
  let packet : IncomingPacket := ⟨header, [0], 0, source⟩
  let s : UdxStreamInner := v.inner.taken header source
  let answer : Packet := statePacket { v.inner with ack := s.ack }
  have hlookup : ∀ k, s.incoming.lookup k = if k = UInt32.ofNat n then some packet else none :=
    h.taken_lookup source hseq
  have hs : UdxStreamInner.handleIncomingMaxRemoteAck (handleIncoming { v.inner with driveWaker := none } 0 packet) 0
      header.ack = s := by
    rw [hack, handleIncomingMaxRemoteAck_zero]
    exact handleIncoming_byte (s := { v.inner with driveWaker := none }) 0 hv.onFirewall htyp
  obtain ⟨waker, woken, events, hpoll, hevents⟩ := h.toResting.handles_packet hv header [0] source hs
    fun k other hother => absurd ((h.idle k).symm.trans hother) nofun
  have hqueue : s.sendQueue = [.owned answer] := congrArg (· ++ [PacketRef.owned answer]) h.queue
  rw [hqueue] at hevents
  let polled : UdxStreamInner := s.flushed waker woken events
  have hcursor : polled.readCursor = UInt32.ofNat n := h.cursor_eq
  have hread : UdxStream.call { v with inner := polled } (.read 0 1) = { v with inner := polled.readWhole packet } := by
    have hfirst : polled.incoming.lookup polled.readCursor = some packet := by
      rw [hcursor]
      exact (hlookup _).trans (if_pos rfl)
    have hnext : polled.readCursor + 1 ∉ polled.incoming := by
      rw [hcursor, ← AList.lookup_eq_none]
      exact (hlookup _).trans (if_neg (Counter.succ_ne_self _))
    rw [UdxStream.call, if_neg h.handles]
    dsimp only
    rw [pollRead_byte hfirst rfl rfl hnext]
  refine ⟨_, (congrArg (UdxStream.call · (.read 0 1)) hpoll).trans hread, ?_, .owned answer, ?_,
    statePacket_isAnswer (s := { v.inner with ack := s.ack }) h.error (h.taken_ack source hseq)⟩
  · exact {
      toResting := h.toResting.flushed (s := s.readWhole packet) h.error h.recv h.send waker woken events
      sent_length := by
        change (transmitted events).length = n + 1
        rw [hevents, List.length_append, h.sent_length]
        rfl
      ack_eq := h.taken_ack source hseq
      cursor_eq := (congrArg (· + 1) hcursor).trans (Counter.ofNat_succ n)
      empty := fun k => by
        change (s.incoming.erase polled.readCursor).lookup k = none
        rw [hcursor]
        by_cases hk : k = UInt32.ofNat n
        · rw [hk, AList.lookup_erase]
        · rw [AList.lookup_erase_ne hk, hlookup, if_neg hk]
      idle := h.idle }
  · change (transmitted events)[n]? = _
    rw [hevents, ← h.sent_length, List.getElem?_concat_length]

/-! ### Rounds -/

/-- The first side writes a byte and sends it, the other one receives, acknowledges and reads it, and the
acknowledgement comes back. Each side has transmitted `n` packets before. -/
def round (n : Nat) : List PairEvent :=
  [.call .a (.write 0 [0]), .call .a (.poll 0 0 10 1),
    .deliver .a n, .call .b (.poll 0 0 10 1), .call .b (.read 0 1),
    .deliver .b n, .call .a (.poll 0 0 10 1)]

def rounds : Nat → List PairEvent
  | 0 => []
  | n + 1 => rounds n ++ round n

theorem Pair.Reachable.deliver_eq {p : Pair} (hp : p.Reachable) (x : Side) {n : Nat} {ref : PacketRef}
    (href : (p.peer x).sent[n]? = some ref) (hencoded : ref.deref.Encoded)
    (hid : ref.deref.header.streamId = (p.peer x).inner.remoteId) :
    p.step (.deliver x n) = p.set x.other ((p.peer x.other).step
      (.recv ref.deref.header ref.deref.body (p.peer x.other).inner.remoteAddr)) := by
  rw [Pair.step, hp.datagram_eq href hencoded hid]

/-- **One round.** The acknowledgement of the last packet before the wrap is zero, which is not above the last
acknowledgement. -/
theorem run_round {n : Nat} {p : Pair} (hp : p.Reachable) (hsender : Sender n p.a) (hreceiver : Receiver n p.b)
    (hn : n < 2 ^ 32) :
    Receiver (n + 1) (Runs.run Pair.step p (round n)).b ∧
      (n + 1 < 2 ^ 32 → Sender (n + 1) (Runs.run Pair.step p (round n)).a) ∧
      (n + 1 = 2 ^ 32 → Sending n (Runs.run Pair.step p (round n)).a) := by
  obtain ⟨v, hv, hsending, ref, href, hbyte⟩ := hsender.sends (hp.peer .a) hn
  obtain ⟨w, hw, hreceived, answer, hanswer, hisanswer⟩ :=
    hreceiver.receives (hp.peer .b) p.b.inner.remoteAddr hbyte.typ hbyte.seq hbyte.ack
  have hwrite : (p.step (.call .a (.write 0 [0]))).step (.call .a (.poll 0 0 10 1)) = ⟨v, p.b⟩ :=
    congrArg (Pair.mk · p.b) hv
  have hp₁ : Pair.Reachable ⟨v, p.b⟩ := by
    rw [← hwrite]
    exact (hp.step _).step _
  have hread : ((Pair.step ⟨v, p.b⟩ (.deliver .a n)).step (.call .b (.poll 0 0 10 1))).step (.call .b (.read 0 1)) =
      ⟨v, w⟩ := by
    rw [hp₁.deliver_eq .a href hbyte.encoded hbyte.streamId, hbyte.body]
    exact congrArg (Pair.mk v) hw
  have hp₂ : Pair.Reachable ⟨v, w⟩ := by
    rw [← hread]
    exact ((hp₁.step _).step _).step _
  have hrun : Runs.run Pair.step p (round n) =
      ⟨(v.step (.recv answer.deref.header [] v.inner.remoteAddr)).call (.poll 0 0 10 1), w⟩ := by
    simp only [Runs.run, round, List.foldl_cons, List.foldl_nil]
    rw [hwrite, hread, hp₂.deliver_eq .b hanswer hisanswer.encoded hisanswer.streamId, hisanswer.body]
    rfl
  rw [hrun]
  refine ⟨hreceived, fun hlt => ?_, fun hlast => ?_⟩
  · exact hsending.acknowledged (hp₂.peer .a) hlt _ hisanswer.typ hisanswer.ack
  · have hzero : answer.deref.header.ack = 0 := by
      rw [hisanswer.ack, hlast]
      decide
    exact hsending.ignores (hp₂.peer .a) _ hisanswer.typ hzero

def longStart : Pair := Pair.connect 0 0 ⟨.v4 0, 1⟩ ⟨.v4 0, 2⟩ 1 2

def longRun (n : Nat) : Pair := Runs.run Pair.step longStart (rounds n)

theorem longRun_succ (n : Nat) : longRun (n + 1) = Runs.run Pair.step (longRun n) (round n) := List.foldl_append

theorem longRun_reachable (n : Nat) : (longRun n).Reachable := ⟨0, 0, _, _, 1, 2, rounds n, rfl⟩

theorem longRun_rests {n : Nat} (hn : n < 2 ^ 32) : Sender n (longRun n).a ∧ Receiver n (longRun n).b := by
  induction n with
  | zero => exact ⟨⟨⟨rfl, by decide, rfl, rfl, rfl, rfl, rfl⟩, rfl, rfl, rfl, rfl, rfl, fun _ => rfl⟩,
      ⟨⟨rfl, by decide, rfl, rfl, rfl, rfl, rfl⟩, rfl, rfl, rfl, fun _ => rfl, fun _ => rfl⟩⟩
  | succ n ih =>
      obtain ⟨hsender, hreceiver⟩ := ih (by omega)
      obtain ⟨hreceiver', hsender', -⟩ := run_round (longRun_reachable n) hsender hreceiver (by omega)
      rw [longRun_succ]
      exact ⟨hsender' hn, hreceiver'⟩

/-- A side keeps the packets it has created. -/
theorem Pair.created_grows (p : Pair) (e : PairEvent) (x : Side) :
    (p.peer x).inner.ghost.created <+: ((p.step e).peer x).inner.ghost.created := by
  have hlink := p.step_link e x
  generalize (p.step e).peer x = u at hlink
  generalize (p.step e).peer x.other = v at hlink
  cases hlink with
  | near c => exact Advance.created_prefix (UdxStream.step_advance_any _ _)
  | back packet h => exact Advance.created_prefix (UdxStream.step_advance_any _ _)
  | _ => exact List.prefix_rfl

/-- Writing when the next number was used before. -/
theorem Sending.repeats {n : Nat} {u : UdxStream} (hu : u.Reachable) (h : Sending n u)
    (hmem : u.inner.seq ∈ u.inner.ghost.created.map Packet.seq) :
    ¬((u.call (.write 0 [0])).inner.ghost.created.map Packet.seq).Nodup := by
  obtain ⟨accepted, hwrite⟩ := h.toResting.writes hu h.inflight_eq.le
  rw [hwrite]
  change ¬((u.inner.ghost.created ++ [u.inner.dataPacket 0 [0]]).map Packet.seq).Nodup
  rw [List.map_append, List.nodup_append]
  rintro ⟨-, -, hdisjoint⟩
  exact hdisjoint _ hmem _ (List.mem_singleton_self _) rfl

theorem Sender.overflows {n : Nat} {u : UdxStream} (hu : u.Reachable) (h : Sender n u) (hlast : n + 1 = 2 ^ 32) :
    u.overflows (.call (.write 0 [0])) = true := by
  have hfew := h.few (hlast ▸ n.lt_succ_self)
  have haccounted : Accounted u.inner.sendSide := accounted_invariant.reachable (fun _ _ _ => trivial) hu hfew
  have hmany : ¬FewCreated (u.inner.pollWrite u.clock 0 [0]).1 := by
    rw [h.toResting.admits hu ((h.inflight_eq haccounted).trans_le (Nat.zero_le _))]
    change ¬(u.inner.ghost.created ++ [u.inner.dataPacket 0 [0]]).length < 2 ^ 32
    rw [List.length_append, h.created_length, List.length_singleton, hlast]
    exact Nat.lt_irrefl _
  have hwraps := (pollWrite_overflows_iff 0 [0] haccounted hfew).not.mpr hmany
  rw [Bool.not_eq_false] at hwraps
  rw [UdxStream.overflows, decide_eq_true h.handles, Bool.true_and]
  exact hwraps

/-- The number of the first packet is among those created from the second round on. -/
theorem longRun_first {n : Nat} (hpos : 0 < n) (hn : n < 2 ^ 32) :
    0 ∈ (longRun (n + 1)).a.inner.ghost.created.map Packet.seq := by
  obtain ⟨hsender, -⟩ := longRun_rests hn
  have hreach : (longRun n).a.Reachable := (longRun_reachable n).peer .a
  have hfirst : 0 ∈ (longRun n).a.inner.ghost.created.map Packet.seq := by
    rw [created_numbers hreach (hsender.few hn), Counter.mem_range, UInt32.lt_iff_toNat_lt,
      hsender.seq_eq, Counter.toNat_ofNat hn]
    exact ⟨UInt32.le_refl 0, hpos⟩
  have hgrows : (longRun n).a.inner.ghost.created <+: (longRun (n + 1)).a.inner.ghost.created := by
    rw [longRun_succ]
    exact Runs.run_invariant (fun r : Pair => (longRun n).a.inner.ghost.created <+: r.a.inner.ghost.created)
      (fun r e hr => hr.trans (r.created_grows e .a)) List.prefix_rfl _
  exact (hgrows.map Packet.seq).subset hfirst

/-- **All three counters wrap.** After `2 ^ 32` rounds `seq`, `ack` and `read_cursor` are at zero. The last packet is
acknowledged and not taken off the map, and the next one gets a number that was given before. -/
theorem longRun_wraps :
    ∃ n, n + 1 = 2 ^ 32 ∧
      let p := longRun n
      let q := longRun (n + 1)
      (p.a.inner.seq = 0xffffffff ∧ p.b.inner.ack = 0xffffffff ∧ p.b.inner.readCursor = 0xffffffff) ∧
        p.a.overflows (.call (.write 0 [0])) = true ∧
        (q.a.inner.seq = 0 ∧ q.b.inner.ack = 0 ∧ q.b.inner.readCursor = 0) ∧
        (q.a.inner.remoteAcked = 0xffffffff ∧ 0xffffffff ∈ q.a.inner.outgoing) ∧
        ¬((q.step (.call .a (.write 0 [0]))).a.inner.ghost.created.map Packet.seq).Nodup := by
  -- The number of rounds stays a variable: nothing may evaluate the run.
  obtain ⟨n, hlast⟩ : ∃ n : Nat, n + 1 = 2 ^ 32 := ⟨2 ^ 32 - 1, by decide⟩
  refine ⟨n, hlast, ?_⟩
  intro p q
  have hn : n < 2 ^ 32 := by omega
  have hmax : UInt32.ofNat n = 0xffffffff := by rw [show n = 2 ^ 32 - 1 by omega]; decide
  have hzero : UInt32.ofNat (n + 1) = 0 := by rw [hlast]; decide
  have hp : p.Reachable := longRun_reachable n
  have hq : q.Reachable := longRun_reachable (n + 1)
  obtain ⟨hsender, hreceiver⟩ := longRun_rests hn
  obtain ⟨hreceiver', -, hsending⟩ := run_round hp hsender hreceiver hn
  rw [← longRun_succ] at hreceiver' hsending
  replace hsending := hsending hlast
  have hseq : q.a.inner.seq = 0 := hsending.seq_eq.trans hzero
  have hused : q.a.inner.seq ∈ q.a.inner.ghost.created.map Packet.seq := by
    rw [hseq]
    exact longRun_first (by omega) hn
  obtain ⟨packet, hpacket, -⟩ := hsending.outstanding
  rw [hmax] at hpacket
  exact ⟨⟨hsender.seq_eq.trans hmax, hreceiver.ack_eq.trans hmax, hreceiver.cursor_eq.trans hmax⟩,
    hsender.overflows (hp.peer .a) hlast,
    ⟨hseq, hreceiver'.ack_eq.trans hzero, hreceiver'.cursor_eq.trans hzero⟩,
    ⟨hsending.acked_eq.trans hmax, AList.mem_of_lookup hpacket⟩, hsending.repeats (hq.peer .a) hused⟩

end AsyncUdx
