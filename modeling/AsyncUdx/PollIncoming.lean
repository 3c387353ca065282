import AsyncUdx.StreamMoves

/-! `poll_incoming` as an equation. The loop takes packets from the channel until its budget is used up or the channel
has nothing more to give; what it computes is a fold over the packets it takes, followed by the largest of their
acknowledgements. What handling one packet does to some part of the state is then what the call does to it, packet
after packet. -/

namespace AsyncUdx

open Relation UdxStreamInner

variable {now : Nat}

/-! ### The parts of a packet -/

/-- The sequence numbers in the ranges of a SACK payload, from byte `i` on. -/
def sackedFrom (buf : List UInt8) : Nat → Nat → List UInt32
  | 0, _ => []
  | fuel + 1, i =>
      if i + 8 < buf.length then
        Counter.range (readU32Le (slice buf i (i + 4))) (readU32Le (slice buf (i + 4) (i + 8))) ++
          sackedFrom buf fuel (i + 8)
      else []

/-- The sequence numbers a packet acknowledges selectively. -/
def IncomingPacket.sacked (packet : IncomingPacket) : List UInt32 :=
  if packet.hasType udxHeaderSack then sackedFrom packet.buf packet.buf.length 0 else []

theorem sackLoop_eq (buf : List UInt8) (fuel i : Nat) (s : UdxStreamInner) :
    sackLoop now buf fuel i s = (sackedFrom buf fuel i).foldl (fun s i => s.ackPacket now i) s := by
  induction fuel generalizing i s with
  | zero => rfl
  | succ fuel ih =>
      rw [sackLoop, sackedFrom]
      split
      · rw [ih, List.foldl_append]
      · rfl

/-- Whatever else it does, the SACK part of `handle_incoming` acknowledges the packets it names. -/
theorem sacks_eq (s : UdxStreamInner) (packet : IncomingPacket) :
    (if packet.hasType udxHeaderSack then s.handleIncomingSacks now packet else s) =
      packet.sacked.foldl (fun s i => s.ackPacket now i) s := by
  unfold IncomingPacket.sacked
  split
  · exact sackLoop_eq _ _ _ s
  · rfl

/-- What acknowledging one packet leaves alone, acknowledging several leaves alone. -/
theorem ackPackets_frame {β : Type} (f : UdxStreamInner → β) (hack : ∀ s i, f (ackPacket s now i) = f s)
    (keys : List UInt32) (s : UdxStreamInner) : f (keys.foldl (fun s i => s.ackPacket now i) s) = f s := by
  induction keys generalizing s with
  | nil => rfl
  | cons i rest ih => rw [List.foldl_cons, ih, hack]

/-- What the END flag of a packet does. -/
def UdxStreamInner.endPart (s : UdxStreamInner) (packet : IncomingPacket) : UdxStreamInner :=
  if packet.hasType udxHeaderEnd then s.handleIncomingEnd else s

/-- What the DATA flag of a packet does. -/
def UdxStreamInner.dataPart (s : UdxStreamInner) (packet : IncomingPacket) : UdxStreamInner :=
  if packet.hasType udxHeaderData then s.handleIncomingData packet else s

/-- What END and DATA leave alone. -/
theorem parts_frame {β : Type} (f : UdxStreamInner → β) (hend : ∀ s, f (handleIncomingEnd s) = f s)
    (hdata : ∀ s packet, f (handleIncomingData s packet) = f s) (s : UdxStreamInner) (packet : IncomingPacket) :
    f ((s.endPart packet).dataPart packet) = f s := by
  unfold endPart dataPart
  split_ifs <;> simp only [hend, hdata]

/-- Without a firewall a packet is handled part by part: SACK, END, DATA, and then the congestion window. -/
theorem handleIncoming_parts {s : UdxStreamInner} (hfirewall : s.onFirewall = none) (packet : IncomingPacket) :
    s.handleIncoming now packet =
      (((packet.sacked.foldl (fun (s : UdxStreamInner) i => s.ackPacket now i)
        { s with stats := { s.stats with rxPackets := s.stats.rxPackets + 1 } }).endPart packet).dataPart
          packet).congestionControl packet.header := by
  rw [← sacks_eq]
  unfold handleIncoming
  rw [if_neg (by simp [firewallPass_of_none hfirewall])]
  rfl

/-! ### The largest acknowledgement -/

/-- The largest of some acknowledgements and those of the given packets. -/
def largestAck (remoteAck : UInt32) (packets : List IncomingPacket) : UInt32 :=
  packets.foldl (fun largest packet => Counter.larger largest packet.ack) remoteAck

/-- The acknowledgement a poll applies: the largest one among the packets it takes from the channel, or
none when it finds the channel closed behind them. -/
def appliedAck (s : UdxStreamInner) (budget : Nat) : UInt32 :=
  if s.recvRx.closed && decide (s.recvRx.queue.length < budget) then 0
  else largestAck 0 (s.recvRx.queue.take budget)

theorem largestAck_le {bound remoteAck : UInt32} {packets : List IncomingPacket} (hack : remoteAck ≤ bound)
    (hpackets : ∀ packet ∈ packets, packet.ack ≤ bound) : largestAck remoteAck packets ≤ bound := by
  induction packets generalizing remoteAck with
  | nil => exact hack
  | cons packet rest ih =>
      refine ih ?_ fun other hother => hpackets other (List.mem_cons_of_mem _ hother)
      change Counter.larger remoteAck packet.ack ≤ bound
      rcases Counter.larger_choice remoteAck packet.ack with h | h <;> rw [h]
      · exact hack
      · exact hpackets packet List.mem_cons_self

theorem le_largestAck_start (remoteAck : UInt32) (packets : List IncomingPacket) :
    remoteAck ≤ largestAck remoteAck packets := by
  induction packets generalizing remoteAck with
  | nil => exact UInt32.le_refl _
  | cons packet rest ih => exact UInt32.le_trans (Counter.le_larger_left _ _) (ih _)

theorem le_largestAck {remoteAck : UInt32} {packets : List IncomingPacket} {packet : IncomingPacket}
    (h : packet ∈ packets) : packet.ack ≤ largestAck remoteAck packets := by
  induction packets generalizing remoteAck with
  | nil => exact absurd h List.not_mem_nil
  | cons other rest ih =>
      rcases List.mem_cons.mp h with rfl | h
      · exact UInt32.le_trans (Counter.le_larger_right _ _) (le_largestAck_start _ rest)
      · exact ih h

/-! ### The packets of one call -/

/-- The call that finds the channel closed after it has taken all packets. -/
def UdxStreamInner.findsClosed (s : UdxStreamInner) (budget : Nat) : Bool :=
  s.recvRx.closed && decide (s.recvRx.queue.length < budget)

/-- The packets that a call takes from the channel. -/
def UdxStreamInner.consumes (s : UdxStreamInner) (budget : Nat) : List IncomingPacket := s.recvRx.queue.take budget

/-- What the call applies: nothing if it finds the channel closed, otherwise the largest acknowledgement. -/
theorem appliedAck_eq (s : UdxStreamInner) (budget : Nat) :
    appliedAck s budget = if s.findsClosed budget then 0 else largestAck 0 (s.consumes budget) := rfl

/-- The channel after a call has taken what its budget allows. -/
def UdxStreamInner.drained (s : UdxStreamInner) (budget : Nat) : UdxStreamInner :=
  { s with recvRx := { s.recvRx with queue := s.recvRx.queue.drop budget } }

/-- The packets are handled one after the other. -/
def UdxStreamInner.handleAll (s : UdxStreamInner) (now : Nat) (packets : List IncomingPacket) : UdxStreamInner :=
  packets.foldl (fun s packet => s.handleIncoming now packet) s

/-- The state in which a call has handled its packets and not yet applied their acknowledgements. -/
def UdxStreamInner.handled (s : UdxStreamInner) (cx : Context) : UdxStreamInner :=
  (s.drained cx.budget).handleAll cx.now (s.consumes cx.budget)

theorem ackPacket_channel (s : UdxStreamInner) (rx : RecvChannel) (i : UInt32) :
    ackPacket { s with recvRx := rx } now i = { s.ackPacket now i with recvRx := rx } := by
  unfold ackPacket
  dsimp only
  split <;> rfl

theorem handleIncoming_channel (s : UdxStreamInner) (rx : RecvChannel) (packet : IncomingPacket) :
    handleIncoming { s with recvRx := rx } now packet = { s.handleIncoming now packet with recvRx := rx } := by
  let counted : UdxStreamInner := { s with stats := { s.stats with rxPackets := s.stats.rxPackets + 1 } }
  have hsacked : packet.sacked.foldl (fun s i => s.ackPacket now i) { counted with recvRx := rx } =
      { packet.sacked.foldl (fun s i => s.ackPacket now i) counted with recvRx := rx } :=
    (List.foldl_hom (fun s : UdxStreamInner => { s with recvRx := rx }) fun s i => ackPacket_channel s rx i)
  unfold handleIncoming
  change (if (!s.firewallPass packet.source) = true then { s with recvRx := rx } else _) = _
  split
  · rfl
  · simp only [sacks_eq]
    rw [hsacked]
    split_ifs <;> rfl

theorem incomingLoop_eq (budget : Nat) (remoteAck : UInt32) (s : UdxStreamInner) :
    incomingLoop now budget remoteAck s =
      if s.recvRx.closed && decide (s.recvRx.queue.length < budget) then
        ((s.drained budget).handleAll now (s.recvRx.queue.take budget),
          .error (.io ⟨.brokenPipe, "Socket driver future was dropped"⟩))
      else
        (((s.drained budget).handleAll now (s.recvRx.queue.take budget)).handleIncomingMaxRemoteAck now
          (largestAck remoteAck (s.recvRx.queue.take budget)), .ok ()) := by
  induction budget generalizing remoteAck s with
  | zero =>
      rw [if_neg (by simp)]
      rfl
  | succ budget ih =>
      rw [incomingLoop]
      split
      · rename_i hnil
        have hdrained : s.drained (budget + 1) = s := by
          rw [drained, hnil, List.drop_nil, ← hnil]
        rw [hdrained, hnil]
        cases s.recvRx.closed <;> rfl
      · rename_i packet rest hcons
        let popped : UdxStreamInner := { s with recvRx := { s.recvRx with queue := rest } }
        have hdrained : (popped.handleIncoming now packet).drained budget =
            (s.drained (budget + 1)).handleIncoming now packet := by
          rw [drained, handleIncoming_recvRx, ← handleIncoming_channel, drained, hcons]
          rfl
        change incomingLoop now budget _ (popped.handleIncoming now packet) = _
        rw [ih, hdrained, handleIncoming_recvRx, hcons]
        simp only [List.length_cons, Nat.add_lt_add_iff_right, List.take_succ_cons, popped]
        rfl

/-- What handling each packet keeps, and the acknowledgement applied after the batch, handling the incoming packets
keeps. -/
theorem incomingLoop_invariant (Inv : UdxStreamInner → Prop)
    (hpacket : ∀ s packet rest, s.recvRx.queue = packet :: rest → Inv s →
      Inv (handleIncoming { s with recvRx := { s.recvRx with queue := rest } } now packet))
    (hack : ∀ s ack, Inv s → Inv (handleIncomingMaxRemoteAck s now ack)) (budget : Nat) (remoteAck : UInt32)
    {s : UdxStreamInner} (hs : Inv s) : Inv (incomingLoop now budget remoteAck s).1 := by
  induction budget generalizing remoteAck s with
  | zero => exact hack s remoteAck hs
  | succ budget ih =>
      rw [incomingLoop]
      split
      · split
        · exact hs
        · exact hack s remoteAck hs
      · rename_i packet rest hcons
        exact ih _ (hpacket s packet rest hcons hs)

theorem handleIncomingMaxRemoteAck_zero (s : UdxStreamInner) : s.handleIncomingMaxRemoteAck now 0 = s :=
  if_pos UInt32.zero_le

/-- **One call of `poll_incoming`.** -/
theorem pollIncoming_eq (s : UdxStreamInner) (cx : Context) :
    s.pollIncoming cx = ((s.handled cx).handleIncomingMaxRemoteAck cx.now (appliedAck s cx.budget),
      if s.findsClosed cx.budget then .error (.io ⟨.brokenPipe, "Socket driver future was dropped"⟩) else .ok ()) := by
  rw [pollIncoming, incomingLoop_eq, appliedAck_eq]
  change (if s.findsClosed cx.budget = true then _ else _) = _
  split_ifs
  · rw [handleIncomingMaxRemoteAck_zero]
    rfl
  · rfl

theorem pollIncoming_state (s : UdxStreamInner) (cx : Context) :
    (s.pollIncoming cx).1 = (s.handled cx).handleIncomingMaxRemoteAck cx.now (appliedAck s cx.budget) :=
  congrArg Prod.fst (pollIncoming_eq s cx)

/-- Handling the packets fails exactly when the channel turns out to be closed and empty. -/
theorem pollIncoming_result (s : UdxStreamInner) (cx : Context) :
    (s.pollIncoming cx).2 =
      if s.findsClosed cx.budget then .error (.io ⟨.brokenPipe, "Socket driver future was dropped"⟩) else .ok () :=
  congrArg Prod.snd (pollIncoming_eq s cx)

theorem pollIncoming_open {s : UdxStreamInner} (hrecv : s.recvRx.closed = false) (cx : Context) :
    (s.pollIncoming cx).2 = .ok () := by
  rw [pollIncoming_result, findsClosed, hrecv]
  rfl

theorem pollIncoming_orphaned {s : UdxStreamInner} {cx : Context} (hclosed : s.recvRx.closed = true)
    (hbudget : s.recvRx.queue.length < cx.budget) :
    (s.pollIncoming cx).2 = .error (.io ⟨.brokenPipe, "Socket driver future was dropped"⟩) := by
  rw [pollIncoming_result, findsClosed, hclosed, decide_eq_true hbudget]
  rfl

/-- A call that finds nothing changes nothing. -/
theorem pollIncoming_nil {s : UdxStreamInner} (hqueue : s.recvRx.queue = []) (cx : Context) :
    (s.pollIncoming cx).1 = s := by
  have hdrained : s.drained cx.budget = s := by rw [drained, hqueue, List.drop_nil, ← hqueue]
  have happlied : appliedAck s cx.budget = 0 := by
    rw [appliedAck_eq, consumes, hqueue, List.take_nil]
    exact ite_self _
  rw [pollIncoming_state, happlied, handleIncomingMaxRemoteAck_zero, handled, hdrained, consumes, hqueue, List.take_nil]
  rfl

/-- A call that finds one packet in an open channel handles it, and applies its acknowledgement. -/
theorem pollIncoming_singleton {s : UdxStreamInner} {packet : IncomingPacket} (hqueue : s.recvRx.queue = [packet])
    (hrecv : s.recvRx.closed = false) {cx : Context} (hbudget : 0 < cx.budget) :
    (s.pollIncoming cx).1 = (handleIncoming { s with recvRx := { s.recvRx with queue := [] } } cx.now
      packet).handleIncomingMaxRemoteAck cx.now packet.ack := by
  obtain ⟨budget, hbudget⟩ := Nat.exists_eq_succ_of_ne_zero (Nat.ne_of_gt hbudget)
  have hlarger : Counter.larger 0 packet.ack = packet.ack := if_pos UInt32.zero_le
  rw [pollIncoming_state, appliedAck_eq, findsClosed, hrecv, handled, drained, consumes, hqueue, hbudget,
    List.drop_succ_cons, List.drop_nil, List.take_succ_cons, List.take_nil, ← hlarger]
  rfl

/-! ### What a call does to a part of the state -/

/-- A part of the state that each packet changes in its own way, whatever the rest is. -/
theorem handled_view {β : Type} (f : UdxStreamInner → β) (g : β → IncomingPacket → β)
    (hpop : ∀ s rx, f { s with recvRx := rx } = f s) {cx : Context}
    (hpacket : ∀ s packet, onFirewall s = none → f (s.handleIncoming cx.now packet) = g (f s) packet)
    {s : UdxStreamInner} (hfirewall : s.onFirewall = none) :
    f (s.handled cx) = (s.consumes cx.budget).foldl g (f s) := by
  have hall : ∀ (packets : List IncomingPacket) (s : UdxStreamInner), s.onFirewall = none →
      f (s.handleAll cx.now packets) = packets.foldl g (f s) := by
    intro packets
    induction packets with
    | nil => exact fun _ _ => rfl
    | cons packet rest ih =>
        intro s hfirewall
        rw [List.foldl_cons, ← hpacket s packet hfirewall]
        exact ih _ ((handleIncoming_onFirewall s packet).trans hfirewall)
  rw [handled, hall _ _ (show (s.drained cx.budget).onFirewall = none from hfirewall)]
  exact congrArg (fun part => List.foldl g part _) (hpop s _)

/-- What each packet keeps, a batch keeps. -/
theorem handleAll_invariant (Inv : UdxStreamInner → Prop) (packets : List IncomingPacket)
    (hpacket : ∀ s packet, Inv s → Inv (s.handleIncoming now packet)) {s : UdxStreamInner} (hs : Inv s) :
    Inv (s.handleAll now packets) :=
  List.foldlRecOn packets _ hs fun t ht packet _ => hpacket t packet ht

theorem handled_invariant (Inv : UdxStreamInner → Prop) {cx : Context} {s : UdxStreamInner}
    (hs : Inv (s.drained cx.budget))
    (hpacket : ∀ s packet, Inv s → Inv (s.handleIncoming cx.now packet)) : Inv (s.handled cx) :=
  handleAll_invariant Inv _ hpacket hs

/-- What the channel and every packet leave alone. -/
theorem handled_frame {β : Type} (f : UdxStreamInner → β) (hpop : ∀ s rx, f { s with recvRx := rx } = f s)
    {cx : Context} (hpacket : ∀ s packet, f (handleIncoming s cx.now packet) = f s) (s : UdxStreamInner) :
    f (s.handled cx) = f s :=
  handled_invariant (fun t => f t = f s) (hpop s _) fun t packet ht => (hpacket t packet).trans ht

/-- What acknowledging a packet, waking the writer and the timer leave alone, the acknowledgement applied after
the batch leaves alone. -/
theorem handleIncomingMaxRemoteAck_frame {β : Type} (f : UdxStreamInner → β)
    (hack : ∀ s i, f (ackPacket s now i) = f s) (hnext : ∀ s acked, f { s with remoteAcked := acked } = f s)
    (hwake : ∀ s condition, f (wakeWriter s condition) = f s)
    (htimer : ∀ s deadline, f (resetTimer s now deadline) = f s) (s : UdxStreamInner) (ack : UInt32) :
    f (s.handleIncomingMaxRemoteAck now ack) = f s := by
  have hloop : ∀ (n : Nat) (s : UdxStreamInner), f (ackLoop now n s) = f s := by
    intro n
    induction n with
    | zero => intro s; rfl
    | succ n ih =>
        intro s
        rw [ackLoop, ih]
        exact (hack _ _).trans (hnext s _)
  unfold handleIncomingMaxRemoteAck
  split
  · rfl
  · exact (htimer _ _).trans ((hwake _ _).trans (hloop _ s))

theorem handleIncomingMaxRemoteAck_recvRx (s : UdxStreamInner) (ack : UInt32) :
    (s.handleIncomingMaxRemoteAck now ack).recvRx = s.recvRx :=
  handleIncomingMaxRemoteAck_frame recvRx ackPacket_recvRx (fun _ _ => rfl) (fun _ _ => rfl) (fun _ _ => rfl) s ack

/-- What every part of `poll_incoming` leaves alone, handling the incoming packets leaves alone. -/
theorem pollIncoming_frame {β : Type} (f : UdxStreamInner → β) {cx : Context}
    (hpop : ∀ s rx, f { s with recvRx := rx } = f s)
    (hstats : ∀ s stats, f { s with stats := stats } = f s)
    (hack : ∀ s i, f (ackPacket s cx.now i) = f s) (hend : ∀ s, f (handleIncomingEnd s) = f s)
    (hdata : ∀ s packet, f (handleIncomingData s packet) = f s)
    (hgrow : ∀ s header, f (congestionControl s header) = f s)
    (hnext : ∀ s acked, f { s with remoteAcked := acked } = f s)
    (hwake : ∀ s condition, f (wakeWriter s condition) = f s)
    (htimer : ∀ s deadline, f (resetTimer s cx.now deadline) = f s) (s : UdxStreamInner) :
    f (s.pollIncoming cx).1 = f s := by
  rw [pollIncoming_state, handleIncomingMaxRemoteAck_frame f hack hnext hwake htimer]
  exact handled_frame f hpop (handleIncoming_frame f hstats hack hend hdata hgrow) s

/-- A poll takes as many packets as its budget allows. -/
theorem pollIncoming_recvRx (s : UdxStreamInner) (cx : Context) :
    (s.pollIncoming cx).1.recvRx = { s.recvRx with queue := s.recvRx.queue.drop cx.budget } := by
  rw [pollIncoming_state, handleIncomingMaxRemoteAck_recvRx]
  exact handled_invariant (fun t => t.recvRx = (s.drained cx.budget).recvRx) rfl
    fun t packet ht => (handleIncoming_recvRx t packet).trans ht

end AsyncUdx
