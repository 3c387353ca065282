import AsyncUdx.BaseFold
import AsyncUdx.SendProgress

/-! Packets handled in one call or in several. What a batch does to a stream is described on four parts of its state
that do not depend on each other: the packets in flight, which acknowledgements take out; `remote_acked`, which moves
once at the end of a call; the congestion window, which each packet opens by comparing with `remote_acked`; and the
receiving side with the send queue. The first two and the last one do not depend on how the packets are divided into
calls. The window does: within a call, `remote_acked` has not moved yet. -/

namespace AsyncUdx

open UdxStreamInner

variable {now : Nat}

/-! ### Deliveries -/

/-- A call of `poll_incoming` that finds some packets in the channel and has the budget to take them all. -/
structure Delivery where
  cx : Context
  batch : List IncomingPacket
  fits : batch.length ≤ cx.budget

def UdxStreamInner.deliver (s : UdxStreamInner) (delivery : Delivery) : UdxStreamInner :=
  (pollIncoming { s with recvRx := { s.recvRx with queue := delivery.batch } } delivery.cx).1

/-- What is compared after the packets were handled. -/
structure Outcome where
  cwnd : Nat
  inflight : Nat
  remoteAcked : UInt32
  outgoing : SeqMap Packet
  incoming : SeqMap IncomingPacket
  ack : UInt32
  state : StreamState
  sendQueue : List PacketRef

def UdxStreamInner.outcome (s : UdxStreamInner) : Outcome where
  cwnd := s.cwnd
  inflight := s.inflight
  remoteAcked := s.remoteAcked
  outgoing := s.outgoing
  incoming := s.incoming
  ack := s.ack
  state := s.state
  sendQueue := s.sendQueue

/-! ### The packets in flight -/

/-- The packets in flight or waiting, and the bytes in flight. -/
abbrev Flight := SeqMap Packet × Nat

def UdxStreamInner.flight (s : UdxStreamInner) : Flight := (s.outgoing, s.inflight)

namespace Flight

def ack (v : Flight) (i : UInt32) : Flight :=
  match v.1.lookup i with
  | some packet => (v.1.erase i, if packet.waiting then v.2 else usizeSub v.2 packet.len)
  | none => v

/-- No packet is longer than a datagram. -/
def Sized (v : Flight) : Prop := ∀ k packet, v.1.lookup k = some packet → packet.len ≤ udxMtu

theorem ack_none {v : Flight} {i : UInt32} (h : v.1.lookup i = none) : v.ack i = v := by
  rw [ack, h]

theorem ack_some {v : Flight} {i : UInt32} {packet : Packet} (h : v.1.lookup i = some packet) :
    v.ack i = (v.1.erase i, if packet.waiting then v.2 else usizeSub v.2 packet.len) := by
  rw [ack, h]

theorem ack_lookup_ne (v : Flight) {i j : UInt32} (h : j ≠ i) : (v.ack i).1.lookup j = v.1.lookup j := by
  unfold ack
  split
  · exact AList.lookup_erase_ne h
  · rfl

theorem ack_lookup_self (v : Flight) (i : UInt32) : (v.ack i).1.lookup i = none := by
  cases h : v.1.lookup i with
  | none => rw [ack_none h, h]
  | some packet =>
      rw [ack_some h]
      exact AList.lookup_erase i v.1

theorem ack_sized (v : Flight) (i : UInt32) (hv : v.Sized) : (v.ack i).Sized := by
  intro k packet hlookup
  by_cases hk : k = i
  · rw [hk, ack_lookup_self] at hlookup
    cases hlookup
  · rw [ack_lookup_ne v hk] at hlookup
    exact hv k packet hlookup

theorem usizeSub_comm {a b : Nat} (h : a + b ≤ 2 ^ 64) (x : Nat) :
    usizeSub (usizeSub x a) b = usizeSub (usizeSub x b) a := by
  unfold usizeSub
  split_ifs <;> omega

/-- Two acknowledgements commute, also where the count of the bytes in flight wraps. -/
theorem ack_comm (v : Flight) (i j : UInt32) (hv : v.Sized) : (v.ack i).ack j = (v.ack j).ack i := by
  by_cases hij : i = j
  · rw [hij]
  have hi := ack_lookup_ne v hij
  have hj := ack_lookup_ne v (Ne.symm hij)
  cases hfirst : v.1.lookup i with
  | none => rw [ack_none hfirst, ack_none (hi.trans hfirst)]
  | some packet =>
      cases hsecond : v.1.lookup j with
      | none => rw [ack_none hsecond, ack_none (hj.trans hsecond)]
      | some other =>
          have hlen : packet.len + other.len ≤ 2 ^ 64 := by
            have hpacket := hv i packet hfirst
            have hother := hv j other hsecond
            unfold udxMtu at hpacket hother
            omega
          rw [ack_some (hj.trans hsecond), ack_some (hi.trans hfirst), ack_some hfirst, ack_some hsecond]
          dsimp only
          rw [AList.erase_erase, Prod.mk.injEq]
          refine ⟨rfl, ?_⟩
          cases packet.waiting <;> cases other.waiting <;> simp [usizeSub_comm hlen]

theorem ack_idem (v : Flight) (i : UInt32) (_ : v.Sized) : (v.ack i).ack i = v.ack i := ack_none (ack_lookup_self v i)

/-- Which packets are acknowledged matters, not in which order or how often. -/
theorem foldl_ack_eq {v : Flight} (hv : v.Sized) {keys keys' : List UInt32} (h : ∀ k, k ∈ keys ↔ k ∈ keys') :
    keys.foldl ack v = keys'.foldl ack v :=
  Folding.foldl_eq_of_mem_iff ack_sized ack_comm ack_idem h hv

end Flight

theorem ackPacket_flight (s : UdxStreamInner) (i : UInt32) : (s.ackPacket now i).flight = s.flight.ack i := by
  unfold ackPacket
  split
  · rename_i packet h
    exact (Flight.ack_some (v := s.flight) h).symm
  · rename_i h
    exact (Flight.ack_none (v := s.flight) h).symm

theorem ackPackets_flight (keys : List UInt32) (s : UdxStreamInner) :
    (keys.foldl (fun s i => s.ackPacket now i) s).flight = keys.foldl Flight.ack s.flight := by
  induction keys generalizing s with
  | nil => rfl
  | cons i rest ih => rw [List.foldl_cons, List.foldl_cons, ih, ackPacket_flight]

theorem ackLoop_flight (n : Nat) (s : UdxStreamInner) (hn : s.remoteAcked.toNat + n < 2 ^ 32) :
    (ackLoop now n s).flight = ((List.range' s.remoteAcked.toNat n).map UInt32.ofNat).foldl Flight.ack s.flight := by
  induction n generalizing s with
  | zero => rfl
  | succ n ih =>
      have hnext : (s.ackNext now).remoteAcked.toNat = s.remoteAcked.toNat + 1 := by
        rw [ackNext_remoteAcked, Counter.toNat_succ (by omega)]
      have hflight : (s.ackNext now).flight = s.flight.ack s.remoteAcked := by
        rw [ackNext, ackPacket_flight, Counter.succ_sub_one]
        rfl
      rw [ackLoop, ih _ (by omega), hnext, hflight, List.range'_succ, List.map_cons, List.foldl_cons,
        UInt32.ofNat_toNat]

theorem handleIncomingMaxRemoteAck_flight (s : UdxStreamInner) (ack : UInt32) :
    (s.handleIncomingMaxRemoteAck now ack).flight = (Counter.range s.remoteAcked ack).foldl Flight.ack s.flight := by
  unfold handleIncomingMaxRemoteAck
  split
  · rename_i hle
    rw [UInt32.le_iff_toNat_le] at hle
    rw [Counter.range, Nat.sub_eq_zero_of_le hle]
    rfl
  · have hack := ack.toNat_lt
    have hcursor := s.remoteAcked.toNat_lt
    exact ackLoop_flight _ s (by omega)

/-! ### The receiving side -/

/-- A stream of which only the receiving side and what its packets are built from is kept. -/
def UdxStreamInner.receiver (s : UdxStreamInner) : UdxStreamInner :=
  { UdxStreamInner.connect 0 s.remoteAddr s.remoteId 0 with
    incoming := s.incoming
    ack := s.ack
    readCursor := s.readCursor
    seq := s.seq
    sendQueue := s.sendQueue
    state := s.state
    error := s.error }

theorem ackPacket_receiver (s : UdxStreamInner) (i : UInt32) : (s.ackPacket now i).receiver = s.receiver := by
  unfold ackPacket
  split <;> rfl

/-- The receiving side after END and DATA depends on the receiving side before. -/
theorem parts_receiver {s t : UdxStreamInner} (h : s.receiver = t.receiver) (packet : IncomingPacket) :
    ((s.endPart packet).dataPart packet).receiver = ((t.endPart packet).dataPart packet).receiver := by
  have hend : ∀ s : UdxStreamInner, s.handleIncomingEnd.receiver = s.receiver.handleIncomingEnd.receiver := fun _ => rfl
  have hdata : ∀ s : UdxStreamInner,
      (s.handleIncomingData packet).receiver = (s.receiver.handleIncomingData packet).receiver := fun _ => rfl
  have hended : (s.endPart packet).receiver = (t.endPart packet).receiver := by
    unfold endPart
    split
    · rw [hend s, hend t, h]
    · exact h
  rw [dataPart, dataPart]
  split
  · rw [hdata, hdata (t.endPart packet), hended]
  · exact hended

/-- The receiving side after a packet. -/
def UdxStreamInner.received (s : UdxStreamInner) (packet : IncomingPacket) : UdxStreamInner :=
  ((s.endPart packet).dataPart packet).receiver

/-! ### Batches on the parts -/

/-- The parts of a stream that handling packets concerns. -/
@[ext]
structure BatchState where
  flight : Flight
  remoteAcked : UInt32
  seq : UInt32
  cwnd : Nat
  receiver : UdxStreamInner

def UdxStreamInner.batchState (s : UdxStreamInner) : BatchState where
  flight := s.flight
  remoteAcked := s.remoteAcked
  seq := s.seq
  cwnd := s.cwnd
  receiver := s.receiver

/-- How the window opens. -/
def grow (cwnd : Nat) : Nat :=
  if cwnd < ssthresh then cwnd + udxMtu else cwnd + max ((udxMtu * udxMtu) / cwnd) 1

theorem lt_grow (cwnd : Nat) : cwnd < grow cwnd := by
  unfold grow udxMtu
  split <;> omega

/-- A packet opens the window: its acknowledgement is new and not out of bounds. -/
def opens (remoteAcked seq : UInt32) (packet : IncomingPacket) : Bool :=
  decide (remoteAcked < packet.ack) && decide (packet.ack ≤ seq)

namespace BatchState

def handle (b : BatchState) (packet : IncomingPacket) : BatchState where
  flight := packet.sacked.foldl Flight.ack b.flight
  remoteAcked := b.remoteAcked
  seq := b.seq
  cwnd := if opens b.remoteAcked b.seq packet then grow b.cwnd else b.cwnd
  receiver := b.receiver.received packet

def applyAck (b : BatchState) (ack : UInt32) : BatchState :=
  { b with
    flight := (Counter.range b.remoteAcked ack).foldl Flight.ack b.flight
    remoteAcked := Counter.larger b.remoteAcked ack }

/-- A call that handles a batch; the acknowledgements of a closed channel are not applied. -/
def deliver (closed : Bool) (b : BatchState) (batch : List IncomingPacket) : BatchState :=
  let handled := batch.foldl handle b
  if closed then handled else handled.applyAck (largestAck 0 batch)

end BatchState

theorem congestionControl_cwnd (s : UdxStreamInner) (packet : IncomingPacket) :
    (s.congestionControl packet.header).cwnd = if opens s.remoteAcked s.seq packet then grow s.cwnd else s.cwnd := by
  change (if packet.ack > s.seq then s.cwnd else if packet.ack > s.remoteAcked then grow s.cwnd else s.cwnd) = _
  unfold opens
  by_cases hbounds : packet.ack > s.seq
  · rw [if_pos hbounds, decide_eq_false (UInt32.not_le.mpr hbounds), Bool.and_false]
    rfl
  · rw [if_neg hbounds, decide_eq_true (UInt32.not_lt.mp hbounds), Bool.and_true]
    exact if_congr decide_eq_true_iff.symm rfl rfl

/-- **Handling a packet, part by part.** -/
theorem handleIncoming_batchState {s : UdxStreamInner} (hfirewall : s.onFirewall = none) (packet : IncomingPacket) :
    (s.handleIncoming now packet).batchState = s.batchState.handle packet := by
  rw [handleIncoming_parts hfirewall]
  let sacked : UdxStreamInner := packet.sacked.foldl (fun s i => s.ackPacket now i)
    { s with stats := { s.stats with rxPackets := s.stats.rxPackets + 1 } }
  let parts : UdxStreamInner := (sacked.endPart packet).dataPart packet
  have hflight : parts.flight = packet.sacked.foldl Flight.ack s.flight :=
    (parts_frame flight (fun _ => rfl) (fun _ _ => rfl) sacked packet).trans (ackPackets_flight _ _)
  have hreceiver : parts.receiver = s.receiver.received packet :=
    parts_receiver (s := sacked) (t := s.receiver) (ackPackets_frame receiver ackPacket_receiver _ _) packet
  have hacked : parts.remoteAcked = s.remoteAcked :=
    (parts_frame remoteAcked (fun _ => rfl) (fun _ _ => rfl) sacked packet).trans
      (ackPackets_frame remoteAcked ackPacket_remoteAcked _ _)
  have hseq : parts.seq = s.seq :=
    (parts_frame seq (fun _ => rfl) (fun _ _ => rfl) sacked packet).trans (ackPackets_frame seq ackPacket_seq _ _)
  have hcwnd : parts.cwnd = s.cwnd :=
    (parts_frame cwnd (fun _ => rfl) (fun _ _ => rfl) sacked packet).trans (ackPackets_frame cwnd ackPacket_cwnd _ _)
  have hgrown := congestionControl_cwnd parts packet
  rw [hacked, hseq, hcwnd] at hgrown
  exact BatchState.ext hflight hacked hseq hgrown hreceiver

theorem handleIncomingMaxRemoteAck_batchState (s : UdxStreamInner) (ack : UInt32) :
    (s.handleIncomingMaxRemoteAck now ack).batchState = s.batchState.applyAck ack :=
  BatchState.ext (handleIncomingMaxRemoteAck_flight s ack) (handleIncomingMaxRemoteAck_remoteAcked s ack)
    (handleIncomingMaxRemoteAck_frame seq ackPacket_seq (fun _ _ => rfl) (fun _ _ => rfl) (fun _ _ => rfl) s ack)
    (handleIncomingMaxRemoteAck_frame cwnd ackPacket_cwnd (fun _ _ => rfl) (fun _ _ => rfl) (fun _ _ => rfl) s ack)
    (handleIncomingMaxRemoteAck_frame receiver ackPacket_receiver (fun _ _ => rfl) (fun _ _ => rfl) (fun _ _ => rfl) s
      ack)

theorem pollIncoming_batchState {s : UdxStreamInner} (hfirewall : s.onFirewall = none) (cx : Context) :
    (s.pollIncoming cx).1.batchState =
      ((s.consumes cx.budget).foldl BatchState.handle s.batchState).applyAck (appliedAck s cx.budget) := by
  rw [pollIncoming_state, handleIncomingMaxRemoteAck_batchState]
  exact congrArg (BatchState.applyAck · _) (handled_view batchState BatchState.handle (fun _ _ => rfl)
    (fun s packet hfirewall => handleIncoming_batchState hfirewall packet) hfirewall)

theorem BatchState.applyAck_zero (b : BatchState) : b.applyAck 0 = b := by
  rw [applyAck, Counter.larger_zero, Counter.range_of_le UInt32.zero_le]
  rfl

/-- The end of the channel is found by a call: what a closed channel reports only to a call with budget left. -/
def Delivery.seesEnd (d : Delivery) : Prop := d.batch.length < d.cx.budget

theorem deliver_batchState {s : UdxStreamInner} (hfirewall : s.onFirewall = none) (d : Delivery)
    (hend : s.recvRx.closed = true → d.seesEnd) :
    (s.deliver d).batchState = s.batchState.deliver s.recvRx.closed d.batch := by
  have hall : UdxStreamInner.consumes { s with recvRx := { s.recvRx with queue := d.batch } } d.cx.budget = d.batch :=
    List.take_of_length_le d.fits
  rw [deliver, pollIncoming_batchState (by exact hfirewall), appliedAck_eq, hall, BatchState.deliver]
  cases hclosed : s.recvRx.closed with
  | true =>
      have hlt : d.batch.length < d.cx.budget := hend hclosed
      rw [if_pos (by simp [findsClosed, hclosed, hlt])]
      exact BatchState.applyAck_zero _
  | false =>
      rw [if_neg (by simp [findsClosed, hclosed])]
      rfl

theorem deliver_closed (s : UdxStreamInner) (d : Delivery) : (s.deliver d).recvRx.closed = s.recvRx.closed := by
  rw [deliver, pollIncoming_recvRx]

theorem deliver_onFirewall (s : UdxStreamInner) (d : Delivery) : (s.deliver d).onFirewall = s.onFirewall :=
  pollIncoming_frame onFirewall (fun _ _ => rfl) (fun _ _ => rfl) ackPacket_onFirewall (fun _ => rfl) (fun _ _ => rfl)
    (fun _ _ => rfl) (fun _ _ => rfl) (fun _ _ => rfl) (fun _ _ => rfl) _

/-- **Several calls, part by part.** -/
theorem deliveries_batchState (parts : List Delivery) {s : UdxStreamInner} (hfirewall : s.onFirewall = none)
    (hend : s.recvRx.closed = true → ∀ d ∈ parts, d.seesEnd) :
    (parts.foldl deliver s).batchState =
      (parts.map Delivery.batch).foldl (BatchState.deliver s.recvRx.closed) s.batchState := by
  induction parts generalizing s with
  | nil => rfl
  | cons d rest ih =>
      have hrest : (s.deliver d).recvRx.closed = true → ∀ e ∈ rest, e.seesEnd := fun hclosed e he =>
        hend ((deliver_closed s d).symm.trans hclosed) e (List.mem_cons_of_mem _ he)
      rw [List.foldl_cons, ih ((deliver_onFirewall s d).trans hfirewall) hrest, deliver_closed,
        deliver_batchState hfirewall d fun hclosed => hend hclosed d List.mem_cons_self]
      rfl

/-! ### One call and several -/

theorem largestAck_append (remoteAck : UInt32) (first second : List IncomingPacket) :
    largestAck remoteAck (first ++ second) = largestAck (largestAck remoteAck first) second :=
  List.foldl_append

theorem largestAck_lt_iff {remoteAck bound : UInt32} {packets : List IncomingPacket} :
    largestAck remoteAck packets < bound ↔ remoteAck < bound ∧ ∀ packet ∈ packets, packet.ack < bound := by
  induction packets generalizing remoteAck with
  | nil => simp [largestAck]
  | cons packet rest ih =>
      change largestAck (Counter.larger remoteAck packet.ack) rest < bound ↔ _
      rw [ih, Counter.larger_lt_iff, List.forall_mem_cons, and_assoc]

/-- The acknowledgements of a call are collected from zero and compared with `remote_acked` afterwards. -/
theorem larger_largestAck (a b : UInt32) (packets : List IncomingPacket) :
    Counter.larger a (largestAck b packets) = largestAck (Counter.larger a b) packets := by
  induction packets generalizing b with
  | nil => rfl
  | cons packet rest ih =>
      change Counter.larger a (largestAck (Counter.larger b packet.ack) rest) =
        largestAck (Counter.larger (Counter.larger a b) packet.ack) rest
      rw [ih, Counter.larger_assoc]

namespace BatchState

theorem handles_eq (batch : List IncomingPacket) (b : BatchState) :
    batch.foldl handle b =
      { b with
        flight := (batch.flatMap IncomingPacket.sacked).foldl Flight.ack b.flight
        cwnd := grow^[batch.countP (opens b.remoteAcked b.seq)] b.cwnd
        receiver := batch.foldl received b.receiver } := by
  induction batch generalizing b with
  | nil => rfl
  | cons packet rest ih =>
      rw [List.foldl_cons, ih]
      refine BatchState.ext ?_ rfl rfl ?_ rfl
      · simp only [handle, List.flatMap_cons, List.foldl_append]
      · change grow^[rest.countP (opens b.remoteAcked b.seq)]
          (if opens b.remoteAcked b.seq packet then grow b.cwnd else b.cwnd) = _
        rw [List.countP_cons]
        split
        · exact (Function.iterate_succ_apply grow _ _).symm
        · rfl

/-- The packets that calls acknowledge, in their order. -/
def ackedKeys : UInt32 → List (List IncomingPacket) → List UInt32
  | _, [] => []
  | acked, batch :: rest =>
      batch.flatMap IncomingPacket.sacked ++ Counter.range acked (largestAck 0 batch) ++
        ackedKeys (largestAck acked batch) rest

/-- How often calls open the window. -/
def openings (seq : UInt32) : UInt32 → List (List IncomingPacket) → Nat
  | _, [] => 0
  | acked, batch :: rest => batch.countP (opens acked seq) + openings seq (largestAck acked batch) rest

theorem deliveries_eq (batches : List (List IncomingPacket)) (b : BatchState) :
    batches.foldl (deliver false) b =
      { b with
        flight := (ackedKeys b.remoteAcked batches).foldl Flight.ack b.flight
        remoteAcked := largestAck b.remoteAcked batches.flatten
        cwnd := grow^[openings b.seq b.remoteAcked batches] b.cwnd
        receiver := batches.flatten.foldl received b.receiver } := by
  induction batches generalizing b with
  | nil => rfl
  | cons batch rest ih =>
      have hacked : (b.deliver false batch).remoteAcked = largestAck b.remoteAcked batch := by
        rw [deliver, handles_eq]
        change Counter.larger b.remoteAcked (largestAck 0 batch) = _
        rw [larger_largestAck, Counter.larger_zero]
      rw [List.foldl_cons, ih, hacked, deliver, handles_eq]
      refine BatchState.ext ?_ ?_ rfl ?_ ?_
      · simp only [Bool.false_eq_true, if_false, applyAck, ackedKeys, List.foldl_append]
      · exact (largestAck_append _ _ _).symm
      · change grow^[openings b.seq _ rest] (grow^[_] b.cwnd) = _
        rw [← Function.iterate_add_apply, Nat.add_comm]
        rfl
      · exact List.foldl_append.symm

/-- Which packets are acknowledged does not depend on the division into calls. -/
theorem mem_ackedKeys {k acked : UInt32} {batches : List (List IncomingPacket)} :
    k ∈ ackedKeys acked batches ↔
      (∃ packet ∈ batches.flatten, k ∈ packet.sacked) ∨ acked ≤ k ∧ k < largestAck acked batches.flatten := by
  induction batches generalizing acked with
  | nil =>
      have hrange : ¬ (acked ≤ k ∧ k < acked) := fun h => UInt32.not_lt.mpr h.1 h.2
      simp [ackedKeys, largestAck, hrange]
  | cons batch rest ih =>
      have hfirst : largestAck acked batch = Counter.larger acked (largestAck 0 batch) := by
        rw [larger_largestAck, Counter.larger_zero]
      have hgrows := le_largestAck_start (largestAck acked batch) rest.flatten
      rw [ackedKeys, List.mem_append, List.mem_append, ih, Counter.mem_range, List.flatten_cons, largestAck_append,
        List.mem_flatMap]
      have hsplit : (acked ≤ k ∧ k < largestAck 0 batch) ∨
          (largestAck acked batch ≤ k ∧ k < largestAck (largestAck acked batch) rest.flatten) ↔
            acked ≤ k ∧ k < largestAck (largestAck acked batch) rest.flatten := by
        unfold Counter.larger at hfirst
        grind
      grind

/-- Of two calls, each packet of the second one that acknowledges something new acknowledges more than every packet of
the first. -/
def FreshAfter (acked : UInt32) (first second : List IncomingPacket) : Prop :=
  ∀ packet ∈ first, ∀ later ∈ second, acked < later.ack → packet.ack < later.ack

instance decidableFreshAfter (acked : UInt32) : DecidableRel (FreshAfter acked) := fun first second =>
  inferInstanceAs (Decidable (∀ packet ∈ first, ∀ later ∈ second, acked < later.ack → packet.ack < later.ack))

theorem opens_iff {acked seq : UInt32} {packet : IncomingPacket} (hseq : packet.ack ≤ seq) :
    opens acked seq packet = true ↔ acked < packet.ack := by
  rw [opens, decide_eq_true hseq, Bool.and_true, decide_eq_true_iff]

theorem opens_of_le {acked later seq : UInt32} (hle : acked ≤ later) (packet : IncomingPacket)
    (h : opens later seq packet = true) : opens acked seq packet = true := by
  rw [opens, Bool.and_eq_true, decide_eq_true_iff] at h ⊢
  exact ⟨UInt32.lt_of_le_of_lt hle h.1, h.2⟩

theorem openings_le (seq acked : UInt32) (batches : List (List IncomingPacket)) :
    openings seq acked batches ≤ batches.flatten.countP (opens acked seq) := by
  induction batches generalizing acked with
  | nil => exact Nat.le_refl 0
  | cons batch rest ih =>
      rw [openings, List.flatten_cons, List.countP_append]
      refine Nat.add_le_add_left ((ih _).trans ?_) _
      exact List.countP_mono_left fun packet _ => opens_of_le (le_largestAck_start acked batch) packet

/-- Packets open the window after a batch as they did before it exactly if what they acknowledge is new then as well. -/
theorem opens_after_iff {seq acked : UInt32} {batch : List IncomingPacket} {rest : List (List IncomingPacket)}
    (hseq : ∀ packet ∈ rest.flatten, packet.ack ≤ seq) :
    (∀ packet ∈ rest.flatten, opens acked seq packet = true → opens (largestAck acked batch) seq packet = true) ↔
      ∀ other ∈ rest, FreshAfter acked batch other := by
  constructor
  · intro h other hother packet hpacket next hnext hnew
    have hmem : next ∈ rest.flatten := List.mem_flatten.mpr ⟨other, hother, hnext⟩
    have hopens := h next hmem ((opens_iff (hseq next hmem)).mpr hnew)
    exact (largestAck_lt_iff.mp ((opens_iff (hseq next hmem)).mp hopens)).2 packet hpacket
  · intro h next hmem hopens
    obtain ⟨other, hother, hnext⟩ := List.mem_flatten.mp hmem
    have hnew := (opens_iff (hseq next hmem)).mp hopens
    exact (opens_iff (hseq next hmem)).mpr
      (largestAck_lt_iff.mpr ⟨hnew, fun packet hpacket => h other hother packet hpacket next hnext hnew⟩)

/-- What is new depends on `remote_acked` only as far as the packets can tell. -/
theorem FreshAfter.congr {acked later : UInt32} {first second : List IncomingPacket}
    (hsame : ∀ packet ∈ second, later < packet.ack ↔ acked < packet.ack) :
    FreshAfter later first second ↔ FreshAfter acked first second := by
  constructor
  · exact fun h packet hpacket next hnext hnew => h packet hpacket next hnext ((hsame next hnext).mpr hnew)
  · exact fun h packet hpacket next hnext hnew => h packet hpacket next hnext ((hsame next hnext).mp hnew)

/-- **The window opens as often as in one call** exactly if no call repeats what an earlier one acknowledged. -/
theorem openings_eq_iff {seq acked : UInt32} {batches : List (List IncomingPacket)}
    (hseq : ∀ packet ∈ batches.flatten, packet.ack ≤ seq) :
    openings seq acked batches = batches.flatten.countP (opens acked seq) ↔ batches.Pairwise (FreshAfter acked) := by
  induction batches generalizing acked with
  | nil => exact ⟨fun _ => List.Pairwise.nil, fun _ => rfl⟩
  | cons batch rest ih =>
      let later : UInt32 := largestAck acked batch
      have hrest : ∀ packet ∈ rest.flatten, packet.ack ≤ seq := fun packet hpacket =>
        hseq packet (List.mem_append_right batch hpacket)
      have hmono : ∀ packet ∈ rest.flatten, opens later seq packet = true → opens acked seq packet = true :=
        fun packet _ => opens_of_le (le_largestAck_start acked batch) packet
      have hrestLe := openings_le seq later rest
      have hlaterLe := List.countP_mono_left hmono
      -- both inequalities of the chain from the calls to the one call have to be equalities
      have hchain : openings seq acked (batch :: rest) = (batch :: rest).flatten.countP (opens acked seq) ↔
          openings seq later rest = rest.flatten.countP (opens later seq) ∧
            rest.flatten.countP (opens later seq) = rest.flatten.countP (opens acked seq) := by
        rw [List.flatten_cons, List.countP_append]
        change batch.countP (opens acked seq) + openings seq later rest = _ ↔ _
        omega
      rw [hchain, ih hrest, Folding.countP_eq_iff hmono, List.pairwise_cons, ← opens_after_iff hrest, and_comm]
      refine and_congr_right fun hagree => List.Pairwise.iff_of_mem fun {first second} _ hsecond => ?_
      refine FreshAfter.congr fun next hnext => ?_
      have hmem : next ∈ rest.flatten := List.mem_flatten.mpr ⟨second, hsecond, hnext⟩
      rw [← opens_iff (hrest next hmem), ← opens_iff (hrest next hmem)]
      exact ⟨hmono next hmem, hagree next hmem⟩

theorem deliveries_closed (batches : List (List IncomingPacket)) (b : BatchState) :
    batches.foldl (deliver true) b = b.deliver true batches.flatten := by
  induction batches generalizing b with
  | nil => rfl
  | cons batch rest ih =>
      rw [List.foldl_cons, ih, List.flatten_cons, deliver, deliver, deliver, List.foldl_append]
      rfl

/-- **All but the window is the same** in one call and in several. -/
theorem deliveries_agree {b : BatchState} (hsized : b.flight.Sized) (closed : Bool)
    (batches : List (List IncomingPacket)) :
    batches.foldl (deliver closed) b =
      { b.deliver closed batches.flatten with cwnd := (batches.foldl (deliver closed) b).cwnd } := by
  cases closed with
  | true => rw [deliveries_closed]
  | false =>
      have hone : b.deliver false batches.flatten = [batches.flatten].foldl (deliver false) b := rfl
      have hkeys : ∀ k, k ∈ ackedKeys b.remoteAcked batches ↔ k ∈ ackedKeys b.remoteAcked [batches.flatten] := by
        intro k
        rw [mem_ackedKeys, mem_ackedKeys, List.flatten_singleton]
      rw [hone, deliveries_eq, deliveries_eq, List.flatten_singleton, Flight.foldl_ack_eq hsized hkeys]

theorem deliveries_cwnd_iff {b : BatchState} (closed : Bool) {batches : List (List IncomingPacket)}
    (hseq : ∀ packet ∈ batches.flatten, packet.ack ≤ b.seq) :
    (b.deliver closed batches.flatten).cwnd = (batches.foldl (deliver closed) b).cwnd ↔
      closed = true ∨ batches.Pairwise (FreshAfter b.remoteAcked) := by
  cases closed with
  | true => simp [deliveries_closed]
  | false =>
      have hone : b.deliver false batches.flatten = [batches.flatten].foldl (deliver false) b := rfl
      rw [hone, deliveries_eq, deliveries_eq, ← openings_eq_iff hseq]
      dsimp only
      rw [Folding.iterate_eq_iff lt_grow]
      simp only [openings, Nat.add_zero, Bool.false_eq_true, false_or]
      exact eq_comm

/-- What of the parts is compared. -/
def outcome (b : BatchState) : Outcome where
  cwnd := b.cwnd
  inflight := b.flight.2
  remoteAcked := b.remoteAcked
  outgoing := b.flight.1
  incoming := b.receiver.incoming
  ack := b.receiver.ack
  state := b.receiver.state
  sendQueue := b.receiver.sendQueue

end BatchState

theorem outcome_eq (s : UdxStreamInner) : s.outcome = s.batchState.outcome := rfl

theorem UdxStream.Reachable.flight_sized {u : UdxStream} (hu : u.Reachable) : u.inner.flight.Sized :=
  fun k packet hlookup => (sized_invariant.invariant.of_reachable hu k packet hlookup).2

/-- **When batching does not show.** Packets handled in one call and in several leave the same stream exactly if the
channel is closed, so that no acknowledgement is applied, or no call repeats an acknowledgement that was new before the
first of them. -/
theorem batching_outcome_iff {u : UdxStream} (hu : u.Reachable) (whole : Delivery) (parts : List Delivery)
    (hsplit : whole.batch = (parts.map Delivery.batch).flatten)
    (hseq : ∀ packet ∈ whole.batch, packet.ack ≤ u.inner.seq)
    (hend : u.inner.recvRx.closed = true → whole.seesEnd ∧ ∀ d ∈ parts, d.seesEnd) :
    (u.inner.deliver whole).outcome = (parts.foldl UdxStreamInner.deliver u.inner).outcome ↔
      u.inner.recvRx.closed = true ∨
        (parts.map Delivery.batch).Pairwise (BatchState.FreshAfter u.inner.remoteAcked) := by
  have hfirewall := hu.onFirewall
  rw [hsplit] at hseq
  rw [outcome_eq, outcome_eq, deliver_batchState hfirewall whole fun h => (hend h).1,
    deliveries_batchState parts hfirewall fun h => (hend h).2, hsplit]
  refine Iff.trans ?_ (BatchState.deliveries_cwnd_iff (b := u.inner.batchState) u.inner.recvRx.closed hseq)
  constructor
  · exact congrArg Outcome.cwnd
  · intro hcwnd
    rw [BatchState.deliveries_agree hu.flight_sized, ← hcwnd]

/-- A call that finds state packets with these acknowledgements, with room for ten of them. -/
def acksDelivered (acks : List UInt32) (h : acks.length ≤ 10) : Delivery where
  cx := ⟨0, 0, 0, 10, 10⟩
  batch := acks.map fun ack => ⟨⟨0, 0, 1, 0xffffffff, 0, ack⟩, [], 0, ⟨.v4 0, 2⟩⟩
  fits := by simpa using h

/-- Two packets in flight, acknowledged one after the other. -/
theorem batching_outcome_in_order :
    let s := ((UdxStream.connect 0 ⟨.v4 0, 2⟩ 2 1).run [.call (.write 0 [1]), .call (.write 0 [2])]).inner
    s.inflight = 42 ∧ (s.deliver (acksDelivered [1, 2] (by decide))).outcome =
      ([acksDelivered [1] (by decide), acksDelivered [2] (by decide)].foldl UdxStreamInner.deliver s).outcome := by
  refine ⟨by decide, (batching_outcome_iff
    (u := (UdxStream.connect 0 ⟨.v4 0, 2⟩ 2 1).run [.call (.write 0 [1]), .call (.write 0 [2])])
    ⟨0, ⟨.v4 0, 2⟩, 2, 1, _, rfl⟩ _ _ rfl (by decide) ?_).mpr (Or.inr (by decide))⟩
  intro h
  exact absurd h (by decide)

/-- One packet in flight, acknowledged twice: the window opens twice in one call and once in two calls. -/
theorem duplicate_ack_opens_twice :
    let u := (UdxStream.connect 0 ⟨.v4 0, 2⟩ 2 1).run [.call (.write 0 [1])]
    let once := u.inner.deliver (acksDelivered [1, 1] (by decide))
    let twice := [acksDelivered [1] (by decide), acksDelivered [1] (by decide)].foldl UdxStreamInner.deliver u.inner
    u.Reachable ∧ u.inner.seq = 1 ∧ u.inner.cwnd = 2800 ∧ once.cwnd = 5600 ∧ twice.cwnd = 4200 ∧
      once.outcome ≠ twice.outcome := by
  intro u once twice
  have honce : once.cwnd = 5600 := by decide
  have htwice : twice.cwnd = 4200 := by decide
  refine ⟨⟨0, ⟨.v4 0, 2⟩, 2, 1, _, rfl⟩, by decide, by decide, honce, htwice, fun h => ?_⟩
  have hcwnd : once.cwnd = twice.cwnd := congrArg Outcome.cwnd h
  rw [honce, htwice] at hcwnd
  cases hcwnd

end AsyncUdx
