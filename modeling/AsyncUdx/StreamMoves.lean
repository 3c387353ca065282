import AsyncUdx.BaseRun
import AsyncUdx.Stream

/-! What the functions of a stream can do to its state, said once. A `Micro` is one elementary change,
with the condition under which the code makes it; every function of the stream is a chain of them. An
invariant is then proved for each elementary change, and follows for every function and every run.

Creating a data packet, reading, terminating and completing a stream are `Move`s of their own, so that a chain
of elementary changes is known to do none of that. The relation takes the property `ok` known of the packets that are
handled and the time `now` at which they are, so that the same chain serves an arbitrary peer and a correct
one; a chain for an `ok` that no packet has handles no packet. -/

namespace AsyncUdx

open Relation UdxStreamInner

/-- One elementary change of a stream. -/
inductive Micro (ok : IncomingPacket → Prop) (now : Nat) : UdxStreamInner → UdxStreamInner → Prop
  | quiet (s : UdxStreamInner) (queue : List IncomingPacket) (readWaker writeWaker driveWaker : Option Waker)
      (woken : List Waker) (txPackets rxBytes rxPackets : Nat)
      (hqueue : ∀ packet ∈ queue, packet ∈ s.recvRx.queue) :
      Micro ok now s { s with
        recvRx := { s.recvRx with queue := queue }
        readWaker := readWaker
        writeWaker := writeWaker
        driveWaker := driveWaker
        stats := { s.stats with txPackets := txPackets, rxBytes := rxBytes, rxPackets := rxPackets }
        ghost := { s.ghost with woken := woken } }
  | ackNext (s : UdxStreamInner) (packet : IncomingPacket) (hok : ok packet)
      (hlt : s.remoteAcked < packet.ack) : Micro ok now s (s.ackNext now)
  | rearm (s : UdxStreamInner) : Micro ok now s (s.resetTimer now (now + s.rto))
  | sack (s : UdxStreamInner) (packet : IncomingPacket) (i : UInt32) (hok : ok packet)
      (htype : packet.hasType udxHeaderSack = true) : Micro ok now s (s.ackPacket now i)
  | backOff (s : UdxStreamInner) (hdue : s.rtoTimeout ≤ now) (hout : s.remoteAcked ≠ s.seq) :
      Micro ok now s (s.backOff now)
  | park (s : UdxStreamInner) (i : UInt32) (packet : Packet) (hlookup : s.outgoing.lookup i = some packet)
      (hwaiting : packet.waiting = false) (hmax : packet.transmits ≤ udxMaxTransmits)
      (hdue : s.ghost.deadlineBefore ≤ now) :
      Micro ok now s (s.park now i packet)
  | requeue (s : UdxStreamInner) (i : UInt32) (packet : Packet) (hlookup : s.outgoing.lookup i = some packet)
      (hwaiting : packet.waiting = true) (hroom : s.inflight + packet.len ≤ s.cwnd) :
      Micro ok now s (s.requeue now i packet)
  | mark (s : UdxStreamInner) (i : UInt32) (packet : Packet) (sent : Nat)
      (hlookup : s.outgoing.lookup i = some packet) :
      Micro ok now s { s with outgoing := s.outgoing.insert i { packet with timeSent := some sent } }
  | finish (s : UdxStreamInner) (packet : IncomingPacket) (hok : ok packet)
      (htype : packet.hasType udxHeaderEnd = true) : Micro ok now s s.handleIncomingEnd
  | data (s : UdxStreamInner) (packet : IncomingPacket) (hok : ok packet)
      (htype : packet.hasType udxHeaderData = true) : Micro ok now s (s.handleIncomingData packet)
  | grow (s : UdxStreamInner) (packet : IncomingPacket) (hok : ok packet) :
      Micro ok now s (s.congestionControl packet.header)
  | transmit (s : UdxStreamInner) (rest : List PacketRef) (sets : List PacketSet)
      (hrest : ∀ packet ∈ rest, packet ∈ s.sendQueue)
      (hsets : ∀ set ∈ sets, ∀ packet ∈ set.packets, packet ∈ s.sendQueue) :
      Micro ok now s { s with
        sendQueue := rest
        sendTx := { s.sendTx with events := s.sendTx.events ++ sets.map .transmit } }

/-- A chain of elementary changes. -/
abbrev Chain (ok : IncomingPacket → Prop) (now : Nat) := ReflTransGen (Micro ok now)

/-- What a call can do to a stream: an elementary change, the creation of a data packet, the delivery of a packet
or a part of it to the reader, a termination, a change of the slot that holds the sender of the close future,
the completion of the driver, or the loss of the socket's ends of the channels. -/
inductive Move (ok : IncomingPacket → Prop) (now : Nat) : UdxStreamInner → UdxStreamInner → Prop
  | micro {s t : UdxStreamInner} (h : Micro ok now s t) : Move ok now s t
  | send (s : UdxStreamInner) (body : List UInt8) (herror : s.error = none) (hbody : body ≠ [])
      (hlen : body.length ≤ udxMaxDataSize) (hroom : s.inflight + body.length ≤ s.cwnd) :
      Move ok now s (s.pushData now body)
  | readPart (s : UdxStreamInner) (packet : IncomingPacket) (remaining : Nat)
      (hlookup : s.incoming.lookup s.readCursor = some packet)
      (hlong : remaining < usizeSub packet.buf.length packet.readOffset) :
      Move ok now s (s.readPart packet remaining)
  | readWhole (s : UdxStreamInner) (packet : IncomingPacket)
      (hlookup : s.incoming.lookup s.readCursor = some packet) :
      Move ok now s (s.readWhole packet)
  | terminate (s : UdxStreamInner) (error : UdxError) : Move ok now s (s.terminate error)
  | slot (s : UdxStreamInner) (onClose : Option Nat) (resolved : List Nat) :
      Move ok now s { s with onClose := onClose, ghost := { s.ghost with resolved := resolved } }
  | complete (s : UdxStreamInner) (hdone : s.closedAndDrained = true) : Move ok now s s.complete
  | gone (s : UdxStreamInner) (recvClosed sendClosed : Bool) :
      Move ok now s { s with
        recvRx := { s.recvRx with closed := recvClosed }
        sendTx := { s.sendTx with closed := sendClosed } }

abbrev Moves (ok : IncomingPacket → Prop) (now : Nat) := ReflTransGen (Move ok now)

variable {ok : IncomingPacket → Prop} {now : Nat}

theorem Chain.moves {s t : UdxStreamInner} (h : Chain ok now s t) : Moves ok now s t :=
  ReflTransGen.mono (fun _ _ => Move.micro) s t h

/-! ### State packets -/

/-- The packet `send_state_packet` puts on the queue. -/
def UdxStreamInner.statePacket (s : UdxStreamInner) : Packet :=
  s.createPacket (if s.error.isSome then 0 ||| udxHeaderEnd else 0) []

theorem statePacket_body (s : UdxStreamInner) : s.statePacket.body = [] := Packet.new_body _ _ _

/-- A state packet carries no flag but END. -/
theorem statePacket_typ (s : UdxStreamInner) :
    s.statePacket.header.typ = 0 ∨ s.statePacket.header.typ = udxHeaderEnd := by
  have htyp : s.statePacket.header.typ =
      if s.state.isLocalClosed then (if s.error.isSome then 0 ||| udxHeaderEnd else 0) &&& udxHeaderEnd
      else if s.error.isSome then 0 ||| udxHeaderEnd else 0 := rfl
  rw [htyp]
  cases s.state.isLocalClosed <;> cases s.error.isSome <;> decide

/-! ### The loops are chains -/

theorem Micro.chain {s t : UdxStreamInner} (h : Micro ok now s t) : Chain ok now s t := .single h

theorem timeoutLoop_chain (keys : List UInt32) (s : UdxStreamInner) (hdue : s.ghost.deadlineBefore ≤ now) :
    Chain ok now s (timeoutLoop now keys s).1 := by
  induction keys generalizing s with
  | nil => exact .refl
  | cons i rest ih =>
      rw [timeoutLoop]
      split
      · exact ih s hdue
      · rename_i packet hlookup
        split_ifs with hwaiting hmax
        · exact ih s hdue
        · exact .refl
        · have hfalse : packet.waiting = false := by simpa using hwaiting
          exact .head (.park s i packet hlookup hfalse (by omega) hdue) (ih _ hdue)

theorem flushLoop_chain (keys : List UInt32) (s : UdxStreamInner) :
    Chain ok now s (flushLoop now keys s) := by
  induction keys generalizing s with
  | nil => exact .refl
  | cons i rest ih =>
      rw [flushLoop]
      split
      · exact ih s
      · rename_i packet hlookup
        split_ifs with hwaiting hroom
        · exact ih s
        · exact .refl
        · have htrue : packet.waiting = true := by simpa using hwaiting
          exact .head (.requeue s i packet hlookup htrue (by omega)) (ih _)

theorem pollCheckTimeouts_chain (s : UdxStreamInner) (cx : Context) :
    Chain ok cx.now s (s.pollCheckTimeouts cx).1 := by
  unfold pollCheckTimeouts
  split_ifs with hearly hout
  · exact .refl
  · exact .refl
  · have hdue : s.rtoTimeout ≤ cx.now := by omega
    exact .head (.backOff s hdue hout) (timeoutLoop_chain _ _ hdue)

theorem sackRange_chain {packet : IncomingPacket} (hok : ok packet)
    (htype : packet.hasType udxHeaderSack = true) (keys : List UInt32) (s : UdxStreamInner) :
    Chain ok now s (keys.foldl (fun s i => s.ackPacket now i) s) := by
  induction keys generalizing s with
  | nil => exact .refl
  | cons i rest ih => exact .head (.sack s packet i hok htype) (ih _)

theorem sackLoop_chain {packet : IncomingPacket} (hok : ok packet)
    (htype : packet.hasType udxHeaderSack = true) (fuel i : Nat) (s : UdxStreamInner) :
    Chain ok now s (sackLoop now packet.buf fuel i s) := by
  induction fuel generalizing i s with
  | zero => exact .refl
  | succ fuel ih =>
      rw [sackLoop]
      split_ifs with hroom
      · exact (sackRange_chain hok htype _ s).trans (ih _ _)
      · exact .refl

theorem ackPacket_remoteAcked (s : UdxStreamInner) (i : UInt32) :
    (s.ackPacket now i).remoteAcked = s.remoteAcked := by
  unfold ackPacket
  split <;> rfl

theorem ackNext_remoteAcked (s : UdxStreamInner) : (s.ackNext now).remoteAcked = s.remoteAcked + 1 :=
  ackPacket_remoteAcked _ _

/-- The acknowledgement loop advances one number at a time, each below the acknowledgement. -/
theorem ackLoop_chain {packet : IncomingPacket} (hok : ok packet) (n : Nat) (s : UdxStreamInner)
    (hn : s.remoteAcked.toNat + n ≤ packet.ack.toNat) : Chain ok now s (ackLoop now n s) := by
  induction n generalizing s with
  | zero => exact .refl
  | succ n ih =>
      have hlt : s.remoteAcked < packet.ack := UInt32.lt_iff_toNat_lt.mpr (by omega)
      have hnext : (s.ackNext now).remoteAcked.toNat = s.remoteAcked.toNat + 1 := by
        rw [ackNext_remoteAcked, Counter.toNat_succ_of_lt hlt]
      exact .head (.ackNext s packet hok hlt) (ih _ (by omega))

theorem wakeWriter_micro (s : UdxStreamInner) (condition : Bool) : Micro ok now s (s.wakeWriter condition) :=
  .quiet s s.recvRx.queue s.readWaker _ s.driveWaker _ s.stats.txPackets s.stats.rxBytes
    s.stats.rxPackets fun _ h => h

/-- A branch without an alternative is a chain when its body is. -/
theorem ite_chain {p : Prop} [Decidable p] {s t : UdxStreamInner} (h : p → Chain ok now s t) :
    Chain ok now s (if p then t else s) := by
  split
  · exact h ‹_›
  · exact .refl

theorem handleIncomingMaxRemoteAck_chain (s : UdxStreamInner) (ack : UInt32)
    (hack : ack = 0 ∨ ∃ packet, ok packet ∧ packet.ack = ack) :
    Chain ok now s (s.handleIncomingMaxRemoteAck now ack) := by
  unfold handleIncomingMaxRemoteAck
  split
  · exact .refl
  · have hlt : s.remoteAcked < ack := UInt32.not_le.mp ‹_›
    have hltNat := UInt32.lt_iff_toNat_lt.mp hlt
    rcases hack with rfl | ⟨packet, hok, rfl⟩
    · exact absurd hlt UInt32.not_lt_zero
    have hloop : Chain ok now s (ackLoop now (packet.ack.toNat - s.remoteAcked.toNat) s) :=
      ackLoop_chain hok _ s (by omega)
    exact (hloop.tail (wakeWriter_micro _ _)).tail (.rearm _)

/-! ### Handling packets -/

theorem handleIncoming_chain {packet : IncomingPacket} (hok : ok packet) (s : UdxStreamInner) :
    Chain ok now s (s.handleIncoming now packet) := by
  unfold handleIncoming
  split
  · exact .refl
  · have hcount : Micro ok now s { s with stats := { s.stats with rxPackets := s.stats.rxPackets + 1 } } :=
      .quiet s s.recvRx.queue s.readWaker s.writeWaker s.driveWaker s.ghost.woken s.stats.txPackets
        s.stats.rxBytes _ fun _ h => h
    -- the flags are handled one after the other, each on the state the one before has left
    refine .tail ?_ (.grow _ packet hok)
    refine .trans ?_ (ite_chain fun htype => (Micro.data _ packet hok htype).chain)
    refine .trans ?_ (ite_chain fun htype => (Micro.finish _ packet hok htype).chain)
    exact .head hcount (ite_chain fun htype => sackLoop_chain hok htype _ _ _)

/-- What acknowledging a packet keeps, the ranges of a SACK keep. -/
theorem handleIncomingSacks_invariant {Inv : UdxStreamInner → Prop} (hack : ∀ s i, Inv s → Inv (ackPacket s now i))
    {s : UdxStreamInner} (packet : IncomingPacket) (hs : Inv s) : Inv (s.handleIncomingSacks now packet) := by
  have hrange : ∀ (keys : List UInt32) (s : UdxStreamInner), Inv s →
      Inv (keys.foldl (fun s i => s.ackPacket now i) s) := by
    intro keys
    induction keys with
    | nil => exact fun _ hs => hs
    | cons i rest ih => exact fun s hs => ih _ (hack s i hs)
  have hloop : ∀ (fuel i : Nat) (s : UdxStreamInner), Inv s → Inv (sackLoop now packet.buf fuel i s) := by
    intro fuel
    induction fuel with
    | zero => exact fun _ _ hs => hs
    | succ fuel ih =>
        intro i s hs
        rw [sackLoop]
        split
        · exact ih _ _ (hrange _ s hs)
        · exact hs
  exact hloop _ _ s hs

/-- What every part of `handle_incoming` keeps, handling a packet keeps. -/
theorem handleIncoming_invariant {Inv : UdxStreamInner → Prop}
    (hstats : ∀ s stats, Inv s → Inv { s with stats := stats })
    (hack : ∀ s i, Inv s → Inv (ackPacket s now i)) (hend : ∀ s, Inv s → Inv (handleIncomingEnd s))
    (hdata : ∀ s packet, Inv s → Inv (handleIncomingData s packet))
    (hgrow : ∀ s header, Inv s → Inv (congestionControl s header)) {s : UdxStreamInner} (packet : IncomingPacket)
    (hs : Inv s) : Inv (s.handleIncoming now packet) := by
  have hite : ∀ {p : Prop} [Decidable p] {s t : UdxStreamInner}, Inv s → (Inv s → Inv t) →
      Inv (if p then t else s) := by
    intro p _ s t hs h
    split
    · exact h hs
    · exact hs
  unfold handleIncoming
  split
  · exact hs
  · exact hgrow _ _ (hite (hite (hite (hstats s _ hs) (handleIncomingSacks_invariant hack packet)) (hend _))
      (hdata _ packet))

/-- What acknowledging a packet leaves alone, the ranges of a SACK leave alone. -/
theorem handleIncomingSacks_frame {β : Type} (f : UdxStreamInner → β) (hack : ∀ s i, f (ackPacket s now i) = f s)
    (s : UdxStreamInner) (packet : IncomingPacket) : f (s.handleIncomingSacks now packet) = f s := by
  let Same (t : UdxStreamInner) : Prop := f t = f s
  have hkeep : ∀ t i, Same t → Same (ackPacket t now i) := fun t i ht => (hack t i).trans ht
  exact handleIncomingSacks_invariant hkeep packet rfl

/-- What every part of `handle_incoming` leaves alone, handling a packet leaves alone. -/
theorem handleIncoming_frame {β : Type} (f : UdxStreamInner → β)
    (hstats : ∀ s stats, f { s with stats := stats } = f s)
    (hack : ∀ s i, f (ackPacket s now i) = f s) (hend : ∀ s, f (handleIncomingEnd s) = f s)
    (hdata : ∀ s packet, f (handleIncomingData s packet) = f s)
    (hgrow : ∀ s header, f (congestionControl s header) = f s) (s : UdxStreamInner) (packet : IncomingPacket) :
    f (s.handleIncoming now packet) = f s := by
  let Same (t : UdxStreamInner) : Prop := f t = f s
  have hkeep : ∀ t i, Same t → Same (ackPacket t now i) := fun t i ht => (hack t i).trans ht
  exact handleIncoming_invariant (fun t stats ht => (hstats t stats).trans ht) hkeep (fun t ht => (hend t).trans ht)
    (fun t packet ht => (hdata t packet).trans ht) (fun t header ht => (hgrow t header).trans ht) packet rfl

theorem ackPacket_ack (s : UdxStreamInner) (i : UInt32) : (s.ackPacket now i).ack = s.ack := by
  unfold ackPacket
  split <;> rfl

theorem ackPacket_recvRx (s : UdxStreamInner) (i : UInt32) : (s.ackPacket now i).recvRx = s.recvRx := by
  unfold ackPacket
  split <;> rfl

/-- Handling a packet leaves the channel it came from as it is. -/
theorem handleIncoming_recvRx (s : UdxStreamInner) (packet : IncomingPacket) :
    (s.handleIncoming now packet).recvRx = s.recvRx :=
  handleIncoming_frame recvRx (fun _ _ => rfl) ackPacket_recvRx (fun _ => rfl) (fun _ _ => rfl)
    (fun _ _ => rfl) s packet

/-- Acknowledgements are applied after the batch, not while its packets are handled. -/
theorem handleIncoming_remoteAcked (s : UdxStreamInner) (packet : IncomingPacket) :
    (s.handleIncoming now packet).remoteAcked = s.remoteAcked :=
  handleIncoming_frame remoteAcked (fun _ _ => rfl) ackPacket_remoteAcked (fun _ => rfl) (fun _ _ => rfl)
    (fun _ _ => rfl) s packet

theorem incomingLoop_chain (budget : Nat) (remoteAck : UInt32) (s : UdxStreamInner)
    (hack : remoteAck = 0 ∨ ∃ packet, ok packet ∧ packet.ack = remoteAck)
    (hqueue : ∀ packet ∈ s.recvRx.queue, ok packet) :
    Chain ok now s (incomingLoop now budget remoteAck s).1 := by
  induction budget generalizing remoteAck s with
  | zero => exact handleIncomingMaxRemoteAck_chain s remoteAck hack
  | succ budget ih =>
      rw [incomingLoop]
      split
      · split
        · exact .refl
        · exact handleIncomingMaxRemoteAck_chain s remoteAck hack
      · rename_i packet rest hcons
        have hok : ok packet := hqueue packet (by rw [hcons]; exact List.mem_cons_self)
        have hpop : Micro ok now s { s with recvRx := { s.recvRx with queue := rest } } :=
          .quiet s _ s.readWaker s.writeWaker s.driveWaker s.ghost.woken s.stats.txPackets
            s.stats.rxBytes s.stats.rxPackets fun p hp => by rw [hcons]; exact List.mem_cons_of_mem _ hp
        refine (hpop.chain.trans (handleIncoming_chain hok _)).trans (ih _ _ ?_ ?_)
        · rcases Counter.larger_choice remoteAck packet.ack with h | h
          · rw [h]
            exact hack
          · exact Or.inr ⟨packet, hok, h.symm⟩
        · intro other hother
          rw [handleIncoming_recvRx] at hother
          exact hqueue other (by rw [hcons]; exact List.mem_cons_of_mem _ hother)

/-! ### The driver -/

/-- A transmission fails only when the socket has gone. -/
theorem transmitLoop_ok (limit : Nat) (pending : List PacketRef) (segmentSize : Nat) (queue : List PacketRef)
    (s : UdxStreamInner) (hopen : s.sendTx.closed = false) :
    (transmitLoop limit pending segmentSize queue s).2 = .ok () := by
  induction pending generalizing segmentSize queue s with
  | nil =>
      rw [transmitLoop]
      split <;> rfl
  | cons packet rest ih =>
      rw [transmitLoop]
      dsimp only
      split_ifs with hflush hempty hclosed
      · exact ih _ _ _ hopen
      · rw [hopen] at hclosed
        cases hclosed
      · exact ih _ _ _ hopen
      · exact ih _ _ _ hopen

/-- What `transmitLoop` hands to the socket comes from the queue, and so does what it leaves there. -/
theorem transmitLoop_spec (limit : Nat) (pending : List PacketRef) (segmentSize : Nat)
    (queue : List PacketRef) (s : UdxStreamInner) :
    ∃ (rest : List PacketRef) (sets : List PacketSet),
      (transmitLoop limit pending segmentSize queue s).1 = { s with
        sendQueue := rest
        sendTx := { s.sendTx with events := s.sendTx.events ++ sets.map .transmit } } ∧
      (∀ packet ∈ rest, packet ∈ pending ∨ packet ∈ s.sendQueue) ∧
      ∀ set ∈ sets, ∀ packet ∈ set.packets, packet ∈ pending ∨ packet ∈ queue := by
  induction pending generalizing segmentSize queue s with
  | nil =>
      rw [transmitLoop]
      split
      · exact ⟨s.sendQueue, [], by simp, fun _ h => Or.inr h, by simp⟩
      · refine ⟨s.sendQueue, [PacketSet.new s.remoteAddr queue segmentSize], rfl, fun _ h => Or.inr h, ?_⟩
        intro set hset packet hpacket
        rw [List.mem_singleton] at hset
        subst hset
        exact Or.inr hpacket
  | cons packet others ih =>
      -- the popped packet goes on in the collected queue, whether that was flushed before or not
      have hpop : ∀ p ∈ others, p ∈ packet :: others := fun p hp => List.mem_cons_of_mem _ hp
      rw [transmitLoop]
      dsimp only
      split_ifs with hflush hempty hclosed
      · obtain ⟨rest, sets, heq, hrest, hsets⟩ := ih packet.deref.buf.len [packet] { s with sendQueue := others }
        refine ⟨rest, sets, heq, fun p hp => Or.inl ?_, fun set hset p hp => Or.inl ?_⟩
        · exact (hrest p hp).elim (hpop p) (hpop p)
        · rcases hsets set hset p hp with h | h
          · exact hpop p h
          · rw [List.mem_singleton] at h
            exact h ▸ List.mem_cons_self
      · exact ⟨others, [], by simp, fun p hp => Or.inl (hpop p hp), by simp⟩
      · obtain ⟨rest, sets, heq, hrest, hsets⟩ := ih packet.deref.buf.len [packet]
          (({ s with sendQueue := others }).sendEvent (.transmit (PacketSet.new s.remoteAddr queue segmentSize)))
        refine ⟨rest, PacketSet.new s.remoteAddr queue segmentSize :: sets, ?_, fun p hp => Or.inl ?_, ?_⟩
        · rw [heq]
          simp [sendEvent]
        · exact (hrest p hp).elim (hpop p) (hpop p)
        · intro set hset p hp
          rcases List.mem_cons.mp hset with rfl | hset
          · exact Or.inr hp
          · rcases hsets set hset p hp with h | h
            · exact Or.inl (hpop p h)
            · rw [List.mem_singleton] at h
              exact Or.inl (h ▸ List.mem_cons_self)
      · obtain ⟨rest, sets, heq, hrest, hsets⟩ := ih segmentSize (queue ++ [packet]) { s with sendQueue := others }
        refine ⟨rest, sets, heq, fun p hp => Or.inl ?_, fun set hset p hp => ?_⟩
        · exact (hrest p hp).elim (hpop p) (hpop p)
        · rcases hsets set hset p hp with h | h
          · exact Or.inl (hpop p h)
          · rcases List.mem_append.mp h with h | h
            · exact Or.inr h
            · rw [List.mem_singleton] at h
              exact Or.inl (h ▸ List.mem_cons_self)

theorem pollTransmit_chain (s : UdxStreamInner) (cx : Context) : Chain ok now s (s.pollTransmit cx).1 := by
  obtain ⟨rest, sets, heq, hrest, hsets⟩ :=
    transmitLoop_spec (min cx.maxGsoSegments maxSegments) s.sendQueue 0 [] s
  rw [pollTransmit, heq]
  refine .single (.transmit s rest sets (fun p hp => ?_) fun set hset p hp => ?_)
  · exact (hrest p hp).elim id id
  · exact (hsets set hset p hp).resolve_right (List.not_mem_nil)

/-- What a poll does after the incoming packets handles no packet. -/
theorem pollDrive_rest (s : UdxStreamInner) (cx : Context) :
    Chain ok cx.now (s.pollIncoming cx).1 (s.pollDrive cx).1 := by
  unfold pollDrive
  split
  · rename_i s1 fault h1
    rw [h1]
  · rename_i s1 h1
    rw [h1]
    have hcheck : Chain ok cx.now s1 (s1.pollCheckTimeouts cx).1 := pollCheckTimeouts_chain s1 cx
    split
    · rename_i s2 fault h2
      rwa [h2] at hcheck
    · rename_i s2 h2
      rw [h2] at hcheck
      have hflush : Chain ok cx.now s2 (s2.flushWaitingPackets cx.now) := flushLoop_chain _ s2
      have hsend : Chain ok cx.now (s2.flushWaitingPackets cx.now)
          ((s2.flushWaitingPackets cx.now).pollTransmit cx).1 := pollTransmit_chain _ cx
      have hall := (hcheck.trans hflush).trans hsend
      dsimp only
      split <;> rename_i s3 h3 <;> rwa [h3] at hall

theorem wakers_micro (s : UdxStreamInner) (readWaker writeWaker driveWaker : Option Waker)
    (woken : List Waker) : Micro ok now s { s with
      readWaker := readWaker, writeWaker := writeWaker, driveWaker := driveWaker
      ghost := { s.ghost with woken := woken } } :=
  .quiet s s.recvRx.queue readWaker writeWaker driveWaker woken s.stats.txPackets s.stats.rxBytes
    s.stats.rxPackets fun _ h => h

theorem pollDrive_chain (s : UdxStreamInner) (cx : Context) (hqueue : ∀ packet ∈ s.recvRx.queue, ok packet) :
    Chain ok cx.now s (s.pollDrive cx).1 :=
  (incomingLoop_chain _ _ s (Or.inl rfl) hqueue).trans (pollDrive_rest s cx)

/-- How a poll of a driver that is not done ends: pending, after a termination if it has failed, or in a
panic. -/
theorem pollDriver_cases (s : UdxStreamInner) (cx : Context) (hopen : s.closedAndDrained = false) :
    let drive := { s with driveWaker := none }.pollDrive cx
    (∃ flag waker woken, drive.2 = .ok flag ∧ s.pollDriver cx = ({ drive.1 with
      driveWaker := waker, ghost := { drive.1.ghost with woken := woken } }, .pending)) ∨
    (∃ err woken, drive.2 = .error (.io err) ∧ s.pollDriver cx = ({ drive.1.terminate (UdxError.ofIo err) with
      ghost := { (drive.1.terminate (UdxError.ofIo err)).ghost with woken := woken } }, .pending)) ∨
    (∃ message, drive.2 = .error (.panic message) ∧ s.pollDriver cx = (drive.1, .panicked)) := by
  intro drive
  have hnot : ¬closedAndDrained { s with driveWaker := none } = true := by
    rw [show closedAndDrained { s with driveWaker := none } = false from hopen]
    decide
  unfold pollDriver
  dsimp only
  rw [if_neg hnot]
  split
  · rename_i s1 flag h1
    left
    rw [show drive = (s1, .ok flag) from h1]
    split
    · exact ⟨flag, s1.driveWaker, _, rfl, rfl⟩
    · exact ⟨flag, _, s1.ghost.woken, rfl, rfl⟩
  · rename_i s1 err h1
    right; left
    rw [show drive = (s1, .error (.io err)) from h1]
    exact ⟨err, _, rfl, rfl⟩
  · rename_i s1 message h1
    right; right
    rw [show drive = (s1, .error (.panic message)) from h1]
    exact ⟨message, rfl, rfl⟩

/-- What a termination and the wakers leave alone is as the poll has left it. -/
theorem pollDriver_frame {β : Type} (f : UdxStreamInner → β) (hterminate : ∀ s error, f (terminate s error) = f s)
    (hwakers : ∀ s waker woken, f { s with driveWaker := waker, ghost := { s.ghost with woken := woken } } = f s)
    (s : UdxStreamInner) (cx : Context) (hopen : s.closedAndDrained = false) :
    f (s.pollDriver cx).1 = f ({ s with driveWaker := none }.pollDrive cx).1 := by
  rcases pollDriver_cases s cx hopen with ⟨flag, waker, woken, -, h⟩ | ⟨err, woken, -, h⟩ | ⟨message, -, h⟩ <;> rw [h]
  · exact hwakers _ waker woken
  · exact (hwakers _ _ woken).trans (hterminate _ _)

theorem pollDriver_moves (s : UdxStreamInner) (cx : Context) (hqueue : ∀ packet ∈ s.recvRx.queue, ok packet)
    (hopen : s.closedAndDrained = false) : Moves ok cx.now s (s.pollDriver cx).1 := by
  have hwaker : Micro ok cx.now s { s with driveWaker := none } :=
    wakers_micro s s.readWaker s.writeWaker none s.ghost.woken
  have hdrive : Moves ok cx.now s ({ s with driveWaker := none }.pollDrive cx).1 :=
    .head (.micro hwaker) (pollDrive_chain { s with driveWaker := none } cx hqueue).moves
  rcases pollDriver_cases s cx hopen with ⟨flag, waker, woken, -, h⟩ | ⟨err, woken, -, h⟩ | ⟨message, -, h⟩ <;> rw [h]
  · exact hdrive.tail (.micro (wakers_micro _ _ _ waker woken))
  · exact (hdrive.tail (.terminate _ _)).tail (.micro (wakers_micro _ _ _ _ woken))
  · exact hdrive

theorem closedAndDrained_iff (s : UdxStreamInner) :
    s.closedAndDrained = true ↔ s.error.isSome = true ∧ s.sendQueue = [] ∧ s.outgoing.entries = [] := by
  simp only [closedAndDrained, Bool.and_eq_true, List.isEmpty_iff, and_assoc]

theorem pollDriver_complete (s : UdxStreamInner) (cx : Context) (hdone : s.closedAndDrained = true) :
    s.pollDriver cx = (complete { s with driveWaker := none }, .ready) := by
  unfold pollDriver
  dsimp only
  rw [if_pos (show closedAndDrained { s with driveWaker := none } = true from hdone)]

/-! ### What stays -/

theorem ackPacket_mem {s : UdxStreamInner} {i k : UInt32} (h : k ∈ (s.ackPacket now i).outgoing) :
    k ∈ s.outgoing ∧ k ≠ i := by
  unfold ackPacket at h
  split at h
  · exact (AList.mem_erase.mp h).symm
  · refine ⟨h, ?_⟩
    rintro rfl
    obtain ⟨packet, hpacket⟩ := AList.exists_lookup_of_mem h
    simp_all

theorem ackPacket_onFirewall (s : UdxStreamInner) (i : UInt32) :
    (s.ackPacket now i).onFirewall = s.onFirewall := by
  unfold ackPacket
  split <;> rfl

theorem Move.onFirewall_eq {s t : UdxStreamInner} (h : Move ok now s t) : t.onFirewall = s.onFirewall := by
  cases h with
  | micro h =>
      cases h with
      | ackNext packet hok hlt => exact ackPacket_onFirewall _ _
      | sack packet i hok htype => exact ackPacket_onFirewall _ _
      | _ => rfl
  | _ => rfl

theorem firewallPass_of_none {s : UdxStreamInner} (h : s.onFirewall = none) (source : SocketAddr) :
    s.firewallPass source = true := by
  rw [firewallPass, h]
  rfl

theorem handleIncoming_onFirewall (s : UdxStreamInner) (packet : IncomingPacket) :
    (s.handleIncoming now packet).onFirewall = s.onFirewall :=
  handleIncoming_frame onFirewall (fun _ _ => rfl) ackPacket_onFirewall (fun _ => rfl) (fun _ _ => rfl)
    (fun _ _ => rfl) s packet

/-- Nothing but a send puts a key into `outgoing`. -/
theorem Micro.mem_outgoing {s t : UdxStreamInner} (h : Micro ok now s t) {k : UInt32} (hk : k ∈ t.outgoing) :
    k ∈ s.outgoing := by
  have hreplace : ∀ {i : UInt32} {packet packet' : Packet}, s.outgoing.lookup i = some packet →
      k ∈ s.outgoing.insert i packet' → k ∈ s.outgoing := by
    intro i packet packet' hlookup hk
    rcases (AList.mem_insert s.outgoing).mp hk with rfl | hk
    · exact AList.mem_of_lookup hlookup
    · exact hk
  cases h with
  | ackNext packet hok hlt => exact (ackPacket_mem hk).1
  | sack packet i hok htype => exact (ackPacket_mem hk).1
  | park i packet hlookup hwaiting hmax hdue => exact hreplace hlookup hk
  | requeue i packet hlookup hwaiting hroom => exact hreplace hlookup hk
  | mark i packet sent hlookup => exact hreplace hlookup hk
  | _ => exact hk

theorem Micro.queue_subset {s t : UdxStreamInner} (h : Micro ok now s t) : t.recvRx.queue ⊆ s.recvRx.queue := by
  cases h with
  | quiet queue readWaker writeWaker driveWaker woken txPackets rxBytes rxPackets hqueue => exact hqueue
  | ackNext packet hok hlt => rw [UdxStreamInner.ackNext, ackPacket_recvRx]; exact List.Subset.refl _
  | sack packet i hok htype => rw [ackPacket_recvRx]; exact List.Subset.refl _
  | _ => exact List.Subset.refl _

/-- No move puts a packet into the channel. -/
theorem Move.queue_subset {s t : UdxStreamInner} (h : Move ok now s t) : t.recvRx.queue ⊆ s.recvRx.queue := by
  cases h with
  | micro h => exact h.queue_subset
  | _ => exact List.Subset.refl _

/-! ### Reading and writing -/

theorem readLoop_moves (fuel remaining : Nat) (s : UdxStreamInner) :
    Moves ok now s (readLoop fuel remaining s).1 := by
  induction fuel generalizing remaining s with
  | zero => exact .refl
  | succ fuel ih =>
      rw [readLoop]
      split
      · exact .refl
      · rename_i packet hlookup
        dsimp only
        split
        · exact .single (.readPart s packet remaining hlookup (by omega))
        · exact .head (.readWhole s packet hlookup) (ih _ _)

theorem pollRead_moves (s : UdxStreamInner) (waker : Waker) (remaining : Nat) :
    Moves ok now s (s.pollRead waker remaining).1 := by
  have hread : Moves ok now s (s.readNext remaining).1 := readLoop_moves _ _ s
  unfold pollRead
  split
  · rename_i s1 slices h1
    rwa [h1] at hread
  · rename_i s1 slices h1
    rw [h1] at hread
    split
    · exact hread
    · exact hread.tail (.micro (wakers_micro s1 _ s1.writeWaker s1.driveWaker s1.ghost.woken))

/-- What delivering a packet leaves alone, the loop of a read leaves alone. -/
theorem readNext_frame {β : Type} (f : UdxStreamInner → β)
    (hpart : ∀ s packet remaining, f (readPart s packet remaining) = f s)
    (hwhole : ∀ s packet, f (readWhole s packet) = f s) (s : UdxStreamInner) (remaining : Nat) :
    f (s.readNext remaining).1 = f s := by
  have hloop : ∀ (fuel remaining : Nat) (s : UdxStreamInner), f (readLoop fuel remaining s).1 = f s := by
    intro fuel
    induction fuel with
    | zero => intro remaining s; rfl
    | succ fuel ih =>
        intro remaining s
        rw [readLoop]
        split
        · rfl
        · dsimp only
          split
          · exact hpart s _ _
          · exact (ih _ _).trans (hwhole s _)
  exact hloop _ _ s

/-- The state after a read is that of the loop, up to the waker. -/
theorem pollRead_frame {β : Type} (f : UdxStreamInner → β)
    (hwaker : ∀ s waker, f { s with readWaker := waker } = f s) (s : UdxStreamInner) (waker : Waker)
    (remaining : Nat) : f (s.pollRead waker remaining).1 = f (s.readNext remaining).1 := by
  unfold pollRead
  split
  · rename_i h
    rw [h]
  · rename_i h
    rw [h]
    split
    · rfl
    · exact hwaker _ _

/-- Admitting data is one elementary change; refusing it is none. -/
theorem sendDataPacket_cases (now : Nat) (s : UdxStreamInner) (buf : List UInt8) :
    s.sendDataPacket now buf = (s, 0) ∨
    s.inflight + (buf.take udxMaxDataSize).length ≤ s.cwnd ∧
      s.sendDataPacket now buf = (s.pushData now (buf.take udxMaxDataSize), (buf.take udxMaxDataSize).length) := by
  have htake : buf.take (min buf.length udxMaxDataSize) = buf.take udxMaxDataSize := by
    rcases Nat.le_total buf.length udxMaxDataSize with h | h
    · rw [Nat.min_eq_left h, List.take_length, List.take_of_length_le h]
    · rw [Nat.min_eq_right h]
  unfold sendDataPacket
  dsimp only
  rw [htake, Nat.min_comm, ← List.length_take]
  split
  · exact Or.inl rfl
  · exact Or.inr ⟨by omega, rfl⟩

theorem writeLoop_moves (waker : Waker) (buf : List UInt8) (fuel written : Nat) (s : UdxStreamInner)
    (herror : s.error = none) : Moves ok now s (writeLoop now waker buf fuel written s).1 := by
  induction fuel generalizing written s with
  | zero => exact .refl
  | succ fuel ih =>
      rw [writeLoop]
      split
      · exact .refl
      · rcases sendDataPacket_cases now s (buf.drop written) with h | ⟨hroom, h⟩
        · rw [h]
          dsimp only
          rw [if_pos rfl]
          split
          · exact .single (.micro (wakers_micro s s.readWaker _ s.driveWaker s.ghost.woken))
          · exact .refl
        · rw [h]
          dsimp only
          have hne : (buf.drop written).take udxMaxDataSize ≠ [] := by
            intro hnil
            have hlen := congrArg List.length hnil
            rw [List.length_take, List.length_drop, List.length_nil, udxMaxDataSize] at hlen
            omega
          rw [if_neg (fun h0 => hne (List.length_eq_zero_iff.mp h0))]
          exact .head (.send s _ herror hne (by rw [List.length_take]; omega) hroom) (ih _ _ herror)

/-- What admitting data and the wakers leave alone, a write leaves alone. -/
theorem pollWrite_frame {β : Type} (f : UdxStreamInner → β) (hpush : ∀ s body, f (pushData s now body) = f s)
    (hwaker : ∀ s waker, f { s with writeWaker := waker } = f s) (s : UdxStreamInner) (waker : Waker)
    (buf : List UInt8) : f (s.pollWrite now waker buf).1 = f s := by
  have hloop : ∀ (fuel written : Nat) (s : UdxStreamInner), f (writeLoop now waker buf fuel written s).1 = f s := by
    intro fuel
    induction fuel with
    | zero => intro written s; rfl
    | succ fuel ih =>
        intro written s
        have hsent : f (s.sendDataPacket now (buf.drop written)).1 = f s := by
          rcases sendDataPacket_cases now s (buf.drop written) with h | ⟨-, h⟩ <;> rw [h]
          exact hpush s _
        rw [writeLoop]
        split
        · rfl
        · dsimp only
          split
          · split
            · exact (hwaker _ _).trans hsent
            · exact hsent
          · exact (ih _ _).trans hsent
  unfold pollWrite
  split
  · rfl
  · split
    · rfl
    · exact hloop _ _ s

theorem pollWrite_moves (s : UdxStreamInner) (waker : Waker) (buf : List UInt8) :
    Moves ok now s (s.pollWrite now waker buf).1 := by
  unfold pollWrite
  split
  · exact .refl
  · split
    · exact .refl
    · exact writeLoop_moves waker buf _ _ s ‹_›

end AsyncUdx
