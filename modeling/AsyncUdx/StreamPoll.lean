import AsyncUdx.SendWindow
import AsyncUdx.TerminationReason

/-! One poll of the driver, part by part, as equations: which packets the incoming ones acknowledge, how the
poll ends, what is left in the channel, and what the timer, the retransmission and the transmission leave
behind. The chains of elementary changes say what a poll cannot do; here is what it does. -/

namespace AsyncUdx

open Relation UdxStreamInner

variable {now : Nat}

/-! ### Which packets are acknowledged -/

theorem ackPacket_lookup (s : UdxStreamInner) (i k : UInt32) :
    (s.ackPacket now i).outgoing.lookup k = if k = i then none else s.outgoing.lookup k := by
  unfold ackPacket
  split
  · change (s.outgoing.erase i).lookup k = _
    split_ifs with hk
    · rw [hk, AList.lookup_erase]
    · rw [AList.lookup_erase_ne hk]
  · split_ifs with hk
    · rw [hk]
      assumption
    · rfl

theorem ackPackets_lookup (keys : List UInt32) (s : UdxStreamInner) (k : UInt32) :
    (keys.foldl (fun s i => s.ackPacket now i) s).outgoing.lookup k =
      if k ∈ keys then none else s.outgoing.lookup k := by
  induction keys generalizing s with
  | nil => simp
  | cons i rest ih =>
      rw [List.foldl_cons, ih, ackPacket_lookup]
      by_cases hi : k = i <;> by_cases hrest : k ∈ rest <;> simp [hi, hrest]

theorem handleIncoming_lookup {s : UdxStreamInner} (hfirewall : s.onFirewall = none) (packet : IncomingPacket)
    (k : UInt32) : (s.handleIncoming now packet).outgoing.lookup k =
      if k ∈ packet.sacked then none else s.outgoing.lookup k := by
  rw [handleIncoming_parts hfirewall]
  change ((UdxStreamInner.endPart _ packet).dataPart packet).outgoing.lookup k = _
  rw [parts_frame outgoing (fun _ => rfl) (fun _ _ => rfl), ackPackets_lookup]

theorem ackNext_lookup (s : UdxStreamInner) (k : UInt32) :
    (s.ackNext now).outgoing.lookup k = if k = s.remoteAcked then none else s.outgoing.lookup k := by
  unfold ackNext
  rw [ackPacket_lookup, Counter.succ_sub_one]

theorem ackLoop_lookup (n : Nat) (s : UdxStreamInner) (hn : s.remoteAcked.toNat + n < 2 ^ 32) (k : UInt32) :
    (ackLoop now n s).outgoing.lookup k =
      if s.remoteAcked.toNat ≤ k.toNat ∧ k.toNat < s.remoteAcked.toNat + n then none
      else s.outgoing.lookup k := by
  induction n generalizing s with
  | zero => rw [if_neg (by omega), ackLoop]
  | succ n ih =>
      have hnext : (s.ackNext now).remoteAcked.toNat = s.remoteAcked.toNat + 1 := by
        rw [ackNext_remoteAcked, Counter.toNat_succ (by omega)]
      rw [ackLoop, ih _ (by omega), hnext, ackNext_lookup]
      by_cases hk : k = s.remoteAcked
      · subst hk
        rw [if_neg (by omega), if_pos rfl, if_pos (by omega)]
      · have hne : k.toNat ≠ s.remoteAcked.toNat := fun h => hk (UInt32.toNat.inj h)
        rw [if_neg hk]
        congr 1
        rw [eq_iff_iff]
        omega

theorem handleIncomingMaxRemoteAck_lookup (s : UdxStreamInner) (ack k : UInt32) :
    (s.handleIncomingMaxRemoteAck now ack).outgoing.lookup k =
      if s.remoteAcked ≤ k ∧ k < ack then none else s.outgoing.lookup k := by
  unfold handleIncomingMaxRemoteAck
  simp only [UInt32.le_iff_toNat_le, UInt32.lt_iff_toNat_lt]
  split
  · rw [if_neg (by omega)]
  · have hack := ack.toNat_lt
    change (ackLoop now _ s).outgoing.lookup k = _
    rw [ackLoop_lookup _ _ (by omega)]
    congr 1
    rw [eq_iff_iff]
    omega

/-- The packets a poll takes from the channel acknowledge a sequence number: selectively, or by the
acknowledgement that is applied after them. -/
def Acknowledged (s : UdxStreamInner) (budget : Nat) (k : UInt32) : Prop :=
  (∃ packet ∈ s.recvRx.queue.take budget, k ∈ packet.sacked) ∨ s.remoteAcked ≤ k ∧ k < appliedAck s budget

instance (s : UdxStreamInner) (budget : Nat) (k : UInt32) : Decidable (Acknowledged s budget k) :=
  inferInstanceAs (Decidable (_ ∨ _))

theorem foldl_sacked (k : UInt32) (packets : List IncomingPacket) (found : Option Packet) :
    packets.foldl (fun found packet => if k ∈ packet.sacked then none else found) found =
      if ∃ packet ∈ packets, k ∈ packet.sacked then none else found := by
  induction packets generalizing found with
  | nil => simp
  | cons packet rest ih =>
      rw [List.foldl_cons, ih]
      by_cases hsacked : k ∈ packet.sacked <;> simp [hsacked]

/-- **What a poll acknowledges.** Handling the incoming packets takes out of `outgoing` what they acknowledge,
and leaves every other packet as it is. -/
theorem pollIncoming_lookup {s : UdxStreamInner} (hfirewall : s.onFirewall = none) (cx : Context) (k : UInt32) :
    (s.pollIncoming cx).1.outgoing.lookup k =
      if Acknowledged s cx.budget k then none else s.outgoing.lookup k := by
  have hhandled : (s.handled cx).outgoing.lookup k =
      if ∃ packet ∈ s.consumes cx.budget, k ∈ packet.sacked then none else s.outgoing.lookup k := by
    rw [handled_view (fun s => s.outgoing.lookup k) (fun found packet => if k ∈ packet.sacked then none else found)
      (fun _ _ => rfl) (fun s packet hfirewall => handleIncoming_lookup hfirewall packet k) hfirewall]
    exact foldl_sacked k _ _
  have hacked : (s.handled cx).remoteAcked = s.remoteAcked :=
    handled_frame remoteAcked (fun _ _ => rfl) handleIncoming_remoteAcked s
  rw [pollIncoming_state, handleIncomingMaxRemoteAck_lookup, hhandled, hacked]
  change _ = if (∃ packet ∈ s.consumes cx.budget, k ∈ packet.sacked) ∨ _ then none else _
  rw [← ite_or]
  exact if_congr or_comm rfl rfl

/-- It makes no difference how much more a poll could take than there is. -/
theorem acknowledged_all {s : UdxStreamInner} {k : UInt32} {budget : Nat} (h : s.recvRx.queue.length < budget) :
    Acknowledged s budget k ↔ Acknowledged s (s.recvRx.queue.length + 1) k := by
  rw [Acknowledged, Acknowledged, appliedAck, appliedAck, List.take_of_length_le h.le,
    List.take_of_length_le (Nat.le_succ _), decide_eq_true h, decide_eq_true (Nat.lt_succ_self _)]

/-! ### The timer and the packets that wait -/

theorem ackPacket_rtoTimeout (s : UdxStreamInner) (i : UInt32) :
    (s.ackPacket now i).rtoTimeout = s.rtoTimeout := by
  unfold ackPacket
  split <;> rfl

theorem handleIncoming_rtoTimeout (s : UdxStreamInner) (packet : IncomingPacket) :
    (s.handleIncoming now packet).rtoTimeout = s.rtoTimeout :=
  handleIncoming_frame rtoTimeout (fun _ _ => rfl) ackPacket_rtoTimeout (fun _ => rfl) (fun _ _ => rfl)
    (fun _ _ => rfl) s packet

theorem handleIncomingMaxRemoteAck_rtoTimeout (s : UdxStreamInner) (ack : UInt32) :
    (s.handleIncomingMaxRemoteAck now ack).rtoTimeout =
      if ack ≤ s.remoteAcked then s.rtoTimeout else now + (s.handleIncomingMaxRemoteAck now ack).rto := by
  unfold handleIncomingMaxRemoteAck
  split <;> rfl

/-- An acknowledgement that is new sets the timer again. -/
theorem pollIncoming_rtoTimeout (s : UdxStreamInner) (cx : Context) :
    (s.pollIncoming cx).1.rtoTimeout =
      if appliedAck s cx.budget ≤ s.remoteAcked then s.rtoTimeout else cx.now + (s.pollIncoming cx).1.rto := by
  rw [pollIncoming_state, handleIncomingMaxRemoteAck_rtoTimeout,
    handled_frame remoteAcked (fun _ _ => rfl) handleIncoming_remoteAcked,
    handled_frame rtoTimeout (fun _ _ => rfl) handleIncoming_rtoTimeout]

/-- A packet as it is after it was declared lost; one that waits already stays as it is. -/
def Packet.parked (packet : Packet) : Packet :=
  if packet.waiting then packet else { packet with transmits := packet.transmits + 1, waiting := true }

theorem Packet.parked_parked (packet : Packet) : packet.parked.parked = packet.parked := by
  cases hwaiting : packet.waiting <;> simp [Packet.parked, hwaiting]

/-- As long as no packet has reached the limit, the loop over the packets succeeds and parks them all. -/
theorem timeoutLoop_lookup (now : Nat) (keys : List UInt32) (s : UdxStreamInner)
    (hlimit : ∀ i packet, s.outgoing.lookup i = some packet → packet.waiting = false →
      packet.transmits ≤ udxMaxTransmits) :
    (timeoutLoop now keys s).2 = .ok () ∧ ∀ k, (timeoutLoop now keys s).1.outgoing.lookup k =
      if k ∈ keys then (s.outgoing.lookup k).map Packet.parked else s.outgoing.lookup k := by
  induction keys generalizing s with
  | nil => exact ⟨rfl, fun k => by simp [timeoutLoop]⟩
  | cons i rest ih =>
      rw [timeoutLoop]
      split
      · rename_i hnone
        obtain ⟨hok, hlookup⟩ := ih s hlimit
        refine ⟨hok, fun k => ?_⟩
        rw [hlookup]
        by_cases hk : k = i
        · subst hk
          simp [hnone]
        · simp [hk]
      · rename_i packet hsome
        have hparked : packet.waiting = true → packet.parked = packet := fun h => if_pos h
        split_ifs with hwaiting hmax
        · obtain ⟨hok, hlookup⟩ := ih s hlimit
          refine ⟨hok, fun k => ?_⟩
          rw [hlookup]
          by_cases hk : k = i
          · subst hk
            simp [hsome, hparked hwaiting]
          · simp [hk]
        · have := hlimit i packet hsome (by simpa using hwaiting)
          omega
        · have hpark : (s.park now i packet).outgoing = s.outgoing.insert i packet.parked := by
            rw [Packet.parked, if_neg hwaiting]
            rfl
          obtain ⟨hok, hlookup⟩ := ih (s.park now i packet) (by
            intro k other hother hidle
            rw [hpark] at hother
            rcases AList.lookup_insert_eq_some hother with ⟨-, rfl⟩ | ⟨-, hother⟩
            · rw [Packet.parked, if_neg hwaiting] at hidle
              cases hidle
            · exact hlimit k other hother hidle)
          refine ⟨hok, fun k => ?_⟩
          rw [hlookup, hpark]
          by_cases hk : k = i
          · subst hk
            simp [AList.lookup_insert, hsome, Packet.parked_parked]
          · simp [AList.lookup_insert_ne hk, hk]

theorem timeoutLoop_frame {β : Type} (f : UdxStreamInner → β)
    (hpark : ∀ s now i packet, f (park s now i packet) = f s) (keys : List UInt32) (s : UdxStreamInner) :
    f (timeoutLoop now keys s).1 = f s := by
  induction keys generalizing s with
  | nil => rfl
  | cons i rest ih =>
      rw [timeoutLoop]
      split
      · exact ih s
      · split_ifs
        · exact ih s
        · rfl
        · exact (ih _).trans (hpark s _ _ _)

theorem flushLoop_frame {β : Type} (f : UdxStreamInner → β)
    (hrequeue : ∀ s now i packet, f (requeue s now i packet) = f s) (keys : List UInt32) (s : UdxStreamInner) :
    f (flushLoop now keys s) = f s := by
  induction keys generalizing s with
  | nil => rfl
  | cons i rest ih =>
      rw [flushLoop]
      split
      · exact ih s
      · split_ifs
        · exact ih s
        · rfl
        · exact (ih _).trans (hrequeue s _ _ _)

theorem pollCheckTimeouts_rtoTimeout (s : UdxStreamInner) (cx : Context) :
    (s.pollCheckTimeouts cx).1.rtoTimeout =
      if cx.now < s.rtoTimeout + cx.timerLag ∨ s.remoteAcked = s.seq then s.rtoTimeout
      else cx.now + 2 * s.rto := by
  unfold pollCheckTimeouts
  by_cases hearly : cx.now < s.rtoTimeout + cx.timerLag
  · rw [if_pos hearly, if_pos (Or.inl hearly)]
  · by_cases hdone : s.remoteAcked = s.seq
    · rw [if_neg hearly, if_pos hdone, if_pos (Or.inr hdone)]
    · rw [if_neg hearly, if_neg hdone, if_neg (not_or.mpr ⟨hearly, hdone⟩)]
      exact timeoutLoop_frame rtoTimeout (fun _ _ _ _ => rfl) _ _

/-- Queueing the waiting packets again does not count. -/
theorem flushLoop_transmits (now : Nat) (keys : List UInt32) (s : UdxStreamInner) (k : UInt32) :
    ((flushLoop now keys s).outgoing.lookup k).map Packet.transmits =
      (s.outgoing.lookup k).map Packet.transmits := by
  induction keys generalizing s with
  | nil => rfl
  | cons i rest ih =>
      rw [flushLoop]
      split
      · exact ih s
      · rename_i packet hsome
        split_ifs
        · exact ih s
        · rfl
        · rw [ih]
          change ((s.outgoing.insert i _).lookup k).map _ = _
          by_cases hk : k = i
          · rw [hk, AList.lookup_insert, hsome]
            rfl
          · rw [AList.lookup_insert_ne hk]

/-- Packets that do not wait stay where they are. -/
theorem flushLoop_idle (keys : List UInt32) {s : UdxStreamInner}
    (hidle : ∀ k packet, s.outgoing.lookup k = some packet → packet.waiting = false) : flushLoop now keys s = s := by
  induction keys with
  | nil => rfl
  | cons i rest ih =>
      rw [flushLoop]
      split
      · exact ih
      · rename_i packet hlookup
        rw [hidle i packet hlookup]
        exact ih

theorem flushLoop_empty (keys : List UInt32) {s : UdxStreamInner} (hempty : s.outgoing.entries = []) :
    flushLoop now keys s = s :=
  flushLoop_idle keys fun k packet h => by
    rw [AList.lookup_of_entries_nil hempty] at h
    cases h

/-! ### The send queue -/

/-- A transmission that succeeds leaves nothing on the queue. -/
theorem transmitLoop_sendQueue (limit : Nat) (pending : List PacketRef) (segmentSize : Nat) (queue : List PacketRef)
    (s : UdxStreamInner) (hpending : s.sendQueue = pending)
    (hok : (transmitLoop limit pending segmentSize queue s).2 = .ok ()) :
    (transmitLoop limit pending segmentSize queue s).1.sendQueue = [] := by
  induction pending generalizing segmentSize queue s with
  | nil =>
      rw [transmitLoop]
      split <;> exact hpending
  | cons packet rest ih =>
      rw [transmitLoop] at hok ⊢
      dsimp only at hok ⊢
      split_ifs at hok ⊢
      · exact ih _ _ _ rfl hok
      · exact ih _ _ _ rfl hok
      · exact ih _ _ _ rfl hok

/-- What a transmission leaves alone: everything but the queue and the channel to the socket. -/
theorem pollTransmit_frame {β : Type} (f : UdxStreamInner → β)
    (hsend : ∀ s queue tx, f { s with sendQueue := queue, sendTx := tx } = f s) (s : UdxStreamInner) (cx : Context) :
    f (s.pollTransmit cx).1 = f s := by
  obtain ⟨rest, sets, heq, -⟩ := transmitLoop_spec (min cx.maxGsoSegments maxSegments) s.sendQueue 0 [] s
  rw [pollTransmit, heq]
  exact hsend s _ _

/-! ### The stages of a poll -/

/-- **Stages.** What handling the incoming packets establishes and the later stages keep holds after a poll,
however it ends. -/
theorem pollDrive_stages (Inv : UdxStreamInner → Prop) (s : UdxStreamInner) (cx : Context)
    (hin : Inv (s.pollIncoming cx).1) (hcheck : ∀ s, Inv s → Inv (pollCheckTimeouts s cx).1)
    (hflush : ∀ s, Inv s → Inv (flushWaitingPackets s cx.now))
    (htransmit : ∀ s, Inv s → Inv (pollTransmit s cx).1) : Inv (s.pollDrive cx).1 := by
  unfold pollDrive
  split <;> rename_i s1 h1 <;> rw [h1] at hin
  · exact hin
  · have hchecked := hcheck s1 hin
    split <;> rename_i s2 h2 <;> rw [h2] at hchecked
    · exact hchecked
    · have hsent := htransmit _ (hflush s2 hchecked)
      dsimp only
      split <;> rename_i s3 h3 <;> rw [h3] at hsent <;> exact hsent

/-- A poll that succeeds goes through every stage. -/
theorem pollDrive_ok {s : UdxStreamInner} {cx : Context} {flag : Bool} (h : (s.pollDrive cx).2 = .ok flag) :
    (s.pollIncoming cx).2 = .ok () ∧ ((s.pollIncoming cx).1.pollCheckTimeouts cx).2 = .ok () ∧
    let flushed := ((s.pollIncoming cx).1.pollCheckTimeouts cx).1.flushWaitingPackets cx.now
    (flushed.pollTransmit cx).2 = .ok () ∧ (s.pollDrive cx).1 = (flushed.pollTransmit cx).1 ∧ flag = false := by
  unfold pollDrive at h ⊢
  split at h
  · cases h
  · rename_i s1 h1
    rw [h1]
    dsimp only
    split at h
    · cases h
    · rename_i s2 h2
      rw [h2]
      dsimp only at h ⊢
      split at h
      · cases h
      · rename_i s3 h3
        rw [h3]
        cases h
        exact ⟨rfl, rfl, rfl, rfl, rfl⟩

/-- A poll whose stages succeed transmits what the earlier stages have queued. -/
theorem pollDrive_eq {s : UdxStreamInner} {cx : Context} (hin : (s.pollIncoming cx).2 = .ok ())
    (hcheck : ((s.pollIncoming cx).1.pollCheckTimeouts cx).2 = .ok ())
    (htransmit : ((((s.pollIncoming cx).1.pollCheckTimeouts cx).1.flushWaitingPackets cx.now).pollTransmit cx).2 =
      .ok ()) :
    s.pollDrive cx =
      (((((s.pollIncoming cx).1.pollCheckTimeouts cx).1.flushWaitingPackets cx.now).pollTransmit cx).1,
        .ok false) := by
  have hin' : s.pollIncoming cx = ((s.pollIncoming cx).1, .ok ()) := Prod.ext rfl hin
  have hcheck' : (s.pollIncoming cx).1.pollCheckTimeouts cx =
      (((s.pollIncoming cx).1.pollCheckTimeouts cx).1, .ok ()) := Prod.ext rfl hcheck
  rw [pollDrive, hin']
  dsimp only
  rw [hcheck']
  dsimp only
  split <;> rename_i h <;> rw [h] at htransmit ⊢
  cases htransmit

/-- What parking and queueing packets, the timer and the transmission leave alone is, after a poll, as handling
the incoming packets has left it. -/
theorem pollDrive_frame {β : Type} (f : UdxStreamInner → β) (hback : ∀ s now, f (backOff s now) = f s)
    (hpark : ∀ s now i packet, f (park s now i packet) = f s)
    (hrequeue : ∀ s now i packet, f (requeue s now i packet) = f s)
    (hsend : ∀ s queue tx, f { s with sendQueue := queue, sendTx := tx } = f s) (s : UdxStreamInner) (cx : Context) :
    f (s.pollDrive cx).1 = f (s.pollIncoming cx).1 := by
  refine pollDrive_stages (fun t => f t = f (s.pollIncoming cx).1) s cx rfl (fun t ht => ?_)
    (fun t ht => (flushLoop_frame f hrequeue _ t).trans ht) fun t ht => (pollTransmit_frame f hsend t cx).trans ht
  unfold pollCheckTimeouts
  split_ifs
  · exact ht
  · exact ht
  · exact (timeoutLoop_frame f hpark _ _).trans ((hback t _).trans ht)

theorem pollDrive_recvRx (s : UdxStreamInner) (cx : Context) :
    (s.pollDrive cx).1.recvRx = { s.recvRx with queue := s.recvRx.queue.drop cx.budget } := by
  rw [pollDrive_frame recvRx (fun _ _ => rfl) (fun _ _ _ _ => rfl) (fun _ _ _ _ => rfl) (fun _ _ _ => rfl),
    pollIncoming_recvRx]

/-- The packets a poll receives are those it handles in `poll_incoming`. -/
theorem UdxStream.poll_received {u : UdxStream} (cx : Context) (hopen : u.inner.closedAndDrained = false) :
    (u.poll cx).inner.ghost.received = ({ u.inner with driveWaker := none }.pollIncoming cx).1.ghost.received := by
  rw [UdxStream.poll_frame (fun s => s.ghost.received) (fun _ _ => rfl) (fun _ _ _ => rfl),
    pollDriver_frame (fun s => s.ghost.received) (fun _ _ => rfl) (fun _ _ _ => rfl) _ _ hopen,
    pollDrive_frame (fun s => s.ghost.received) (fun _ _ => rfl) (fun _ _ _ _ => rfl) (fun _ _ _ _ => rfl)
      (fun _ _ _ => rfl)]

/-! ### Writing -/

section Write

variable {waker : Waker} {buf : List UInt8} {s : UdxStreamInner}

theorem writeLoop_admits (fuel written : Nat) (hleft : written < buf.length)
    (hroom : s.inflight + min (buf.length - written) udxMaxDataSize ≤ s.cwnd) :
    writeLoop now waker buf (fuel + 1) written s =
      writeLoop now waker buf fuel (written + min (buf.length - written) udxMaxDataSize)
        (s.pushData now ((buf.drop written).take (min (buf.length - written) udxMaxDataSize))) := by
  have hpos : min (buf.length - written) udxMaxDataSize ≠ 0 := by
    unfold udxMaxDataSize
    omega
  have hsent : s.sendDataPacket now (buf.drop written) =
      (s.pushData now ((buf.drop written).take (min (buf.length - written) udxMaxDataSize)),
        min (buf.length - written) udxMaxDataSize) := by
    rw [← List.length_drop, sendDataPacket]
    exact if_neg (by rw [List.length_drop]; omega)
  rw [writeLoop, if_neg (by omega), hsent]
  exact if_neg hpos

/-- A chunk that does not fit the window ends the loop: the writer waits if it has written nothing. -/
theorem writeLoop_full (fuel written : Nat) (hleft : written < buf.length)
    (hfull : s.cwnd < s.inflight + min (buf.length - written) udxMaxDataSize) :
    writeLoop now waker buf (fuel + 1) written s =
      if written = 0 then ({ s with writeWaker := some waker }, .pending) else (s, .ready (.ok written)) := by
  have hsent : s.sendDataPacket now (buf.drop written) = (s, 0) := if_pos (by rw [List.length_drop]; omega)
  rw [writeLoop, if_neg (by omega), hsent]
  rfl

theorem writeLoop_done (fuel written : Nat) (hdone : buf.length ≤ written) :
    (writeLoop now waker buf fuel written s).1 = s := by
  cases fuel with
  | zero => rfl
  | succ fuel => rw [writeLoop, if_pos hdone]

theorem pollWrite_eq (herror : s.error = none) (hne : buf ≠ []) :
    s.pollWrite now waker buf = writeLoop now waker buf (buf.length + 1) 0 s := by
  rw [pollWrite, herror]
  exact if_neg (by simpa using hne)

/-- A chunk that fits the window is sent. -/
theorem pollWrite_admits (herror : s.error = none) (hne : buf ≠ []) (hlen : buf.length ≤ udxMaxDataSize)
    (hroom : s.inflight + buf.length ≤ s.cwnd) : (s.pollWrite now waker buf).1 = s.pushData now buf := by
  have hpos := List.length_pos_iff.mpr hne
  rw [pollWrite_eq herror hne, writeLoop_admits _ _ hpos (by omega), writeLoop_done _ _ (by omega),
    List.drop_zero, Nat.sub_zero, Nat.min_eq_left hlen, List.take_length]

/-- What is admitted counts in flight with its header. -/
theorem pushData_inflight (s : UdxStreamInner) (body : List UInt8) :
    (s.pushData now body).inflight = s.inflight + (udxHeaderSize + body.length) := by
  change s.inflight + (s.createPacket udxHeaderData body).len = _
  rw [createPacket, Packet.new_len]

/-- A chunk that does not fit the window leaves the waker of its writer. -/
theorem pollWrite_blocked (herror : s.error = none) (hne : buf ≠ []) (hlen : buf.length ≤ udxMaxDataSize)
    (hfull : s.cwnd < s.inflight + buf.length) :
    (s.pollWrite now waker buf).1 = { s with writeWaker := some waker } := by
  have hpos := List.length_pos_iff.mpr hne
  rw [pollWrite_eq herror hne, writeLoop_full _ _ hpos (by omega), if_pos rfl]

end Write

end AsyncUdx
