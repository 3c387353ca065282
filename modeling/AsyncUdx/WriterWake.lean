import AsyncUdx.SendProgress

/-! Writers that wait for the window. `poll_write` leaves a waker when a chunk does not fit the window next to
what is in flight; the waker is taken by an acknowledgement that leaves room for a packet of any size, and by a
termination. The two conditions differ, but a waker is only left while packets are in flight, and once
everything is acknowledged nothing is: the acknowledgement that completes the window always finds room. -/

namespace AsyncUdx

open Relation UdxStreamInner

variable {ok : IncomingPacket → Prop} {now : Nat}

/-- A writer waits only for packets that are not acknowledged, on a stream that has not been terminated. -/
def WriterServed (s : UdxStreamInner) : Prop :=
  s.writeWaker.isSome = true → s.remoteAcked < s.seq ∧ s.error = none

/-- Every packet a poll takes from the channel acknowledges at most what was sent. -/
def AcksWithinSeq (u : UdxStream) : Event → Prop
  | .call (.poll _ _ budget _) =>
      u.driver = .running → u.inner.closedAndDrained = false →
      ∀ packet ∈ u.inner.recvRx.queue.take budget, packet.ack ≤ u.inner.seq
  | _ => True

theorem AcksWithinSeq.ackInBounds {u : UdxStream} {e : Event} (h : AcksWithinSeq u e) : AckInBounds u e := by
  cases e with
  | recv header buf source => trivial
  | call c =>
      cases c with
      | poll waker timerLag budget maxGsoSegments =>
          intro hrunning hopen
          unfold appliedAck
          split
          · exact UInt32.zero_le
          · exact largestAck_le UInt32.zero_le (h hrunning hopen)
      | _ => trivial

/-! ### What is in flight is not acknowledged -/

/-- Something is in flight only if a packet is outstanding. -/
theorem Accounted.exists_outgoing {v : SendSide} (hv : Accounted v) (hpos : 0 < v.inflight) :
    ∃ k, k ∈ v.outgoing := by
  by_contra hnone
  have hempty : v.outgoing.entries = [] := by
    by_contra hne
    obtain ⟨k, packet, hlookup⟩ := AList.exists_lookup_of_entries hne
    exact hnone ⟨k, AList.mem_of_lookup hlookup⟩
  have hzero : v.outgoing.total flightWeight = 0 := by rw [AList.total, hempty]; rfl
  have hinflight := hv.inflight_eq
  omega

/-- While the window has no room for a packet of any size, something is not acknowledged. -/
theorem unacked_of_full {s : UdxStreamInner} {len : Nat} (haccounted : Accounted s.sendSide)
    (hkeys : KeysUnacked s.sendSide) (hroomy : udxMtu ≤ s.cwnd) (hlen : len ≤ udxMtu)
    (hfull : s.cwnd < s.inflight + len) : s.remoteAcked < s.seq := by
  obtain ⟨k, hk⟩ := haccounted.exists_outgoing (show 0 < s.inflight by omega)
  exact UInt32.lt_of_le_of_lt (hkeys k hk) (haccounted.keys_lt k hk)

/-! ### Polls -/

/-- The writer is the one who waited before, and the stream has not been terminated since. -/
def StillWaiting (s t : UdxStreamInner) : Prop :=
  t.writeWaker.isSome = true → s.writeWaker.isSome = true ∧ t.error = s.error

theorem ackPacket_stillWaiting {s t : UdxStreamInner} (i : UInt32) (h : StillWaiting s t) :
    StillWaiting s (t.ackPacket now i) := by
  unfold ackPacket
  split <;> exact h

/-- A packet wakes the writer when it terminates the stream. -/
theorem handleIncoming_stillWaiting (s : UdxStreamInner) (packet : IncomingPacket) :
    StillWaiting s (s.handleIncoming now packet) :=
  handleIncoming_invariant (fun _ _ h => h) (fun _ i h => ackPacket_stillWaiting i h)
    (fun _ _ h => by cases h) (fun _ _ h => h) (fun _ _ h => h) packet fun h => ⟨h, rfl⟩

/-- An acknowledgement that moves `remote_acked` wakes the writer, unless the window is too full. -/
theorem handleIncomingMaxRemoteAck_writer (s : UdxStreamInner) (ack : UInt32) :
    let t := s.handleIncomingMaxRemoteAck now ack
    StillWaiting s t ∧ (t.writeWaker.isSome = true →
      t.remoteAcked = s.remoteAcked ∨ t.cwnd < t.inflight + udxMtu) := by
  have hloop : ∀ (n : Nat) (t : UdxStreamInner), StillWaiting s t → StillWaiting s (ackLoop now n t) := by
    intro n
    induction n with
    | zero => exact fun _ h => h
    | succ n ih => exact fun t h => ih _ (ackPacket_stillWaiting _ h)
  have hacked : StillWaiting s (ackLoop now (ack.toNat - s.remoteAcked.toNat) s) := hloop _ s fun h => ⟨h, rfl⟩
  unfold handleIncomingMaxRemoteAck
  split
  · exact ⟨fun h => ⟨h, rfl⟩, fun _ => Or.inl rfl⟩
  · simp only [StillWaiting, wakeWriter, resetTimer] at hacked ⊢
    split_ifs with hroom
    · exact ⟨fun h => (by cases h), fun h => (by cases h)⟩
    · exact ⟨hacked, fun _ => Or.inr (by simpa using hroom)⟩

theorem StillWaiting.trans {s t v : UdxStreamInner} (hst : StillWaiting s t) (htv : StillWaiting t v) :
    StillWaiting s v := by
  intro h
  obtain ⟨hwaiting, herror⟩ := htv h
  obtain ⟨hbefore, hsame⟩ := hst hwaiting
  exact ⟨hbefore, herror.trans hsame⟩

theorem pollIncoming_writer (s : UdxStreamInner) (cx : Context) :
    let t := (s.pollIncoming cx).1
    StillWaiting s t ∧ (t.writeWaker.isSome = true →
      t.remoteAcked = s.remoteAcked ∨ t.cwnd < t.inflight + udxMtu) := by
  have hhandled : StillWaiting s (s.handled cx) :=
    handled_invariant (StillWaiting s) (fun h => ⟨h, rfl⟩) fun t packet ht =>
      ht.trans (handleIncoming_stillWaiting t packet)
  have hacked : (s.handled cx).remoteAcked = s.remoteAcked :=
    handled_frame remoteAcked (fun _ _ => rfl) handleIncoming_remoteAcked s
  obtain ⟨hstill, hwake⟩ := @handleIncomingMaxRemoteAck_writer cx.now (s.handled cx) (appliedAck s cx.budget)
  rw [pollIncoming_state]
  rw [hacked] at hwake
  exact ⟨hhandled.trans hstill, hwake⟩

/-- A poll leaves a writer waiting only for packets that are not acknowledged. -/
theorem pollDrive_writerServed {s : UdxStreamInner} (cx : Context) (haccounted : Accounted s.sendSide)
    (hkeys : KeysUnacked s.sendSide) (hroomy : udxMtu ≤ s.cwnd) (hs : WriterServed s) :
    WriterServed (s.pollDrive cx).1 := by
  let view (s : UdxStreamInner) := (s.writeWaker, s.remoteAcked, s.seq, s.error)
  let t := (s.pollIncoming cx).1
  have hframe : view (s.pollDrive cx).1 = view t :=
    pollDrive_frame view (fun _ _ => rfl) (fun _ _ _ _ => rfl) (fun _ _ _ _ => rfl) (fun _ _ _ => rfl) s cx
  have hchain : Chain UdxStream.anyPacket cx.now s t := incomingLoop_chain _ _ s (Or.inl rfl) fun _ _ => trivial
  have hseq : t.seq = s.seq := chain_value seq (fun _ _ h => h.seq_eq) hchain
  obtain ⟨hstill, hwake⟩ := pollIncoming_writer s cx
  have hserved : WriterServed t := by
    intro hwaiting
    obtain ⟨hbefore, herror⟩ := hstill hwaiting
    obtain ⟨hlt, hnone⟩ := hs hbefore
    refine ⟨?_, herror.trans hnone⟩
    rcases hwake hwaiting with hsame | hfull
    · rw [show t.remoteAcked = s.remoteAcked from hsame, hseq]
      exact hlt
    · exact unacked_of_full
        (chain_invariant (fun s => Accounted s.sendSide) (fun _ _ h => h.accounted) hchain haccounted)
        (chain_invariant (fun s => KeysUnacked s.sendSide) (fun _ _ h => h.keysUnacked) hchain hkeys)
        (chain_invariant (fun s => udxMtu ≤ s.cwnd)
          (fun _ _ h hs => roomy_invariant.move _ _ _ (.micro h) hs trivial) hchain hroomy)
        (Nat.le_refl _) hfull
  unfold WriterServed at hserved ⊢
  rw [show (s.pollDrive cx).1.writeWaker = _ from congrArg Prod.fst hframe,
    show (s.pollDrive cx).1.remoteAcked = _ from congrArg (fun v => v.2.1) hframe,
    show (s.pollDrive cx).1.seq = _ from congrArg (fun v => v.2.2.1) hframe,
    show (s.pollDrive cx).1.error = _ from congrArg (fun v => v.2.2.2) hframe]
  exact hserved

/-! ### Runs -/

/-- What keeps writers from being forgotten. -/
def WriterSafe (s : UdxStreamInner) : Prop :=
  Accounted s.sendSide ∧ InWindow s ∧ udxMtu ≤ s.cwnd ∧ WriterServed s

theorem InWindow.keysUnacked {s : UdxStreamInner} (hs : InWindow s) : KeysUnacked s.sendSide :=
  fun k hk => (Counter.mem_range.mp (hs.2 k hk)).1

theorem writerSafe_callInvariant (now : Nat) : CallInvariant now fun s => FewCreated s → WriterSafe s where
  push := fun s body herror hbody hlen hroom hs hfew => by
    have hsend : Move (fun _ => False) now s (s.pushData now body) := .send s body herror hbody hlen hroom
    obtain ⟨haccounted, hwindow, hroomy, hserved⟩ := hs (hsend.fewCreated hfew)
    have hpushed := hsend.accounted haccounted hfew
    have hseq : s.seq < s.seq + 1 := hpushed.keys_lt s.seq ((AList.mem_insert _).mpr (Or.inl rfl))
    exact ⟨hpushed, hsend.inWindow hwindow haccounted hfew, hroomy, fun hwaiting =>
      ⟨UInt32.lt_trans (hserved hwaiting).1 hseq, herror⟩⟩
  blocked := fun s _ len herror hlen hfull hs hfew => by
    obtain ⟨haccounted, hwindow, hroomy, -⟩ := hs hfew
    have hle : len ≤ udxMtu := Nat.le_trans hlen (by decide)
    exact ⟨haccounted, hwindow, hroomy, fun _ =>
      ⟨unacked_of_full haccounted hwindow.keysUnacked hroomy hle hfull, herror⟩⟩
  readPart := fun _ _ _ hs => hs
  readWhole := fun _ _ hs => hs
  readWaker := fun _ _ hs => hs
  terminate := fun _ _ hs hfew => by
    obtain ⟨haccounted, hwindow, hroomy, -⟩ := hs hfew
    exact ⟨haccounted, hwindow, hroomy, fun h => by cases h⟩
  slot := fun _ _ _ hs => hs
  complete := fun _ hs => hs
  mark := fun s i packet sent hlookup hs hfew => by
    obtain ⟨haccounted, hwindow, hroomy, hserved⟩ := hs hfew
    have hmark : Move (fun _ => False) now s _ := .micro (.mark s i packet sent hlookup)
    exact ⟨hmark.accounted haccounted hfew, hmark.inWindow hwindow haccounted hfew, hroomy, hserved⟩
  gone := fun _ _ _ hs => hs

theorem step_writerSafe (u : UdxStream) (e : Event) (hguard : AcksWithinSeq u e)
    (hu : FewCreated u.inner → WriterSafe u.inner) (hfew : FewCreated (u.step e).inner) :
    WriterSafe (u.step e).inner := by
  cases e with
  | recv header buf source => exact hu hfew
  | call c =>
      by_cases hdrives : u.drives c
      · cases c with
        | poll waker timerLag budget maxGsoSegments =>
            have hadvance := u.step_advance_any (.call (.poll waker timerLag budget maxGsoSegments))
            obtain ⟨haccounted, hwindow, hroomy, hserved⟩ := hu (accounted_invariant.advance_back hadvance hfew)
            refine ⟨accounted_invariant.advance hadvance haccounted hfew,
              (step_inWindow_iff u _ haccounted hwindow hfew).mpr hguard.ackInBounds,
              roomy_invariant.advance hadvance hroomy trivial, ?_⟩
            change WriterServed (u.call _).inner
            rw [UdxStream.call_poll hdrives.1]
            exact UdxStream.poll_invariant _ (fun _ _ _ h => by cases h) (fun _ _ _ hs => hs) (fun _ _ _ hs => hs)
              hdrives.2 (pollDrive_writerServed (s := { u.inner with driveWaker := none }) _ haccounted
                hwindow.keysUnacked hroomy hserved)
        | _ => exact hdrives.elim
      · exact u.call_invariant c (writerSafe_callInvariant _) hdrives hu hfew

/-- **No writer is forgotten.** In every state of a run in which every incoming packet acknowledges at most what
was sent when it is handled, as long as fewer than `2 ^ 32` data packets were created: a registered writer waits
for a packet that is not acknowledged, and the stream has not been terminated. -/
theorem writer_not_forgotten (start : Nat) (dest : SocketAddr) (remoteId localId : UInt32) (events : List Event)
    (hacks : Runs.Along UdxStream.step AcksWithinSeq (.connect start dest remoteId localId) events) :
    Runs.Always UdxStream.step (fun u => FewCreated u.inner → u.inner.writeWaker.isSome = true →
      u.inner.remoteAcked < u.inner.seq ∧ u.inner.error = none) (.connect start dest remoteId localId) events := by
  refine Runs.always_of_along (fun u : UdxStream => FewCreated u.inner → WriterSafe u.inner)
    (fun _ hu hfew => (hu hfew).2.2.2) (fun u e hu hguard => step_writerSafe u e hguard hu) (fun _ => ?_) hacks
  exact ⟨connect_accounted _ _ _ _, connect_inWindow _ _ _ _, roomy_invariant.connect _ _ _ _, fun h => by cases h⟩

/-! ### When the sequence numbers are used up

Nothing in the stream prevents `seq` from wrapping around. A run that creates `2 ^ 32` packets, all but the last
two of them acknowledged selectively, comes back to the sequence number `remote_acked` still has. -/

/-- The arrival of a packet that acknowledges one packet selectively. -/
def sackArrival (n : UInt32) : Event :=
  .recv ⟨udxHeaderSack, 0, 1, 0xffffffff, 0, 0⟩ (toLeBytes n ++ toLeBytes (n + 1) ++ [0]) ⟨.v4 0, 2⟩

def sackedWrite (n : Nat) : List Event :=
  [.call (.write 0 [1]), sackArrival (UInt32.ofNat n), .call (.poll 0 0 10 1)]

/-- A stream that has created `n` packets, none of which is outstanding, and has applied no acknowledgement. -/
structure Settled (n : UInt32) (s : UdxStreamInner) : Prop where
  error : s.error = none
  outgoing : s.outgoing.entries = []
  sendTx : s.sendTx.closed = false
  recvRx : s.recvRx = {}
  seq : s.seq = n
  remoteAcked : s.remoteAcked = 0
  inflight : s.inflight = 0
  cwnd : s.cwnd = 2800
  rtoTimeout : s.rtoTimeout = millis 1000
  onFirewall : s.onFirewall = none

theorem sacked_single {n : UInt32} (hn : n.toNat + 1 < 2 ^ 32) {packet : IncomingPacket}
    (htyp : packet.header.typ = udxHeaderSack)
    (hbuf : packet.buf = toLeBytes n ++ toLeBytes (n + 1) ++ [0]) : packet.sacked = [n] := by
  have htype : packet.hasType udxHeaderSack = true := by
    rw [IncomingPacket.hasType, htyp]
    decide
  have hrange : Counter.range n (n + 1) = [n] := by simp [Counter.range, Counter.toNat_succ hn]
  have hlen : (toLeBytes n ++ toLeBytes (n + 1) ++ [0]).length = 9 := rfl
  have hstart : slice (toLeBytes n ++ toLeBytes (n + 1) ++ [0]) 0 (0 + 4) = toLeBytes n := rfl
  have hstop : slice (toLeBytes n ++ toLeBytes (n + 1) ++ [0]) (0 + 4) (0 + 8) = toLeBytes (n + 1) := rfl
  rw [IncomingPacket.sacked, if_pos htype, hbuf, hlen, sackedFrom, hlen, if_pos (by decide), hstart, hstop,
    readU32Le_toLeBytes, readU32Le_toLeBytes, hrange, sackedFrom, hlen, if_neg (by decide), List.append_nil]

/-- A SACK packet without an acknowledgement does nothing but acknowledge selectively. -/
theorem handleIncoming_sack {s : UdxStreamInner} {packet : IncomingPacket} (hfirewall : s.onFirewall = none)
    (htyp : packet.header.typ = udxHeaderSack) (hack : packet.header.ack = 0) :
    s.handleIncoming now packet = packet.sacked.foldl (fun s i => s.ackPacket now i)
      { s with stats := { s.stats with rxPackets := s.stats.rxPackets + 1 } } := by
  have hend : ¬packet.hasType udxHeaderEnd = true := by
    rw [IncomingPacket.hasType, htyp]
    decide
  have hdata : ¬packet.hasType udxHeaderData = true := by
    rw [IncomingPacket.hasType, htyp]
    decide
  rw [handleIncoming_parts hfirewall, endPart, if_neg hend, dataPart, if_neg hdata]
  unfold congestionControl
  rw [hack, if_neg (by simp), if_neg (by simp)]

theorem pollIncoming_sack {s : UdxStreamInner} {packet : IncomingPacket} {n : UInt32} {cx : Context}
    (hfirewall : s.onFirewall = none) (hqueue : s.recvRx = { queue := [packet] })
    (htyp : packet.header.typ = udxHeaderSack) (hack : packet.header.ack = 0) (hn : packet.sacked = [n])
    (hbudget : cx.budget = 10) :
    s.pollIncoming cx = (({ s with
      recvRx := {}, stats := { s.stats with rxPackets := s.stats.rxPackets + 1 } }).ackPacket cx.now n, .ok ()) := by
  have hrecv : s.recvRx.closed = false := by rw [hqueue]
  have hstate := pollIncoming_singleton (by rw [hqueue]) hrecv (show 0 < cx.budget by omega)
  rw [hqueue, handleIncoming_sack (s := { s with recvRx := {} }) hfirewall htyp hack, hn, List.foldl_cons,
    List.foldl_nil, IncomingPacket.ack, hack, handleIncomingMaxRemoteAck_zero] at hstate
  exact Prod.ext hstate (pollIncoming_open hrecv cx)

/-- Acknowledging the only outstanding packet right after it was sent undoes the sending. -/
theorem ackPacket_pushed {s t : UdxStreamInner} {packet : Packet} (now : Nat) (hempty : s.outgoing.entries = [])
    (hout : t.outgoing = s.outgoing.insert s.seq packet) (hidle : packet.waiting = false)
    (hinflight : t.inflight = s.inflight + packet.len) :
    (t.ackPacket now s.seq).outgoing.entries = [] ∧ (t.ackPacket now s.seq).inflight = s.inflight := by
  have hlookup : t.outgoing.lookup s.seq = some packet := by rw [hout, AList.lookup_insert]
  rw [ackPacket, hlookup]
  constructor
  · change List.kerase s.seq t.outgoing.entries = []
    rw [hout, AList.entries_insert, hempty]
    exact List.kerase_cons_eq rfl
  · change (if packet.waiting then t.inflight else usizeSub t.inflight packet.len) = s.inflight
    rw [hidle, if_neg (by decide), hinflight, usizeSub_of_le (by omega)]
    omega

theorem Settled.pushed_acked {n : UInt32} {s : UdxStreamInner} (h : Settled n s) (now : Nat) (stats : StreamStats) :
    Settled (n + 1)
      (({ s.pushData now [1] with driveWaker := none, recvRx := {}, stats := stats }).ackPacket now n) := by
  have hacked := ackPacket_pushed (s := s)
    (t := { s.pushData now [1] with driveWaker := none, recvRx := {}, stats := stats }) now h.outgoing rfl rfl rfl
  rw [h.seq, h.inflight] at hacked
  have hseq : (s.pushData now [1]).seq = n + 1 := congrArg (· + 1) h.seq
  refine ⟨?_, hacked.1, ?_, ?_, ?_, ?_, hacked.2, ?_, ?_, ?_⟩ <;> unfold ackPacket <;> dsimp only <;> split
  all_goals first | exact hseq | rfl | exact h.1 | exact h.3 | exact h.6 | exact h.8 | exact h.9 | exact h.10

/-- A poll whose incoming packets leave nothing outstanding transmits what is queued and waits. -/
theorem poll_settled {u : UdxStream} {s : UdxStreamInner} {n : UInt32} (hdriver : u.driver = .running)
    (hclock : u.clock = 0) (herror : u.inner.error = none)
    (hincoming : ({ u.inner with driveWaker := none }).pollIncoming ⟨0, u.clock, 0, 10, 1⟩ = (s, .ok ()))
    (hs : Settled n s) : ∃ t, u.call (.poll 0 0 10 1) = { u with inner := t } ∧ Settled n t := by
  let cx : Context := ⟨0, u.clock, 0, 10, 1⟩
  have hcheck : s.pollCheckTimeouts cx = (s, .ok ()) := if_pos (by
    rw [hs.rtoTimeout]
    change u.clock < millis 1000 + 0
    rw [hclock]
    decide)
  have hflush : s.flushWaitingPackets cx.now = s := flushLoop_empty _ hs.outgoing
  have hsent : s.pollTransmit cx = ((s.pollTransmit cx).1, .ok ()) :=
    Prod.ext rfl (transmitLoop_ok _ _ _ _ _ hs.sendTx)
  have hopen : closedAndDrained { u.inner with driveWaker := none } = false := by
    rw [closedAndDrained, herror]
    rfl
  have hdrive : pollDrive { u.inner with driveWaker := none } cx = ((s.pollTransmit cx).1, .ok false) := by
    rw [pollDrive, hincoming]
    dsimp only
    rw [hcheck]
    dsimp only
    rw [hflush, hsent]
  refine ⟨{ (s.pollTransmit cx).1 with driveWaker := some 0 }, ?_, ?_⟩
  · rw [UdxStream.call_poll hdriver, UdxStream.poll, pollDriver]
    dsimp only
    rw [hopen, if_neg (by decide), hdrive]
    rfl
  · obtain ⟨rest, sets, hloop, -⟩ := transmitLoop_spec (min cx.maxGsoSegments maxSegments) s.sendQueue 0 [] s
    rw [pollTransmit, hloop]
    exact ⟨hs.1, hs.2, hs.3, hs.4, hs.5, hs.6, hs.7, hs.8, hs.9, hs.10⟩

/-- The task of a settled stream at the start of time. -/
structure Idle (n : UInt32) (u : UdxStream) : Prop where
  handles : u.handles ≠ 0
  driver : u.driver = .running
  clock : u.clock = 0
  inner : Settled n u.inner

theorem Idle.write {n : UInt32} {u : UdxStream} (h : Idle n u) :
    (u.call (.write 0 [1])) = { u with
      inner := u.inner.pushData u.clock [1]
      accepted := (u.call (.write 0 [1])).accepted } := by
  have hroom : u.inner.inflight + [1].length ≤ u.inner.cwnd := by
    rw [h.inner.inflight, h.inner.cwnd]
    decide
  have hsent : (u.inner.pollWrite u.clock 0 [1]).1 = u.inner.pushData u.clock [1] :=
    pollWrite_admits h.inner.error (by simp) (by decide) hroom
  rw [← hsent]
  exact UdxStream.write_eq u 0 [1] h.handles

theorem Idle.next {n : Nat} {u : UdxStream} (h : Idle (UInt32.ofNat n) u) (hn : n + 1 < 2 ^ 32) :
    Idle (UInt32.ofNat (n + 1)) (u.run (sackedWrite n)) := by
  have hnat : (UInt32.ofNat n).toNat + 1 < 2 ^ 32 := by rwa [Counter.toNat_ofNat (by omega)]
  change Idle _ (((u.call (.write 0 [1])).step (sackArrival (UInt32.ofNat n))).call (.poll 0 0 10 1))
  rw [h.write]
  generalize (u.call (.write 0 [1])).accepted = accepted
  let sent := UdxStream.step
    { u with inner := u.inner.pushData u.clock [1], accepted := accepted } (sackArrival (UInt32.ofNat n))
  have hqueue : sent.inner.recvRx = { queue := [⟨⟨udxHeaderSack, 0, 1, 0xffffffff, 0, 0⟩,
      toLeBytes (UInt32.ofNat n) ++ toLeBytes (UInt32.ofNat n + 1) ++ [0], 0, ⟨.v4 0, 2⟩⟩] } := by
    have hrecv : (u.inner.pushData u.clock [1]).recvRx = {} := h.inner.recvRx
    change ({ (u.inner.pushData u.clock [1]).recvRx with
      queue := (u.inner.pushData u.clock [1]).recvRx.queue ++ [_] } : RecvChannel) = _
    rw [hrecv]
    rfl
  obtain ⟨t, hpoll, ht⟩ := poll_settled (u := sent) h.driver h.clock h.inner.error
    (pollIncoming_sack (s := { sent.inner with driveWaker := none }) h.inner.onFirewall hqueue rfl rfl
      (sacked_single hnat rfl rfl) rfl) (h.inner.pushed_acked u.clock _)
  rw [hpoll, UInt32.ofNat_add]
  exact ⟨h.handles, h.driver, h.clock, ht⟩

theorem Idle.cycles {u : UdxStream} (h : Idle 0 u) (n : Nat) (hn : n < 2 ^ 32) :
    Idle (UInt32.ofNat n) (u.run ((List.range n).flatMap sackedWrite)) := by
  induction n with
  | zero => exact h
  | succ n ih =>
      rw [List.range_succ, List.flatMap_append, List.flatMap_singleton, UdxStream.run, Runs.run, List.foldl_append]
      exact (ih (by omega)).next hn

/-- The packets of the run acknowledge nothing that was not sent. -/
theorem Idle.cycles_acks {u : UdxStream} (h : Idle 0 u) (n : Nat) (hn : n < 2 ^ 32) :
    Runs.Along UdxStream.step AcksWithinSeq u ((List.range n).flatMap sackedWrite) := by
  induction n with
  | zero => trivial
  | succ n ih =>
      have hidle := h.cycles n (by omega)
      rw [List.range_succ, List.flatMap_append, List.flatMap_singleton, Runs.along_append]
      refine ⟨ih (by omega), trivial, trivial, ?_, trivial⟩
      intro _ _ packet hpacket
      change packet ∈ ((UdxStream.call _ (.write 0 [1])).inner.recvRx.queue ++ [_]).take 10 at hpacket
      rw [show Runs.run UdxStream.step u _ = u.run _ from rfl, hidle.write] at hpacket
      dsimp only at hpacket
      rw [show ∀ s : UdxStreamInner, (s.pushData _ [1]).recvRx = s.recvRx from fun _ => rfl,
        hidle.inner.recvRx] at hpacket
      rw [List.mem_singleton.mp hpacket]
      exact UInt32.zero_le

/-- Two packets fill the window, and a writer waits. -/
def fillWindow : List Event :=
  [.call (.write 0 (List.replicate 1380 1)), .call (.write 0 (List.replicate 1380 1)), .call (.write 0 [1])]

theorem Idle.fill {n : UInt32} {u : UdxStream} (h : Idle n u) :
    ∃ s accepted, u.run fillWindow = { u with inner := s, accepted := accepted } ∧
      s.writeWaker = some 0 ∧ s.remoteAcked = 0 ∧ s.seq = n + 1 + 1 := by
  let body : List UInt8 := List.replicate 1380 1
  have hlen : body.length = 1380 := List.length_replicate
  have hne : body ≠ [] := by
    rw [← List.length_pos_iff, hlen]
    decide
  have hpushed : ∀ s : UdxStreamInner, (s.pushData u.clock body).inflight = s.inflight + 1400 := by
    intro s
    rw [pushData_inflight, hlen]
    rfl
  let first := u.inner.pushData u.clock body
  let second := first.pushData u.clock body
  have hfirst : first.inflight = 1400 := by rw [hpushed, h.inner.inflight]
  have hsecond : second.inflight = 2800 := by rw [hpushed, hfirst]
  have hcwnd : first.cwnd = 2800 ∧ second.cwnd = 2800 := ⟨h.inner.cwnd, h.inner.cwnd⟩
  have h1 := UdxStream.write_eq u 0 body h.handles
  rw [pollWrite_admits h.inner.error hne hlen.le (by rw [h.inner.inflight, hlen, h.inner.cwnd]; decide)] at h1
  generalize (u.call (.write 0 body)).accepted = accepted1 at h1
  have h2 := UdxStream.write_eq { u with inner := first, accepted := accepted1 } 0 body h.handles
  rw [pollWrite_admits (s := first) h.inner.error hne hlen.le (by rw [hfirst, hlen, hcwnd.1]; decide)] at h2
  generalize (UdxStream.call _ (.write 0 body)).accepted = accepted2 at h2
  have h3 := UdxStream.write_eq { u with inner := second, accepted := accepted2 } 0 [1] h.handles
  rw [pollWrite_blocked (s := second) h.inner.error (by simp) (by decide)
    (by rw [hsecond, hcwnd.2]; decide)] at h3
  generalize (UdxStream.call _ (.write 0 [1])).accepted = accepted3 at h3
  refine ⟨{ second with writeWaker := some 0 }, accepted3, ?_, rfl, h.inner.remoteAcked, ?_⟩
  · change ((u.call (.write 0 body)).call (.write 0 body)).call (.write 0 [1]) = _
    rw [h1, h2, h3]
  · exact congrArg (· + 1 + 1) h.inner.seq

/-- `n` packets that are acknowledged selectively, two that fill the window, and a writer that waits. -/
def blockedAfterRun (n : Nat) : List Event :=
  (List.range n).flatMap sackedWrite ++ fillWindow

theorem blockedAfterRun_spec (n : Nat) (hn : n < 2 ^ 32) :
    Runs.Along UdxStream.step AcksWithinSeq (.connect 0 ⟨.v4 0, 2⟩ 2 1) (blockedAfterRun n) ∧
    ((UdxStream.connect 0 ⟨.v4 0, 2⟩ 2 1).run (blockedAfterRun n)).inner.writeWaker = some 0 ∧
    ((UdxStream.connect 0 ⟨.v4 0, 2⟩ 2 1).run (blockedAfterRun n)).inner.remoteAcked = 0 ∧
    ((UdxStream.connect 0 ⟨.v4 0, 2⟩ 2 1).run (blockedAfterRun n)).inner.seq = UInt32.ofNat n + 1 + 1 := by
  have hconnect : Idle 0 (.connect 0 ⟨.v4 0, 2⟩ 2 1) :=
    ⟨by decide, rfl, rfl, ⟨rfl, rfl, rfl, rfl, rfl, rfl, rfl, rfl, rfl, rfl⟩⟩
  have happend : (UdxStream.connect 0 ⟨.v4 0, 2⟩ 2 1).run (blockedAfterRun n) =
      ((UdxStream.connect 0 ⟨.v4 0, 2⟩ 2 1).run ((List.range n).flatMap sackedWrite)).run fillWindow :=
    List.foldl_append
  refine ⟨(Runs.along_append _ _ _).mpr ⟨hconnect.cycles_acks n hn, trivial, trivial, trivial, trivial⟩, ?_⟩
  obtain ⟨s, accepted, hfill, hs⟩ := (hconnect.cycles n hn).fill
  rw [happend, hfill]
  exact hs

/-- A writer waits, with three packets acknowledged and two outstanding. -/
theorem writer_not_forgotten_blocked :
    let u := (UdxStream.connect 0 ⟨.v4 0, 2⟩ 2 1).run (blockedAfterRun 3)
    u.inner.writeWaker = some 0 ∧ FewCreated u.inner ∧
    Runs.Along UdxStream.step AcksWithinSeq (.connect 0 ⟨.v4 0, 2⟩ 2 1) (blockedAfterRun 3) ∧
    Runs.Always UdxStream.step (fun u => FewCreated u.inner → u.inner.writeWaker.isSome = true →
      u.inner.remoteAcked < u.inner.seq ∧ u.inner.error = none) (.connect 0 ⟨.v4 0, 2⟩ 2 1) (blockedAfterRun 3) := by
  obtain ⟨hacks, hwaker, -⟩ := blockedAfterRun_spec 3 (by decide)
  exact ⟨hwaker, by decide +kernel, hacks, writer_not_forgotten 0 ⟨.v4 0, 2⟩ 2 1 _ hacks⟩

/-- After `2 ^ 32` packets a writer is registered while `remote_acked` and `seq` are equal. -/
theorem writer_forgotten_after_wrap :
    Runs.Along UdxStream.step AcksWithinSeq (.connect 0 ⟨.v4 0, 2⟩ 2 1) (blockedAfterRun (2 ^ 32 - 2)) ∧
    ((UdxStream.connect 0 ⟨.v4 0, 2⟩ 2 1).run (blockedAfterRun (2 ^ 32 - 2))).inner.writeWaker.isSome = true ∧
    ¬((UdxStream.connect 0 ⟨.v4 0, 2⟩ 2 1).run (blockedAfterRun (2 ^ 32 - 2))).inner.remoteAcked <
      ((UdxStream.connect 0 ⟨.v4 0, 2⟩ 2 1).run (blockedAfterRun (2 ^ 32 - 2))).inner.seq := by
  generalize hn : 2 ^ 32 - 2 = n
  obtain ⟨hacks, hwaker, hacked, hseq⟩ := blockedAfterRun_spec n (by omega)
  refine ⟨hacks, ?_⟩
  rw [hwaker, hacked, hseq, ← hn]
  decide

end AsyncUdx
