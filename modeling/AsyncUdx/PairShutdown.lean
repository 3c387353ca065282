import AsyncUdx.PairRecovery

/-! How a close gets to the other side. The END of a stream travels in a state packet, which is transmitted once and
never again: nothing acknowledges it, no timer guards it, and when the driver has completed, nothing of the stream is
transmitted any more. A peer that has data outstanding will notice the silence, since its packets time out. A peer that
has nothing outstanding has no timer running, and waits for as long as its users do. -/

namespace AsyncUdx

open Relation UdxStreamInner

/-! ### A stream with nothing outstanding -/

/-- Calls that neither end a stream nor give it something to send. -/
def Call.Idle : Call → Prop
  | .write .. | .close | .drop | .socketGone .. => False
  | _ => True

theorem Call.Idle.setting_eq {c : Call} (hc : c.Idle) (u : UdxStream) :
    (u.call c).inner.setting = u.inner.setting := by
  refine UdxStream.call_frame setting u c (fun _ _ _ h => h.setting_eq) (fun _ _ => rfl) (fun _ _ _ => rfl) ?_
    (fun _ _ _ => ⟨fun _ _ _ => rfl, fun _ _ => rfl⟩) (fun _ _ => rfl) ?_
  · rintro waker buf rfl
    exact hc.elim
  · rintro recvClosed sendClosed rfl
    exact hc.elim

/-- A stream that takes packets and has nothing outstanding. -/
structure Lingering (u : UdxStream) : Prop extends Listening u where
  acked : u.inner.remoteAcked = u.inner.seq

theorem Lingering.arrive {u : UdxStream} (h : Lingering u) {header : Header} {buf : List UInt8} {source : SocketAddr}
    (hend : (IncomingPacket.mk header buf 0 source).hasType udxHeaderEnd = false) :
    Lingering (u.step (.recv header buf source)) where
  running := h.running
  recv := h.recv
  send := h.send
  error := h.error
  channel := by
    intro packet hpacket
    rcases List.mem_append.mp hpacket with hbefore | hnew
    · exact h.channel packet hbefore
    · rw [List.mem_singleton.mp hnew]
      exact hend
  onTime := h.onTime
  acked := h.acked

theorem markSent_unreadSide (s : UdxStreamInner) (sent : Nat) (seq : UInt32) :
    (UdxStream.markSent s sent seq).unreadSide = s.unreadSide := by
  unfold UdxStream.markSent
  split <;> rfl

/-- Whatever an idle call does, the stream stays as it is, as long as no acknowledgement is out of bounds. -/
theorem Lingering.call {u : UdxStream} (hu : u.Reachable) (h : Lingering u) {c : Call} (hc : c.Idle)
    (hwindow : (u.call c).inner.remoteAcked ≤ (u.call c).inner.seq) : Lingering (u.call c) := by
  have hsame : ∀ v : UdxStream, v.driver = u.driver → v.inner.unreadSide = u.inner.unreadSide → Lingering v := by
    intro v hdriver hside
    have hrecv : v.inner.recvRx = u.inner.recvRx := congrArg Prod.fst hside
    have hacked : v.inner.remoteAcked = v.inner.seq := (congrArg (fun side => side.2.2.2.2.1) hside).trans
      (h.acked.trans (congrArg (fun side => side.2.2.2.2.2) hside).symm)
    exact {
      running := hdriver.trans h.running
      recv := by rw [hrecv]; exact h.recv
      send := (congrArg (fun side => side.2.1.closed) hside).trans h.send
      error := (congrArg (fun side => side.2.2.1) hside).trans h.error
      channel := by rw [hrecv]; exact h.channel
      onTime := Or.inr hacked
      acked := hacked }
  cases c with
  | poll waker timerLag budget maxGsoSegments =>
      have hseq := congrArg Setting.seq (Call.Idle.setting_eq hc u)
      rw [UdxStream.call_poll h.running] at hwindow hseq ⊢
      let cx : Context := ⟨waker, u.clock, timerLag, budget, maxGsoSegments⟩
      have hcheck : (u.checked cx).2 = .ok () := h.toListening.checked hu rfl
      have hacked : (u.poll cx).inner.remoteAcked = (u.poll cx).inner.seq := by
        refine UInt32.le_antisymm hwindow ?_
        rw [show (u.poll cx).inner.seq = u.inner.seq from hseq, poll_remoteAcked h.going, ← h.acked]
        exact Counter.le_larger_left _ _
      exact ⟨⟨h.toOnline.poll h.going hcheck, h.toHeeds.poll h.toOnline hcheck, Or.inr hacked⟩, hacked⟩
  | read waker remaining =>
      refine hsame _ ?_ (readSide_call u waker remaining)
      rw [UdxStream.call]
      split <;> rfl
  | clone =>
      rw [UdxStream.call]
      split <;> exact hsame _ rfl rfl
  | tick elapsed => exact hsame _ rfl rfl
  | markSent seq sent => exact hsame _ rfl (markSent_unreadSide _ _ _)
  | _ => exact hc.elim

/-- A stream that was terminated creates no more data packets. -/
theorem step_created_terminated {u : UdxStream} (herror : u.inner.error.isSome) (e : Event) :
    (u.step e).inner.ghost.created = u.inner.ghost.created := by
  have hkept := (u.step_advance_any e).invariant
    (fun s => s.error.isSome ∧ s.ghost.created = u.inner.ghost.created) (fun s t h hs => ?_) (fun _ _ => id)
    ⟨herror, rfl⟩
  · exact hkept.2
  · refine ⟨h.error_isSome hs.1, ?_⟩
    cases h with
    | micro h => exact (congrArg Setting.created h.setting_eq).trans hs.2
    | send body hnone hbody hlen hroom =>
        rw [hnone] at hs
        cases hs.1
    | _ => exact hs.2

/-- A stream whose driver has stopped transmits nothing, whatever its users do. -/
theorem UdxStream.step_sent_stopped {u : UdxStream} (hstopped : u.driver ≠ .running) (e : Event) :
    (u.step e).sent = u.sent := by
  have hsame : ∀ v : UdxStream, v.inner.sendTx.events = u.inner.sendTx.events → v.sent = u.sent := fun v h => by
    rw [sent, sent, h]
  cases e with
  | recv header buf source => rfl
  | call c =>
      cases c with
      | write waker buf =>
          rw [step, call]
          split
          · rfl
          · exact hsame _ (pollWrite_frame (fun s => s.sendTx.events) (fun _ _ => rfl) (fun _ _ => rfl) _ _ _)
      | read waker remaining =>
          exact hsame _ (congrArg (fun side => side.2.1.events) (readSide_call u waker remaining))
      | close =>
          rw [step, call]
          split <;> rfl
      | clone =>
          rw [step, call]
          split <;> rfl
      | drop =>
          rw [step, call]
          split
          · rfl
          · apply hsame
            unfold release onDrop
            split_ifs <;> rfl
      | poll waker timerLag budget maxGsoSegments => rw [step, call, if_neg hstopped]
      | tick elapsed => rfl
      | markSent seq sent => exact hsame _ (congrArg (fun side => side.2.1.events) (markSent_unreadSide _ _ _))
      | socketGone recvClosed sendClosed => rfl

theorem UdxStream.step_stopped {u : UdxStream} (hstopped : u.driver ≠ .running) (e : Event) :
    (u.step e).driver = u.driver := by
  cases e with
  | recv header buf source => rfl
  | call c => exact UdxStream.call_stopped hstopped c

/-- A stream was ended, and so creates no more packets. -/
structure Ended (u : UdxStream) : Prop where
  terminated : u.inner.error.isSome
  few : FewCreated u.inner

theorem Ended.step {u : UdxStream} (h : Ended u) (e : Event) : Ended (u.step e) := by
  refine ⟨step_terminated e h.terminated, ?_⟩
  rw [FewCreated, step_created_terminated h.terminated]
  exact h.few

namespace Pair

/-! ### An END that is lost -/

/-- No END of a side reaches the other one, whose users neither write nor end their stream. -/
def Unheard (x : Side) (p : Pair) : PairEvent → Prop
  | .call z c => z = x.other → c.Idle
  | .deliver z n => z = x → ∀ packet, p.datagram z n = some packet → packet.hasType udxHeaderEnd = false

/-- What the other side sees of such an event. -/
theorem Unheard.other {x : Side} {p : Pair} {e : PairEvent} (he : Unheard x p e) :
    (p.step e).peer x.other = p.peer x.other ∨
    (∃ c, c.Idle ∧ (p.step e).peer x.other = (p.peer x.other).call c) ∨
    ∃ packet : IncomingPacket, packet.hasType udxHeaderEnd = false ∧
      (p.step e).peer x.other = (p.peer x.other).step (.recv packet.header packet.buf packet.source) := by
  cases e with
  | call z c =>
      rw [step, peer_set]
      split_ifs with hz
      · subst hz
        exact Or.inr (Or.inl ⟨c, he rfl, rfl⟩)
      · exact Or.inl rfl
  | deliver z n =>
      rw [step]
      split
      · exact Or.inl rfl
      · rename_i packet hpacket
        rw [peer_set]
        split_ifs with hz
        · have hx : z = x := by cases x <;> cases z <;> first | rfl | cases hz
          subst hx
          exact Or.inr (Or.inr ⟨packet, he rfl packet hpacket, rfl⟩)
        · exact Or.inl rfl

theorem step_or_stay (p : Pair) (e : PairEvent) (x : Side) :
    (p.step e).peer x = p.peer x ∨ ∃ e', (p.step e).peer x = (p.peer x).step e' := by
  cases e with
  | call z c =>
      rw [step, peer_set]
      split_ifs with hz
      · subst hz
        exact Or.inr ⟨_, rfl⟩
      · exact Or.inl rfl
  | deliver z n =>
      rw [step]
      split
      · exact Or.inl rfl
      · rw [peer_set]
        split_ifs with hz
        · subst hz
          exact Or.inr ⟨_, rfl⟩
        · exact Or.inl rfl

theorem step_stopped {p : Pair} {x : Side} (hstopped : (p.peer x).driver ≠ .running) (e : PairEvent) :
    ((p.step e).peer x).driver = (p.peer x).driver ∧ ((p.step e).peer x).sent = (p.peer x).sent := by
  rcases p.step_or_stay e x with hsame | ⟨e', hnext⟩
  · rw [hsame]
    exact ⟨rfl, rfl⟩
  · rw [hnext]
    exact ⟨UdxStream.step_stopped hstopped e', UdxStream.step_sent_stopped hstopped e'⟩

/-- A side whose driver has stopped transmits nothing more. -/
theorem run_sent_stopped {p : Pair} {x : Side} (hstopped : (p.peer x).driver ≠ .running) (events : List PairEvent) :
    ((Runs.run step p events).peer x).sent = (p.peer x).sent := by
  let Inv (q : Pair) : Prop := (q.peer x).driver ≠ .running ∧ (q.peer x).sent = (p.peer x).sent
  have hinv : Inv (Runs.run step p events) := by
    refine Runs.run_invariant Inv (fun q e hq => ?_) ⟨hstopped, rfl⟩ events
    obtain ⟨hdriver, hsent⟩ := step_stopped hq.1 e
    exact ⟨hdriver.trans_ne hq.1, hsent.trans hq.2⟩
  exact hinv.2

/-- One side has ended and the other one has not heard of it. -/
structure HalfOpen (x : Side) (p : Pair) : Prop where
  reachable : p.Reachable
  ended : Ended (p.peer x)
  lingering : Lingering (p.peer x.other)
  few : FewCreated (p.peer x.other).inner

theorem HalfOpen.step {x : Side} {p : Pair} (h : HalfOpen x p) {e : PairEvent} (he : Unheard x p e) :
    HalfOpen x (p.step e) := by
  have hended : Ended ((p.step e).peer x) := by
    rcases p.step_or_stay e x with hsame | ⟨e', hnext⟩
    · rw [hsame]
      exact h.ended
    · rw [hnext]
      exact h.ended.step e'
  have hother := he.other
  have hfew : FewCreated ((p.step e).peer x.other).inner := by
    rcases hother with hsame | ⟨c, hc, hnext⟩ | ⟨packet, -, hnext⟩
    · rw [hsame]
      exact h.few
    · have hcreated : ((p.peer x.other).call c).inner.ghost.created = (p.peer x.other).inner.ghost.created :=
        congrArg Setting.created (hc.setting_eq _)
      rw [hnext, FewCreated, hcreated]
      exact h.few
    · rw [hnext]
      exact h.few
  have hwindow := ((h.reachable.step e).inWindow x.other hfew (by rw [Side.other_other]; exact hended.few)).1
  refine ⟨h.reachable.step e, hended, ?_, hfew⟩
  rcases hother with hsame | ⟨c, hc, hnext⟩ | ⟨packet, hend, hnext⟩
  · rw [hsame]
    exact h.lingering
  · rw [hnext] at hwindow ⊢
    exact h.lingering.call (h.reachable.peer _) hc hwindow
  · rw [hnext]
    exact h.lingering.arrive hend

/-- **A lost END is never made up for.** When the driver of one side has completed, it transmits nothing more in any
continuation of the run. When, besides, neither side has created `2 ^ 32` data packets, and the other side is open, its
driver runs, it has nothing outstanding and no END in its channel: in every run from there on in which its users neither
write nor end their stream and no END reaches it, however long it is and whatever the users of the ended side do, the
other side stays open, its driver running, and no read of it reports an end. -/
theorem lost_end_unnoticed {p : Pair} (hp : p.Reachable) (x : Side) (hcompleted : (p.peer x).driver = .completed) :
    (∀ events, ((Runs.run step p events).peer x).sent = (p.peer x).sent) ∧
    ∀ events, (∀ z, FewCreated (p.peer z).inner) → Lingering (p.peer x.other) → Runs.Along step (Unheard x) p events →
      let q := Runs.run step p events
      (q.peer x.other).driver = .running ∧ (q.peer x.other).inner.error = none ∧
        ∀ waker capacity err, ((q.peer x.other).inner.pollRead waker capacity).2.2 ≠ .ready (.error err) := by
  have hstopped : (p.peer x).driver ≠ .running := by
    rw [hcompleted]
    decide
  refine ⟨run_sent_stopped hstopped, fun events hfew hlingering hevents => ?_⟩
  have hstart : HalfOpen x p :=
    ⟨hp, ⟨((hp.agreed x (hfew x) (hfew _)).completed hcompleted).1, hfew x⟩, hlingering, hfew _⟩
  have hend : HalfOpen x (Runs.run step p events) :=
    Runs.along_invariant (HalfOpen x) (fun _ _ hs he => hs.step he) hstart hevents
  refine ⟨hend.lingering.running, hend.lingering.error, ?_⟩
  intro waker capacity err hread
  obtain ⟨error, herror, -⟩ := pollRead_error hread
  rw [hend.lingering.error] at herror
  cases herror

/-- A side that had nothing outstanding was closed, and its END is the only packet it has transmitted. -/
def endedRun : List PairEvent := [.call .a .close, .call .a (.poll 0 0 10 1), .call .a (.poll 0 0 10 1)]

/-- The other side waits, for an hour and more. -/
def waitingRun : List PairEvent :=
  [.call .b (.read 0 8), .call .b (.tick (millis 3600000)), .call .b (.poll 0 0 10 1), .call .a .close,
    .call .b (.read 0 8)]

theorem lost_end_unnoticed_waiting :
    let p := Runs.run step (connect 0 0 ⟨.v4 0, 1⟩ ⟨.v4 0, 2⟩ 1 2) endedRun
    let q := Runs.run step p waitingRun
    p.a.driver = .completed ∧ p.a.sent.length = 1 ∧
    (q.peer .a).sent = (p.peer .a).sent ∧ (q.peer .b).driver = .running ∧ (q.peer .b).inner.error = none ∧
      ∀ waker capacity err, ((q.peer .b).inner.pollRead waker capacity).2.2 ≠ .ready (.error err) := by
  have hreachable : Reachable (Runs.run step (connect 0 0 ⟨.v4 0, 1⟩ ⟨.v4 0, 2⟩ 1 2) endedRun) :=
    ⟨0, 0, _, _, 1, 2, endedRun, rfl⟩
  obtain ⟨hsent, hopen⟩ := lost_end_unnoticed hreachable .a (by decide)
  refine ⟨by decide, by decide, hsent waitingRun, hopen waitingRun ?_ ?_ ?_⟩
  · intro z
    cases z <;> decide
  · exact ⟨⟨⟨by decide, by decide, by decide⟩, ⟨by decide, by decide⟩, Or.inr (by decide)⟩, by decide⟩
  · refine ⟨fun _ => trivial, fun _ => trivial, fun _ => trivial, fun h => ?_, fun _ => trivial, trivial⟩
    cases h

end Pair

/-! ### An END that arrives -/

theorem handleIncoming_end_error (now : Nat) {s : UdxStreamInner} (hfirewall : s.onFirewall = none)
    {packet : IncomingPacket} (htype : packet.header.typ = udxHeaderEnd) :
    (s.handleIncoming now packet).error = some .closedByRemote := by
  have hsack : packet.hasType udxHeaderSack = false := by rw [IncomingPacket.hasType, htype]; decide
  have hend : packet.hasType udxHeaderEnd = true := by rw [IncomingPacket.hasType, htype]; decide
  have hdata : packet.hasType udxHeaderData = false := by rw [IncomingPacket.hasType, htype]; decide
  rw [handleIncoming, firewallPass_of_none hfirewall, hsack, hend, hdata]
  rfl

section Polled

variable {u : UdxStream} {cx : Context} (honline : Online u) (hopen : u.inner.closedAndDrained = false)
  (hcheck : (u.checked cx).2 = .ok ())

include honline hopen hcheck

/-- A poll that takes all packets of the channel, the last of them an END, ends the stream. -/
theorem poll_hears_end (hu : u.Reachable) {rest : List IncomingPacket} {packet : IncomingPacket}
    (hqueue : u.inner.recvRx.queue = rest ++ [packet]) (hbudget : u.inner.recvRx.queue.length ≤ cx.budget)
    (htype : packet.header.typ = udxHeaderEnd) : (u.poll cx).inner.error = some .closedByRemote := by
  let idle : UdxStreamInner := { u.inner with driveWaker := none }
  let before : UdxStreamInner := (idle.drained cx.budget).handleAll cx.now rest
  have hhandled : idle.handled cx = before.handleIncoming cx.now packet := handled_last (s := idle) hqueue hbudget
  have hchain : Chain UdxStream.anyPacket cx.now (idle.drained cx.budget) before :=
    handleAll_chain _ fun _ _ => trivial
  have hfirewall : before.onFirewall = none :=
    (chain_value onFirewall (fun _ _ h => (Move.micro h).onFirewall_eq) hchain).trans hu.onFirewall
  have hchecked : (u.checked cx).1.error = some .closedByRemote := by
    calc (u.checked cx).1.error = (idle.pollIncoming cx).1.error :=
          pollCheckTimeouts_frame error (fun _ _ => rfl) (fun _ _ _ _ => rfl) _ cx
      _ = (idle.handled cx).error := by
          rw [pollIncoming_state]
          exact handleIncomingMaxRemoteAck_frame error ackPacket_error (fun _ _ => rfl) (fun _ _ => rfl)
            (fun _ _ => rfl) _ _
      _ = some .closedByRemote := by rw [hhandled, handleIncoming_end_error cx.now hfirewall htype]
  obtain ⟨-, events, hpoll, -⟩ := poll_checked honline hopen hcheck
  rw [hpoll]
  exact (flushLoop_frame error (fun _ _ _ _ => rfl) _ _).trans hchecked

/-- What is on the queue is transmitted by a poll. -/
theorem poll_transmits {ref : PacketRef} (href : ref ∈ u.inner.sendQueue) :
    ∃ n, u.sent.length ≤ n ∧ (u.poll cx).sent[n]? = some ref := by
  let idle : UdxStreamInner := { u.inner with driveWaker := none }
  let Queued (s : UdxStreamInner) : Prop := ref ∈ s.sendQueue
  have hhandled : Queued (idle.handled cx) := by
    refine handled_invariant Queued href fun s packet (hs : Queued s) => ?_
    refine handleIncoming_invariant ?_ ?_ ?_ ?_ ?_ packet hs
    · exact fun _ _ hs => hs
    · intro s i hs
      change ref ∈ (s.ackPacket cx.now i).sendQueue
      rw [show (s.ackPacket cx.now i).sendQueue = s.sendQueue from congrArg Prod.fst (ackPacket_answerSide s i)]
      exact hs
    · exact fun _ hs => List.mem_append_left _ hs
    · exact fun _ _ hs => List.mem_append_left _ hs
    · exact fun _ _ hs => hs
  have hqueued : ref ∈ ((u.checked cx).1.flushWaitingPackets cx.now).sendQueue := by
    refine (flushLoop_sendQueue _ _ _).subset ?_
    rw [show (u.checked cx).1.sendQueue = _ from congrArg Prod.fst (checked_answerSide u cx)]
    exact hhandled
  obtain ⟨-, events, hpoll, hevents⟩ := poll_checked honline hopen hcheck
  obtain ⟨n, hn⟩ := List.mem_iff_getElem?.mp hqueued
  refine ⟨u.sent.length + n, Nat.le_add_right _ _, ?_⟩
  rw [hpoll, UdxStream.sent, hevents, List.getElem?_append_right (Nat.le_add_right _ _), Nat.add_sub_cancel_left]
  exact hn

end Polled

namespace Pair

/-! ### An orderly shutdown -/

/-- A stream that was terminated and has nothing left to send or to wait for. -/
structure Spent (u : UdxStream) : Prop extends Online u where
  terminated : u.inner.error.isSome = true
  idle : u.inner.sendQueue = []
  acked : u.inner.remoteAcked = u.inner.seq

section Spent

variable {p : Pair} (hp : p.Reachable) (hfew : ∀ z, FewCreated (p.peer z).inner) {x : Side}

include hp hfew

theorem spent_of_poll (honline : Online (p.peer x)) (hopen : (p.peer x).inner.closedAndDrained = false)
    (hacked : (p.peer x).inner.remoteAcked = (p.peer x).inner.seq)
    (hterminated : ((p.step (p.pollAll x)).peer x).inner.error.isSome = true) :
    Spent ((p.step (p.pollAll x)).peer x) := by
  have hacked' := hp.poll_acked hfew hopen honline.running hacked
  have hcheck : ((p.peer x).checked (p.pollCx x)).2 = .ok () :=
    congrArg Prod.snd (pollCheckTimeouts_unexpired (OnTime.unexpired (hp.peer x) (Or.inr hacked) rfl))
  rw [pollAll_peer honline.running] at hterminated hacked' ⊢
  obtain ⟨-, events, hpoll, -⟩ := poll_checked honline hopen hcheck
  exact ⟨honline.poll hopen hcheck, hterminated, by rw [hpoll], hacked'⟩

theorem Spent.completes (h : Spent (p.peer x)) : ((p.step (p.pollAll x)).peer x).driver = .completed := by
  have hdone : (p.peer x).inner.closedAndDrained = true := by
    rw [closedAndDrained_iff]
    refine ⟨h.terminated, h.idle, AList.entries_eq_nil fun k => ?_⟩
    exact AList.lookup_eq_none.mpr ((hp.booked hfew x).nothing_left h.acked k)
  rw [pollAll_peer h.running]
  exact (poll_drained _ hdone).1

end Spent

/-- Nothing is read but by a read. -/
theorem step_delivered (p : Pair) (z : Side) {e : PairEvent}
    (he : ∀ x waker capacity, e ≠ .call x (.read waker capacity)) :
    ((p.step e).peer z).deliveredBytes = (p.peer z).deliveredBytes := by
  have hgiven : p.given z e = [] := by
    cases e with
    | deliver x n => rfl
    | call x c =>
        rw [given]
        split_ifs
        · cases c <;> first | rfl | exact absurd rfl (he _ _ _)
        · rfl
  rw [step_given, hgiven, List.append_nil]

theorem pollAll_ne_read (p : Pair) (x z : Side) (waker : Waker) (capacity : Nat) :
    p.pollAll x ≠ .call z (.read waker capacity) := by
  intro h
  cases (PairEvent.call.inj h).2

theorem close_peer {p : Pair} {x : Side} (hhandles : (p.peer x).handles ≠ 0) :
    (p.step (.call x .close)).peer x = (p.peer x).close := by
  rw [step, peer_set, if_pos rfl, UdxStream.step, UdxStream.call, if_neg hhandles]

theorem close_few {p : Pair} (hfew : ∀ z, FewCreated (p.peer z).inner) {x : Side} (hhandles : (p.peer x).handles ≠ 0)
    (z : Side) : FewCreated ((p.step (.call x .close)).peer z).inner := by
  by_cases hz : z = x
  · subst hz
    rw [close_peer hhandles]
    exact hfew z
  · rw [step, peer_set, if_neg hz]
    exact hfew z

/-- A close of a stream with nothing outstanding transmits an END, and leaves nothing to do. -/
theorem Settled.announces {q : Pair} (hq : Settled q) (hreach : q.Reachable)
    (hfew : ∀ z, FewCreated (q.peer z).inner) {x : Side} (hhandles : (q.peer x).handles ≠ 0) :
    let p := q.step (.call x .close)
    let r := p.step (p.pollAll x)
    Spent (r.peer x) ∧ ∃ n ref, (q.peer x).sent.length ≤ n ∧ (r.peer x).sent[n]? = some ref ∧
      ref.deref.header.typ = udxHeaderEnd := by
  intro p r
  have hpeer : p.peer x = (q.peer x).close := close_peer hhandles
  have hfew' : ∀ z, FewCreated (p.peer z).inner := close_few hfew hhandles
  obtain ⟨packet, hqueue, hend⟩ := terminate_sendQueue (q.peer x).inner .closeGraceful
  have hlistening := hq.listening x
  have honline : Online (p.peer x) := by
    rw [hpeer]
    exact ⟨hlistening.running, hlistening.recv, hlistening.send⟩
  have hopen : (p.peer x).inner.closedAndDrained = false := by
    rw [hpeer, Bool.eq_false_iff, Ne, closedAndDrained_iff]
    rintro ⟨-, hempty, -⟩
    exact List.append_ne_nil_of_right_ne_nil _ (List.cons_ne_nil _ _) (hqueue.symm.trans hempty)
  have hacked : (p.peer x).inner.remoteAcked = (p.peer x).inner.seq := by
    rw [hpeer]
    exact hq.acked x
  have hterminated : (r.peer x).inner.error.isSome = true := by
    have hresumes : Resumes (fun _ => 0) p r := (Runs.Reaches.refl p).tail (pollAll_fresh _ p x)
    refine hresumes.terminated ?_
    rw [hpeer]
    rfl
  have hspent := spent_of_poll (hreach.step _) hfew' honline hopen hacked hterminated
  refine ⟨hspent, ?_⟩
  have hcheck : ((p.peer x).checked (p.pollCx x)).2 = .ok () :=
    congrArg Prod.snd (pollCheckTimeouts_unexpired (OnTime.unexpired ((hreach.step _).peer x) (Or.inr hacked) rfl))
  have hqueued : PacketRef.owned packet ∈ (p.peer x).inner.sendQueue := by
    rw [hpeer]
    exact hqueue ▸ List.mem_append_right _ (List.mem_singleton_self _)
  obtain ⟨n, hle, hn⟩ := poll_transmits honline hopen hcheck hqueued
  refine ⟨n, .owned packet, ?_, ?_, hend.typ⟩
  · rw [hpeer] at hle
    exact hle
  · rw [show r.peer x = _ from pollAll_peer honline.running]
    exact hn

/-- An END that arrives at a stream with nothing outstanding ends it, and leaves nothing to do. -/
theorem hears_end {p : Pair} (hp : p.Reachable) (hfew : ∀ z, FewCreated (p.peer z).inner) {x : Side}
    (hlingering : Lingering (p.peer x.other)) {n : Nat} {ref : PacketRef} (href : (p.peer x).sent[n]? = some ref)
    (htype : ref.deref.header.typ = udxHeaderEnd) :
    let q := p.step (.deliver x n)
    let r := q.step (q.pollAll x.other)
    r.peer x = p.peer x ∧ Spent (r.peer x.other) ∧ (r.peer x.other).inner.error = some .closedByRemote := by
  intro q r
  obtain ⟨hnear, hfar⟩ := hp.deliver_sent href
  have honline : Online (q.peer x.other) := by
    rw [hfar]
    exact ⟨hlingering.running, hlingering.recv, hlingering.send⟩
  have hopen : (q.peer x.other).inner.closedAndDrained = false := by
    rw [hfar]
    exact hlingering.going
  have hacked : (q.peer x.other).inner.remoteAcked = (q.peer x.other).inner.seq := by
    rw [hfar]
    exact hlingering.acked
  have hreach : q.Reachable := hp.step _
  have hfew' : ∀ z, FewCreated (q.peer z).inner := by
    have hresumes : Resumes (fun _ => 0) p q :=
      (Runs.Reaches.refl p).tail (show Fresh _ (.deliver x n) from Nat.zero_le n)
    exact fun z => hresumes.few (hfew z)
  have hcheck : ((q.peer x.other).checked (q.pollCx x.other)).2 = .ok () :=
    congrArg Prod.snd (pollCheckTimeouts_unexpired (OnTime.unexpired (hreach.peer _) (Or.inr hacked) rfl))
  have herror : (r.peer x.other).inner.error = some .closedByRemote := by
    have hqueue : (q.peer x.other).inner.recvRx.queue = (p.peer x.other).inner.recvRx.queue ++
        [⟨ref.deref.header, ref.deref.body, 0, (p.peer x.other).inner.remoteAddr⟩] := by
      rw [hfar]
      rfl
    rw [show r.peer x.other = _ from pollAll_peer honline.running]
    exact poll_hears_end honline hopen hcheck (hreach.peer _) hqueue (Nat.le_succ _) htype
  refine ⟨?_, spent_of_poll hreach hfew' honline hopen hacked (by rw [herror]; rfl), herror⟩
  have hsame := q.pollAll_other x.other
  rw [Side.other_other] at hsame
  exact hsame.trans hnear

/-- From a settled state, a close of a side is followed by the completion of its driver, and the other side hears of it
and has nothing left to do. -/
theorem Settled.shuts_down {q : Pair} (hq : Settled q) (hreach : q.Reachable) (hfew : ∀ z, FewCreated (q.peer z).inner)
    {x : Side} (hhandles : (q.peer x).handles ≠ 0) (mark : Side → Nat) (hmark : mark x ≤ (q.peer x).sent.length) :
    ∃ r, Resumes mark (q.step (.call x .close)) r ∧
      (∀ z, (r.peer z).deliveredBytes = (q.peer z).deliveredBytes) ∧ (r.peer x).driver = .completed ∧
      (r.peer x.other).inner.error = some .closedByRemote ∧
      ((r.step (r.pollAll x.other)).peer x.other).driver = .completed := by
  let p₁ := q.step (.call x .close)
  let p₂ := p₁.step (p₁.pollAll x)
  obtain ⟨hspent, n, ref, hle, href, htype⟩ := hq.announces hreach hfew hhandles
  have hafter : Resumes mark p₁ p₂ := (Runs.Reaches.refl p₁).tail (pollAll_fresh _ p₁ x)
  have hfew₂ : ∀ z, FewCreated (p₂.peer z).inner := fun z => hafter.few (close_few hfew hhandles z)
  have hfar : p₂.peer x.other = q.peer x.other := (p₁.pollAll_other x).trans (by cases x <;> rfl)
  have hreach₂ : p₂.Reachable := hafter.reachable (hreach.step _)
  let p₃ := p₂.step (.deliver x n)
  let p₄ := p₃.step (p₃.pollAll x.other)
  obtain ⟨hnear, hspent', herror⟩ := hears_end hreach₂ hfew₂
    (by rw [hfar]; exact ⟨hq.listening x.other, hq.acked x.other⟩) href htype
  have hafter₄ : Resumes mark p₁ p₄ :=
    (hafter.tail (e := .deliver x n) (hmark.trans hle)).tail (pollAll_fresh _ p₃ x.other)
  have hfew₄ : ∀ z, FewCreated (p₄.peer z).inner := fun z => hafter₄.few (close_few hfew hhandles z)
  have hreach₄ : p₄.Reachable := hafter₄.reachable (hreach.step _)
  let r := p₄.step (p₄.pollAll x)
  have hafter₅ : Resumes mark p₁ r := hafter₄.tail (pollAll_fresh _ p₄ x)
  have hfar₅ : r.peer x.other = p₄.peer x.other := p₄.pollAll_other x
  refine ⟨r, hafter₅, fun z => ?_, ?_, ?_, ?_⟩
  · calc (r.peer z).deliveredBytes = (p₄.peer z).deliveredBytes := p₄.step_delivered _ (p₄.pollAll_ne_read x)
      _ = (p₃.peer z).deliveredBytes := p₃.step_delivered _ (p₃.pollAll_ne_read x.other)
      _ = (p₂.peer z).deliveredBytes := p₂.step_delivered _ (e := .deliver x n) nofun
      _ = (p₁.peer z).deliveredBytes := p₁.step_delivered _ (p₁.pollAll_ne_read x)
      _ = (q.peer z).deliveredBytes := q.step_delivered _ (e := .call x .close) nofun
  · exact Spent.completes hreach₄ hfew₄ (by rw [show p₄.peer x = _ from hnear]; exact hspent)
  · rw [hfar₅]
    exact herror
  · refine Spent.completes (hafter₅.reachable (hreach.step _)) (fun z => hafter₅.few (close_few hfew hhandles z)) ?_
    rw [hfar₅]
    exact hspent'

/-- **An orderly shutdown.** From every state of every run of two connected streams in which both are open and have a
handle, no timeout is due, no outstanding packet has used up its transmissions and neither has created `2 ^ 32` data
packets, and even if everything transmitted so far is lost: time, polls, reads and the packets transmitted from then on
lead to one state in which a close of either side is followed by the completion of its driver, after everything has been
read on both sides; the other side is told that its remote has closed, and its driver completes with the next poll. -/
theorem shuts_down_in_order {p : Pair} (hp : p.Reachable) (hfew : ∀ z, FewCreated (p.peer z).inner)
    (hlistening : ∀ z, Listening (p.peer z)) (hattempts : ∀ z, AttemptsLeft (p.peer z).inner)
    (hhandles : ∀ z, (p.peer z).handles ≠ 0) :
    ∃ q, Resumes (fun z => (p.peer z).sent.length) p q ∧ ∀ x,
      ∃ r, Resumes (fun z => (p.peer z).sent.length) (q.step (.call x .close)) r ∧
        (∀ z, (r.peer z.other).deliveredBytes = (p.peer z).accepted) ∧ (r.peer x).driver = .completed ∧
        (r.peer x.other).inner.error = some .closedByRemote ∧
        ((r.step (r.pollAll x.other)).peer x.other).driver = .completed := by
  obtain ⟨q, hresumes, hq, hread⟩ := hp.settles_read hfew hlistening hattempts hhandles
  refine ⟨q, hresumes, fun x => ?_⟩
  have hhandles' : (q.peer x).handles ≠ 0 := by
    rw [hresumes.handles_eq]
    exact hhandles x
  obtain ⟨r, hafter, hsame, hcompleted, herror, hother⟩ := hq.shuts_down (hresumes.reachable hp)
    (fun z => hresumes.few (hfew z)) hhandles' (fun z => (p.peer z).sent.length) (hresumes.sent_grows x).length_le
  exact ⟨r, hafter, fun z => (hsame z.other).trans (hread z), hcompleted, herror, hother⟩

theorem shuts_down_in_order_silent :
    let p := Runs.run step (connect 0 0 ⟨.v4 0, 1⟩ ⟨.v4 0, 2⟩ 1 2) silentRun
    p.a.accepted = [1, 2, 3] ∧ p.b.accepted = [4] ∧ p.a.deliveredBytes = [] ∧ p.b.deliveredBytes = [] ∧
    ∃ q, Resumes (fun z => (p.peer z).sent.length) p q ∧ ∀ x,
      ∃ r, Resumes (fun z => (p.peer z).sent.length) (q.step (.call x .close)) r ∧
        (∀ z, (r.peer z.other).deliveredBytes = (p.peer z).accepted) ∧ (r.peer x).driver = .completed ∧
        (r.peer x.other).inner.error = some .closedByRemote ∧
        ((r.step (r.pollAll x.other)).peer x.other).driver = .completed := by
  refine ⟨by decide, by decide, by decide, by decide,
    shuts_down_in_order ⟨0, 0, _, _, 1, 2, silentRun, rfl⟩ ?_ ?_ ?_ ?_⟩
  · intro z
    cases z <;> decide
  · intro z
    cases z <;> exact ⟨⟨by decide, by decide, by decide⟩, ⟨by decide, by decide⟩, Or.inl (by decide)⟩
  · intro z
    cases z <;> exact attemptsLeft_of_entries (by decide)
  · intro z
    cases z <;> decide

end Pair

end AsyncUdx
