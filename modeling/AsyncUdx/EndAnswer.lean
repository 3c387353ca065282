import AsyncUdx.PacketLoad

/-! The END of a terminated stream. A stream that was terminated has an END on its queue or has handed it to its
socket, and a poll that finds the END of the peer in the channel answers it with an END of its own, whether or not the
stream was terminated before. -/

namespace AsyncUdx

open Relation UdxStreamInner

variable {now : Nat}

/-! ### The END of a terminated stream -/

/-- A packet to the peer that carries END and nothing else. -/
structure IsEnd (remoteId : UInt32) (packet : Packet) : Prop where
  typ : packet.header.typ = udxHeaderEnd
  streamId : packet.header.streamId = remoteId

/-- A terminated stream has handed an END to its socket, or has one on its queue. -/
def Announced (s : UdxStreamInner) : Prop :=
  s.error.isSome = true → s.sendTx.closed = false →
    ∃ ref, (ref ∈ transmitted s.sendTx.events ∨ ref ∈ s.sendQueue) ∧ IsEnd s.remoteId ref.deref

/-- The fields of a stream that concern its END. -/
def UdxStreamInner.endSide (s : UdxStreamInner) : Option UdxError × SendChannel × List PacketRef × UInt32 :=
  (s.error, s.sendTx, s.sendQueue, s.remoteId)

theorem terminate_sendQueue (s : UdxStreamInner) (error : UdxError) : ∃ packet,
    (s.terminate error).sendQueue = s.sendQueue ++ [.owned packet] ∧ IsEnd s.remoteId packet := by
  refine ⟨_, rfl, ?_, rfl⟩
  change (if s.state.closeLocal.isLocalClosed then (0 ||| udxHeaderEnd) &&& udxHeaderEnd else 0 ||| udxHeaderEnd) = _
  cases s.state <;> decide

theorem terminate_announced (s : UdxStreamInner) (error : UdxError) : Announced (s.terminate error) := by
  intro _ _
  obtain ⟨packet, hqueue, hend⟩ := terminate_sendQueue s error
  refine ⟨.owned packet, Or.inr ?_, hend⟩
  rw [hqueue]
  exact List.mem_append_right _ (List.mem_singleton.mpr rfl)

theorem Announced.of_eq {s t : UdxStreamInner} (hs : Announced s) (h : t.endSide = s.endSide) : Announced t := by
  simp only [endSide, Prod.mk.injEq] at h
  obtain ⟨herror, hsend, hqueue, hid⟩ := h
  rwa [Announced, herror, hsend, hqueue, hid]

theorem Announced.queue {s t : UdxStreamInner} (hs : Announced s) (herror : t.error = s.error)
    (hsend : t.sendTx = s.sendTx) (hid : t.remoteId = s.remoteId) (hqueue : s.sendQueue ⊆ t.sendQueue) :
    Announced t := by
  intro h hopen
  rw [herror] at h
  rw [hsend] at hopen ⊢
  rw [hid]
  obtain ⟨ref, href, hend⟩ := hs h hopen
  exact ⟨ref, href.imp id (@hqueue ref), hend⟩

theorem ackPacket_endSide (s : UdxStreamInner) (i : UInt32) : (s.ackPacket now i).endSide = s.endSide := by
  unfold ackPacket
  split <;> rfl

theorem pollIncoming_announced {s : UdxStreamInner} (cx : Context) (hs : Announced s) :
    Announced (s.pollIncoming cx).1 := by
  have hhandled : Announced (s.handled cx) := by
    refine handled_invariant Announced hs fun s packet hs => ?_
    refine handleIncoming_invariant (fun _ _ hs => hs) (fun s i hs => hs.of_eq (ackPacket_endSide s i))
      (fun _ _ => terminate_announced _ _) (fun s packet hs => ?_) (fun _ _ hs => hs) packet hs
    exact hs.queue rfl rfl rfl (List.subset_append_left _ _)
  rw [pollIncoming_state]
  exact hhandled.of_eq (handleIncomingMaxRemoteAck_frame endSide ackPacket_endSide (fun _ _ => rfl) (fun _ _ => rfl)
    (fun _ _ => rfl) _ _)

/-- What waits joins the queue behind what is there. -/
theorem flushLoop_sendQueue (now : Nat) (keys : List UInt32) (s : UdxStreamInner) :
    s.sendQueue <+: (flushLoop now keys s).sendQueue := by
  induction keys generalizing s with
  | nil => exact List.prefix_rfl
  | cons i rest ih =>
      rw [flushLoop]
      split
      · exact ih s
      · rename_i packet hlookup
        split_ifs
        · exact ih s
        · exact List.prefix_rfl
        · have hqueued : s.sendQueue <+: (s.requeue now i packet).sendQueue := List.prefix_append _ _
          exact hqueued.trans (ih _)

theorem pollTransmit_announced {s : UdxStreamInner} (cx : Context) (hs : Announced s) :
    Announced (s.pollTransmit cx).1 := by
  intro herror hopen
  rw [pollTransmit_frame UdxStreamInner.error (fun _ _ _ => rfl)] at herror
  obtain ⟨rest, sets, heq, -⟩ := transmitLoop_spec (min cx.maxGsoSegments maxSegments) s.sendQueue 0 [] s
  have hopen' : s.sendTx.closed = false := by
    rw [pollTransmit, heq] at hopen
    exact hopen
  obtain ⟨ref, href, hend⟩ := hs herror hopen'
  refine ⟨ref, Or.inl ?_, ?_⟩
  · rw [pollTransmit, transmitLoop_transmitted _ _ _ _ _ hopen']
    exact List.mem_append.mpr href
  · rw [pollTransmit_frame UdxStreamInner.remoteId (fun _ _ _ => rfl)]
    exact hend

theorem pollDrive_announced {s : UdxStreamInner} (cx : Context) (hs : Announced s) :
    Announced (s.pollDrive cx).1 := by
  refine pollDrive_stages Announced s cx (pollIncoming_announced cx hs) (fun s hs => ?_) (fun s hs => ?_)
    fun s hs => pollTransmit_announced cx hs
  · unfold pollCheckTimeouts
    split_ifs
    · exact hs
    · exact hs
    · exact hs.of_eq (timeoutLoop_frame endSide (fun _ _ _ _ => rfl) _ _)
  · exact hs.queue (flushLoop_frame UdxStreamInner.error (fun _ _ _ _ => rfl) _ s)
      (flushLoop_frame sendTx (fun _ _ _ _ => rfl) _ s)
      (flushLoop_frame UdxStreamInner.remoteId (fun _ _ _ _ => rfl) _ s)
      (flushLoop_sendQueue _ _ s).subset

theorem announced_callInvariant (now : Nat) : CallInvariant now Announced where
  push := fun s body herror _ _ _ _ h => by
    change s.error.isSome = true at h
    rw [herror] at h
    cases h
  blocked := fun _ _ _ _ _ _ hs => hs
  readPart := fun _ _ _ hs => hs
  readWhole := fun _ _ hs => hs
  readWaker := fun _ _ hs => hs
  terminate := fun _ _ _ => terminate_announced _ _
  slot := fun _ _ _ hs => hs
  complete := by
    intro s hs herror hopen
    obtain ⟨ref, href, hend⟩ := hs herror hopen
    refine ⟨ref, ?_, hend⟩
    rw [complete_transmitted]
    exact href
  mark := fun _ _ _ _ _ hs => hs
  gone := by
    intro s recvClosed sendClosed hs herror hopen
    exact hs herror (Bool.or_eq_false_iff.mp hopen).1

theorem step_announced (u : UdxStream) (e : Event) (hu : Announced u.inner) : Announced (u.step e).inner :=
  u.step_invariant e (announced_callInvariant _) (fun _ _ _ hs => hs) (fun _ _ hs => hs)
    (fun cx => pollDrive_announced (s := { u.inner with driveWaker := none }) cx hu) hu

theorem announced_reachable {u : UdxStream} (hu : u.Reachable) : Announced u.inner :=
  hu.invariant (fun u => Announced u.inner) (fun _ _ _ _ h => by cases h) step_announced

/-! ### A poll that answers -/

/-- A poll of a stream that is not done, with the socket there and no timeout: the incoming packets are handled, what
waits is queued again, and all that is queued is handed to the socket. -/
theorem poll_exact {u : UdxStream} {cx : Context} (hrunning : u.driver = .running)
    (hopen : u.inner.closedAndDrained = false) (hrecv : u.inner.recvRx.closed = false)
    (hsend : u.inner.sendTx.closed = false) (hquiet : u.Unexpired cx) :
    let s := UdxStreamInner.flushWaitingPackets ({ u.inner with driveWaker := none }.pollIncoming cx).1 cx.now
    ∃ waker woken events, u.poll cx = { u with inner := { s with
        sendQueue := [], sendTx := { s.sendTx with events := events }, driveWaker := waker,
        ghost := { s.ghost with woken := woken } } } ∧
      transmitted events = u.sent ++ s.sendQueue := by
  intro s
  let idle : UdxStreamInner := { u.inner with driveWaker := none }
  have hunexpired : idle.Unexpired cx := hquiet hrunning hopen
  have hin : (idle.pollIncoming cx).2 = .ok () := pollIncoming_open (s := idle) hrecv cx
  have hdrive : (idle.pollDrive cx).1 = (s.pollTransmit cx).1 := pollDrive_unexpired hunexpired hin
  have htx : s.sendTx = u.inner.sendTx :=
    (flushLoop_frame sendTx (fun _ _ _ _ => rfl) _ _).trans (pollIncoming_sendTx idle cx)
  have hopen' : s.sendTx.closed = false := by rw [htx]; exact hsend
  have hsent := transmitLoop_transmitted (min cx.maxGsoSegments maxSegments) s.sendQueue 0 [] s hopen'
  have hqueue : (s.pollTransmit cx).1.sendQueue = [] :=
    transmitLoop_sendQueue _ _ _ _ _ rfl (transmitLoop_ok _ _ _ _ _ hopen')
  obtain ⟨rest, sets, htransmit, -⟩ := transmitLoop_spec (min cx.maxGsoSegments maxSegments) s.sendQueue 0 [] s
  rw [pollTransmit, htransmit] at hqueue hdrive
  rw [htransmit] at hsent
  obtain rfl : rest = [] := hqueue
  rcases pollDriver_cases u.inner cx hopen with ⟨flag, waker, woken, -, hpoll⟩ | ⟨err, woken, hfailed, -⟩ |
    ⟨message, hfailed, -⟩
  · refine ⟨waker, woken, s.sendTx.events ++ sets.map .transmit, ?_, ?_⟩
    · rw [UdxStream.poll, hpoll]
      dsimp only
      rw [hdrive]
    · rw [UdxStream.sent, ← htx]
      exact hsent
  · exact absurd hfailed (pollDrive_io hunexpired hrecv err)
  · exact absurd hfailed (pollDrive_panic (s := idle) hsend)

/-- Such a poll leaves nothing on the queue, and the driver goes on running. -/
theorem poll_settles {u : UdxStream} {cx : Context} (hrunning : u.driver = .running)
    (hopen : u.inner.closedAndDrained = false) (hrecv : u.inner.recvRx.closed = false)
    (hsend : u.inner.sendTx.closed = false) (hquiet : u.Unexpired cx) :
    (u.poll cx).driver = .running ∧ (u.poll cx).inner.sendQueue = [] ∧
      let flushed := UdxStreamInner.flushWaitingPackets ({ u.inner with driveWaker := none }.pollIncoming cx).1 cx.now
      (u.poll cx).sent = u.sent ++ flushed.sendQueue := by
  obtain ⟨waker, woken, events, hpoll, hevents⟩ := poll_exact hrunning hopen hrecv hsend hquiet
  rw [hpoll]
  exact ⟨hrunning, rfl, hevents⟩

/-- The END of the peer is answered by an END. -/
theorem handleIncoming_end (now : Nat) {s : UdxStreamInner} (hfirewall : s.onFirewall = none) {packet : IncomingPacket}
    (htype : packet.header.typ = udxHeaderEnd) : ∃ answer,
      (s.handleIncoming now packet).sendQueue = s.sendQueue ++ [.owned answer] ∧ IsEnd s.remoteId answer := by
  have hsack : packet.hasType udxHeaderSack = false := by rw [IncomingPacket.hasType, htype]; decide
  have hend : packet.hasType udxHeaderEnd = true := by rw [IncomingPacket.hasType, htype]; decide
  have hdata : packet.hasType udxHeaderData = false := by rw [IncomingPacket.hasType, htype]; decide
  rw [handleIncoming, firewallPass_of_none hfirewall, hsack, hend, hdata]
  exact terminate_sendQueue _ _

/-- An END alone in the channel is answered first of all. -/
theorem poll_answers_end {u : UdxStream} {cx : Context} (hrunning : u.driver = .running)
    (hopen : u.inner.closedAndDrained = false) (hrecv : u.inner.recvRx.closed = false)
    (hsend : u.inner.sendTx.closed = false) (hquiet : u.Unexpired cx) (hfirewall : u.inner.onFirewall = none)
    (hidle : u.inner.sendQueue = []) (hbudget : cx.budget = 1) {packet : IncomingPacket}
    (hqueue : u.inner.recvRx.queue = [packet]) (htype : packet.header.typ = udxHeaderEnd) :
    ∃ ref, (u.poll cx).sent[u.sent.length]? = some ref ∧ IsEnd u.inner.remoteId ref.deref := by
  let popped : UdxStreamInner := { u.inner with driveWaker := none, recvRx := { u.inner.recvRx with queue := [] } }
  obtain ⟨answer, hanswer, hend⟩ := handleIncoming_end cx.now (s := popped) hfirewall htype
  have hincoming : ({ u.inner with driveWaker := none }.pollIncoming cx).1 =
      (popped.handleIncoming cx.now packet).handleIncomingMaxRemoteAck cx.now packet.ack :=
    pollIncoming_singleton (s := { u.inner with driveWaker := none }) hqueue hrecv (by omega)
  have hfirst : ({ u.inner with driveWaker := none }.pollIncoming cx).1.sendQueue = [.owned answer] := by
    rw [hincoming, handleIncomingMaxRemoteAck_frame sendQueue (fun s i => congrArg (·.2.2.1) (ackPacket_endSide s i))
      (fun _ _ => rfl) (fun _ _ => rfl) (fun _ _ => rfl), hanswer]
    exact congrArg (· ++ [PacketRef.owned answer]) hidle
  obtain ⟨more, hmore⟩ := flushLoop_sendQueue cx.now (Counter.range _ _)
    ({ u.inner with driveWaker := none }.pollIncoming cx).1
  refine ⟨.owned answer, ?_, hend⟩
  rw [(poll_settles hrunning hopen hrecv hsend hquiet).2.2, flushWaitingPackets, ← hmore, hfirst]
  rw [List.getElem?_append_right (Nat.le_refl _), Nat.sub_self]
  rfl

end AsyncUdx
