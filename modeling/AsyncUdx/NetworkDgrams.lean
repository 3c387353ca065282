import AsyncUdx.Network
import AsyncUdx.Demultiplexing

/-! Datagrams of the users between two hosts. They share the socket, the batches and the buffers with the packets of the
streams, and are told apart from them only by what they look like; what a user receives from the other host is what a
user there has sent to this one, up to the size of a buffer. -/

namespace AsyncUdx

namespace UdxSocket

/-- A datagram for the user is one that has arrived, when no stream was registered for it. -/
theorem mem_accepted {batch : List Arrival} {h : UdxSocket} {dgram : Dgram} (hd : dgram ∈ accepted (routes batch h)) :
    ∃ before arrival later, batch = before ++ arrival :: later ∧ dgram = ⟨arrival.data, arrival.source⟩ ∧
      (before.foldl receive h).addressee arrival.data = none := by
  induction batch generalizing h with
  | nil => cases hd
  | cons arrival rest ih =>
      rw [routes, accepted_cons] at hd
      rcases List.mem_append.mp hd with hfirst | hrest
      · refine ⟨[], arrival, rest, rfl, ?_⟩
        unfold route at hfirst
        split at hfirst
        · split at hfirst <;> cases hfirst
        · split at hfirst
          · exact ⟨List.mem_singleton.mp hfirst, ‹_›⟩
          · cases hfirst
      · obtain ⟨before, other, later, hsplit, hdgram, hnone⟩ := ih hrest
        exact ⟨arrival :: before, other, later, congrArg (arrival :: ·) hsplit, hdgram, hnone⟩

/-- What waits for the user after a step has waited before, or has arrived in it, when no stream was registered for
it. -/
theorem step_waiting (h : UdxSocket) (e : SocketEvent) {dgram : Dgram} (hd : dgram ∈ (h.step e).inner.recvDgrams) :
    dgram ∈ h.inner.recvDgrams ∨
      ∃ before arrival later, h.arrived e = before ++ arrival :: later ∧ dgram = ⟨arrival.data, arrival.source⟩ ∧
        (before.foldl receive h).addressee arrival.data = none := by
  have hmem : dgram ∈ h.inner.recvDgrams ++ accepted (h.routed e) := by
    rw [step_dgrams]
    exact List.mem_append_right _ hd
  exact (List.mem_append.mp hmem).imp_right mem_accepted

end UdxSocket

namespace Host

variable {p : Platform}

/-- A poll receives a datagram and finds the socket in a state: that after the datagrams received before it. -/
def Finds (h : Host p) (e : HostEvent p) (arrival : Arrival) (t : UdxSocket) : Prop :=
  ∃ cx received before later, e = .poll cx ∧ h.socket.isRunning = true ∧ p.pollRecv cx.readable = some received ∧
    UdxSocket.arrivals (maxLoop - 1) received = before ++ arrival :: later ∧
    t = before.foldl UdxSocket.receive h.socket

/-- Datagrams arrive at the socket of a host in polls that receive them. -/
theorem Lowers.finds {h : Host p} {e : HostEvent p} {e' : SocketEvent} (hlowers : h.Lowers e e')
    {before later : List Arrival} {arrival : Arrival} (harrived : h.socket.arrived e' = before ++ arrival :: later) :
    h.Finds e arrival (before.foldl UdxSocket.receive h.socket) := by
  cases e' with
  | poll cx' =>
      obtain ⟨cx, received, he, hreceived, heq⟩ := hlowers.poll cx' rfl
      rw [UdxSocket.arrived] at harrived
      split at harrived
      · rename_i hrunning
        rw [heq] at harrived
        exact ⟨cx, received, before, later, he, hrunning, hreceived, harrived, rfl⟩
      · exact absurd harrived.symm (List.append_ne_nil_of_right_ne_nil _ (List.cons_ne_nil _ _))
  | _ => exact absurd harrived.symm (List.append_ne_nil_of_right_ne_nil _ (List.cons_ne_nil _ _))

theorem step_waiting (h : Host p) (e : HostEvent p) {dgram : Dgram}
    (hd : dgram ∈ (h.step e).socket.inner.recvDgrams) :
    dgram ∈ h.socket.inner.recvDgrams ∨ ∃ raw ∈ e.datagrams, dgram = ⟨raw.truncated.data, raw.source⟩ ∧
      ∃ t, h.Finds e raw.truncated t ∧ t.addressee raw.truncated.data = none := by
  rcases h.step_lowers e with hsame | ⟨e', hlowers⟩
  · rw [hsame] at hd
    exact Or.inl hd
  · rw [hlowers.socket] at hd
    refine (h.socket.step_waiting e' hd).imp_right ?_
    rintro ⟨before, arrival, later, harrived, rfl, hnone⟩
    have hmem : arrival ∈ h.socket.arrived e' := by
      rw [harrived]
      exact List.mem_append_right _ List.mem_cons_self
    obtain ⟨raw, hraw, rfl⟩ := hlowers.arrived arrival hmem
    exact ⟨raw, hraw, rfl, _, hlowers.finds harrived, hnone⟩

end Host

namespace Network

variable {p : Side → Platform} {sent : Side → Dgram → Prop} {strange : Side → Arrival → Prop} {start net : Network p}

/-- A datagram arrives at a side in a run, and finds its socket in a state. -/
def Finds (start : Network p) (events : List (Σ x, HostEvent (p x))) (x : Side) (arrival : Arrival)
    (t : UdxSocket) : Prop :=
  ∃ first e rest, events = first ++ ⟨x, e⟩ :: rest ∧ ((Runs.run step start first).host x).Finds e arrival t

theorem Finds.append {events : List (Σ x, HostEvent (p x))} {x : Side} {arrival : Arrival} {t : UdxSocket}
    (h : Finds start events x arrival t) (more : List (Σ x, HostEvent (p x))) :
    Finds start (events ++ more) x arrival t := by
  obtain ⟨first, e, rest, rfl, hfinds⟩ := h
  exact ⟨first, e, rest ++ more, by rw [List.append_assoc, List.cons_append], hfinds⟩

/-- Where a datagram comes from that is handed to a user of a side in a run. -/
inductive Handed (sent : Side → Dgram → Prop) (strange : Side → Arrival → Prop) (start : Network p)
    (events : List (Σ x, HostEvent (p x))) (x : Side) (dgram : Dgram) : Prop
  /-- A user of the other side has sent it here. -/
  | user (original : Dgram) (hsent : sent x.other original) (hdest : original.dest = start.addr x)
      (h : dgram = ⟨original.buf.take udxMtu, start.addr x.other⟩)
  /-- Nothing is left of a transmit whose packets were all acknowledged while it waited. -/
  | empty (h : dgram = ⟨[], start.addr x.other⟩)
  /-- It is a packet of the other side, and when it arrived, no stream was registered here under the id in it. -/
  | packet (hformed : WellFormed dgram.buf) (hsource : dgram.dest = start.addr x.other) (t : UdxSocket)
      (hfinds : Finds start events x ⟨dgram.dest, dgram.buf⟩ t)
      (hnone : t.inner.streams.lookup (headerAt dgram.buf).streamId = none)
  | stranger (raw : Arrival) (hstrange : strange x raw) (h : dgram = ⟨raw.data.take udxMtu, raw.source⟩)

theorem Handed.append {events : List (Σ x, HostEvent (p x))} {x : Side} {dgram : Dgram}
    (h : Handed sent strange start events x dgram) (more : List (Σ x, HostEvent (p x))) :
    Handed sent strange start (events ++ more) x dgram := by
  cases h with
  | user original hsent hdest h => exact .user original hsent hdest h
  | empty h => exact .empty h
  | packet hformed hsource t hfinds hnone => exact .packet hformed hsource t (hfinds.append more) hnone
  | stranger raw hstrange h => exact .stranger raw hstrange h

/-- What arrives from the other host when no stream is registered for it. -/
theorem OnWire.handed {events : List (Σ x, HostEvent (p x))} (hgrounded : net.Grounded sent)
    (haddr : net.addr = start.addr) {x : Side} {raw : Arrival} (hraw : net.OnWire x raw) {t : UdxSocket}
    (hfinds : Finds start events x raw.truncated t) (hnone : t.addressee raw.truncated.data = none) :
    Handed sent strange start events x ⟨raw.truncated.data, raw.source⟩ := by
  have hsource : raw.source = start.addr x.other := by
    obtain ⟨-, -, -, hsource, -⟩ := hraw
    rw [hsource, haddr]
  rcases hraw.origin hgrounded with ⟨dgram, hsent, hdest, hdata⟩ | hempty | ⟨v, -, -, ref, -, haddressed, hdata⟩
  · refine .user dgram hsent (hdest.trans (congrFun haddr x)) ?_
    rw [Arrival.truncated, hdata, hsource]
  · apply Handed.empty
    rw [Arrival.truncated, hempty, hsource]
    rfl
  · have hformed : WellFormed raw.truncated.data := by
      change WellFormed (raw.data.take udxMtu)
      rw [List.take_of_length_le (hdata ▸ haddressed.len_le), hdata]
      exact (fromBytes_eq_ok_iff.mp haddressed.encoded).1
    rw [UdxSocket.addressee, if_pos hformed] at hnone
    exact .packet hformed hsource t hfinds hnone

/-- What waits for the users of both sides after a run. -/
def AllHanded (sent : Side → Dgram → Prop) (strange : Side → Arrival → Prop) (start : Network p)
    (events : List (Σ x, HostEvent (p x))) : Prop :=
  ∀ x, ∀ dgram ∈ ((Runs.run step start events).host x).socket.inner.recvDgrams,
    Handed sent strange start events x dgram

theorem allHanded_step {events : List (Σ x, HostEvent (p x))} (hgrounded : (Runs.run step start events).Grounded sent)
    (haddr : (Runs.run step start events).addr = start.addr) (h : AllHanded sent strange start events)
    {e : Σ x, HostEvent (p x)} (he : Relays sent strange (Runs.run step start events) e) :
    AllHanded sent strange start (events ++ [e]) := by
  obtain ⟨x, e⟩ := e
  intro y dgram hd
  rw [Runs.run_concat] at hd
  by_cases heq : y = x
  · subst heq
    rw [step_near] at hd
    rcases Host.step_waiting _ e hd with hold | ⟨raw, hraw, rfl, t, hfinds, hnone⟩
    · exact (h y dgram hold).append _
    · rcases he.1 raw hraw with hwire | hstrange
      · exact hwire.handed hgrounded haddr ⟨events, e, [], rfl, hfinds⟩ hnone
      · exact .stranger raw hstrange rfl
  · rw [step_far _ heq] at hd
    exact (h y dgram hd).append _

/-- **Datagrams arrive as they were sent.** In every run of two hosts, what a `RecvFuture` resolves to is a datagram
that a user of the other side has sent here, up to the size of a buffer; or it is empty, or a packet for which no stream
was registered here when it arrived, or a stranger has sent it. -/
theorem recv_hands_out_sent {addr : Side → SocketAddr} {start maxGsoSegments : Side → Nat}
    {earlier : Side → Option Int} {events : List (Σ x, HostEvent (p x))}
    (hrelays : Runs.Along step (Relays sent strange) (.bind addr start maxGsoSegments earlier) events) (x : Side)
    (waker : Waker) (dgram : Dgram)
    (hrecv : (((Runs.run step (.bind addr start maxGsoSegments earlier) events).host x).socket.recv waker).2 =
      .ready dgram) :
    Handed sent strange (.bind addr start maxGsoSegments earlier) events x dgram := by
  let P (events : List (Σ x, HostEvent (p x))) : Prop :=
    (Runs.run step (.bind addr start maxGsoSegments earlier) events).Grounded sent ∧
      (Runs.run step (.bind addr start maxGsoSegments earlier) events).addr = addr ∧
      AllHanded sent strange (.bind addr start maxGsoSegments earlier) events
  have hall : P events := by
    refine Runs.along_history P ?_ ?_ hrelays
    · rintro events e ⟨hgrounded, haddr, hall⟩ he
      refine ⟨?_, ?_, allHanded_step hgrounded haddr hall he⟩
      · rw [Runs.run_concat]
        exact grounded_step hgrounded he.2
      · rw [Runs.run_concat]
        exact haddr
    · exact ⟨fun y => Host.bind_grounded _ _ _ _, rfl, fun y dgram hd => absurd hd List.not_mem_nil⟩
  apply hall.2.2 x dgram
  generalize Runs.run step (.bind addr start maxGsoSegments earlier) events = net at hrecv ⊢
  cases hwaiting : (net.host x).socket.inner.recvDgrams with
  | nil =>
      rw [UdxSocket.recv_of_nil hwaiting] at hrecv
      cases hrecv
  | cons first rest =>
      rw [UdxSocket.recv_of_cons hwaiting] at hrecv
      cases hrecv
      exact List.mem_cons_self

/-- The one datagram that is sent in the exchange. -/
def exchangeSent (x : Side) (dgram : Dgram) : Prop := x = .a ∧ dgram = ⟨[7], ⟨.v4 0, 2⟩⟩

instance (x : Side) (dgram : Dgram) : Decidable (exchangeSent x dgram) :=
  inferInstanceAs (Decidable (x = .a ∧ dgram = ⟨[7], ⟨.v4 0, 2⟩⟩))

theorem exchange_relays : Runs.Along step (Relays exchangeSent fun _ _ => False) exchangeStart exchange := by
  decide +kernel

theorem recv_hands_out_sent_exchange :
    (((Runs.run step exchangeStart exchange).host .b).socket.recv 0).2 = .ready ⟨[7], ⟨.v4 0, 1⟩⟩ ∧
      Handed exchangeSent (fun _ _ => False) exchangeStart exchange .b ⟨[7], ⟨.v4 0, 1⟩⟩ := by
  have hrecv : (((Runs.run step exchangeStart exchange).host .b).socket.recv 0).2 = .ready ⟨[7], ⟨.v4 0, 1⟩⟩ := by
    decide +kernel
  exact ⟨hrecv, recv_hands_out_sent exchange_relays .b 0 _ hrecv⟩

end Network

end AsyncUdx
