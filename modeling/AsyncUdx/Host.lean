import AsyncUdx.UdpPlatform
import AsyncUdx.SendLedger
import AsyncUdx.SocketTasks
import AsyncUdx.StreamPackets

/-! A host: the socket, its streams and the UDP layer of a platform under them. What the socket driver gets from the UDP
socket is no longer assumed but computed from what the kernel and the reactor answer, and what the kernel takes is put
on the wire. Every step of a host is a step of its socket, or none if a system call does not return. -/

namespace AsyncUdx

open Udp

/-- What a poll of the socket driver answers to a `Poll` of the UDP socket. -/
def SendOutcome.ofPoll : Poll (Except IoError Nat) → SendOutcome
  | .pending => .pending
  | .ready (.error err) => if err.kind = .interrupted then .interrupted else .failed err
  | .ready (.ok n) => .sent n

/-- What a poll of the socket driver reads from outside. `slice` is how many of the waiting transmits lie next to each
other in memory, and `sentAt` the instant that is kept for the packets sent. -/
structure HostContext (p : Platform) where
  waker : Waker
  budget : Nat
  timerLag : Nat
  slice : Nat
  readable : p.RecvScript
  writable : p.SendScript
  sentAt : Nat

def HostContext.lower {p : Platform} (cx : HostContext p) (received : List (Except IoError (List Arrival)))
    (sendOutcome : SendOutcome) : SocketContext :=
  ⟨cx.waker, cx.budget, cx.timerLag, received, sendOutcome, cx.sentAt⟩

/-- The last four fields are history variables: the transmits made so far, those of them that the UDP socket is done
with, and those of these that the kernel has taken and that it has refused. -/
structure Host (p : Platform) where
  socket : UdxSocket
  udp : UdpSocket
  built : List Transmit
  handled : List Transmit
  wire : List Transmit
  refused : List Transmit

inductive HostEvent (p : Platform)
  | connect (dest : SocketAddr) (localId remoteId : UInt32)
  | stream (n : Nat) (c : Call)
  | send (dest : SocketAddr) (buf : List UInt8)
  | recv (waker : Waker)
  | clone
  | drop
  | poll (cx : HostContext p)
  | tick (elapsed : Nat)

/-- The datagrams the kernel has for a host in an event. -/
def HostEvent.datagrams {p : Platform} : HostEvent p → List Arrival
  | .poll cx => p.datagrams cx.readable
  | _ => []

/-- A stream reads the number of segments from the state it shares with the UDP socket. -/
def Call.withSegments (maxGsoSegments : Nat) : Call → Call
  | .poll waker timerLag budget _ => .poll waker timerLag budget maxGsoSegments
  | c => c

namespace Host

variable {p : Platform}

def bind (now maxGsoSegments : Nat) (earlier : Option Int) : Host p where
  socket := .bind now p.batchSize
  udp := .fromStd now maxGsoSegments earlier
  built := []
  handled := []
  wire := []
  refused := []

/-- The transmits a poll offers to the UDP socket: the first part of the queue, after events were taken from the
channel. -/
def offered (h : Host p) (cx : HostContext p) (received : List (Except IoError (List Arrival))) : List Transmit :=
  match h.socket.transmitting (cx.lower received .pending) with
  | none => []
  | some t => (t.takeEvents cx.budget).1.inner.outgoingTransmits.take (max 1 cx.slice)

/-- The transmits a poll makes out of events from the channel. -/
def building (h : Host p) (cx : HostContext p) (received : List (Except IoError (List Arrival))) : List Transmit :=
  match h.socket.transmitting (cx.lower received .pending) with
  | none => []
  | some t => (t.takeEvents cx.budget).1.inner.outgoingTransmits.drop t.inner.outgoingTransmits.length

/-- A poll of the socket driver. It changes nothing as long as it is inside a system call. -/
def poll (h : Host p) (cx : HostContext p) : Host p :=
  match p.pollRecv cx.readable with
  | none => h
  | some received =>
      let transmits := h.offered cx received
      let built := h.built ++ h.building cx received
      if transmits.isEmpty then { h with socket := h.socket.poll (cx.lower received .pending), built := built }
      else
        match p.pollSend h.socket.clock transmits cx.writable h.udp with
        | none => h
        | some answer =>
            { socket := h.socket.poll (cx.lower received (.ofPoll answer.result))
              udp := answer.udp
              built := built
              handled := h.handled ++ transmits.take (SendOutcome.ofPoll answer.result).count
              wire := h.wire ++ answer.taken
              refused := h.refused ++ answer.refused }

def step (h : Host p) : HostEvent p → Host p
  | .connect dest localId remoteId => { h with socket := h.socket.step (.connect dest localId remoteId) }
  | .stream n c => { h with socket := h.socket.step (.stream n (c.withSegments h.udp.maxGsoSegments)) }
  | .send dest buf => { h with socket := h.socket.step (.send dest buf) }
  | .recv waker => { h with socket := h.socket.step (.recv waker) }
  | .clone => { h with socket := h.socket.step .clone }
  | .drop => { h with socket := h.socket.step .drop }
  | .poll cx => if h.socket.isRunning then h.poll cx else h
  | .tick elapsed => { h with socket := h.socket.step (.tick elapsed) }

/-! ### The ways a poll goes -/

/-- What a poll comes to: a system call does not return, nothing is waiting to be sent, or the UDP socket answers. -/
inductive Polled (h : Host p) (cx : HostContext p) : Host p → Prop
  | stuck : Polled h cx h
  | silent (received : List (Except IoError (List Arrival))) (hreceived : p.pollRecv cx.readable = some received)
      (hnone : h.offered cx received = []) :
      Polled h cx { h with
        socket := h.socket.poll (cx.lower received .pending), built := h.built ++ h.building cx received }
  | sends (received : List (Except IoError (List Arrival))) (answer : Answer)
      (hreceived : p.pollRecv cx.readable = some received) (hsome : h.offered cx received ≠ [])
      (hanswer : p.pollSend h.socket.clock (h.offered cx received) cx.writable h.udp = some answer) :
      Polled h cx
        { socket := h.socket.poll (cx.lower received (.ofPoll answer.result))
          udp := answer.udp
          built := h.built ++ h.building cx received
          handled := h.handled ++ (h.offered cx received).take (SendOutcome.ofPoll answer.result).count
          wire := h.wire ++ answer.taken
          refused := h.refused ++ answer.refused }

theorem poll_polled (h : Host p) (cx : HostContext p) : Polled h cx (h.poll cx) := by
  unfold poll
  split
  · exact .stuck
  · rename_i received hreceived
    dsimp only
    split
    · rename_i hempty
      exact .silent received hreceived (List.isEmpty_iff.mp hempty)
    · rename_i hne
      split
      · exact .stuck
      · rename_i answer hanswer
        refine .sends received answer hreceived ?_ hanswer
        intro hnil
        exact hne (List.isEmpty_iff.mpr hnil)

/-- What a step comes to: nothing, a step of the socket that is no poll, or a poll of the running driver that
returns. -/
inductive Stepped (h : Host p) (e : HostEvent p) : Host p → Prop
  | same : Stepped h e h
  | quiet (e' : SocketEvent) (he' : ∀ cx, e' ≠ .poll cx) : Stepped h e { h with socket := h.socket.step e' }
  | polls (cx : HostContext p) (he : e = .poll cx) (hrunning : h.socket.driver = .running) {after : Host p}
      (hpolled : Polled h cx after) : Stepped h e after

theorem step_stepped (h : Host p) (e : HostEvent p) : Stepped h e (h.step e) := by
  cases e with
  | poll cx =>
      rw [step]
      split
      · rename_i hisRunning
        refine .polls cx rfl ?_ (h.poll_polled cx)
        unfold UdxSocket.isRunning at hisRunning
        split at hisRunning
        · assumption
        · cases hisRunning
      · exact .same
  | connect dest localId remoteId => exact .quiet (.connect dest localId remoteId) nofun
  | stream n c => exact .quiet (.stream n (c.withSegments h.udp.maxGsoSegments)) nofun
  | send dest buf => exact .quiet (.send dest buf) nofun
  | recv waker => exact .quiet (.recv waker) nofun
  | clone => exact .quiet .clone nofun
  | drop => exact .quiet .drop nofun
  | tick elapsed => exact .quiet (.tick elapsed) nofun

/-- What happens to the socket of a host: a step with the same connections, at which only datagrams arrive that the
kernel has, cut off at the size of a buffer. -/
structure Lowers (h : Host p) (e : HostEvent p) (e' : SocketEvent) : Prop where
  socket : (h.step e).socket = h.socket.step e'
  arrived : ∀ arrival ∈ h.socket.arrived e', ∃ raw ∈ e.datagrams, arrival = raw.truncated
  connect : ∀ dest localId remoteId, e' = .connect dest localId remoteId → e = .connect dest localId remoteId
  send : ∀ dest buf, e' = .send dest buf → e = .send dest buf
  stream : ∀ n c, e' = .stream n c → ∃ c', e = .stream n c' ∧ c = c'.withSegments h.udp.maxGsoSegments
  poll : ∀ cx', e' = .poll cx' → ∃ cx received, e = .poll cx ∧ p.pollRecv cx.readable = some received ∧
    cx'.received = received

theorem arrivals_of_mem {iters : Nat} {received : List (Except IoError (List Arrival))} {arrival : Arrival}
    (h : arrival ∈ UdxSocket.arrivals iters received) : ∃ batch, .ok batch ∈ received ∧ arrival ∈ batch := by
  induction iters generalizing received with
  | zero => cases received <;> cases h
  | succ iters ih =>
      cases received with
      | nil => cases h
      | cons result rest =>
          cases result with
          | error err => cases h
          | ok batch =>
              rcases List.mem_append.mp h with hbatch | hrest
              · exact ⟨batch, List.mem_cons_self, hbatch⟩
              · obtain ⟨batch', hmem, harrival⟩ := ih hrest
                exact ⟨batch', List.mem_cons_of_mem _ hmem, harrival⟩

theorem poll_lowers {h : Host p} (hrunning : h.socket.isRunning = true) {cx : HostContext p}
    {received : List (Except IoError (List Arrival))} (hreceived : p.pollRecv cx.readable = some received)
    (outcome : SendOutcome) (hpoll : (h.poll cx).socket = h.socket.poll (cx.lower received outcome)) :
    h.Lowers (.poll cx) (.poll (cx.lower received outcome)) where
  socket := by
    rw [step, UdxSocket.step, if_pos hrunning, if_pos hrunning]
    exact hpoll
  arrived := by
    intro arrival harrival
    rw [UdxSocket.arrived, if_pos hrunning] at harrival
    obtain ⟨batch, hbatch, hmem⟩ := arrivals_of_mem harrival
    exact p.truncates cx.readable received batch hreceived hbatch arrival hmem
  connect := nofun
  send := nofun
  stream := nofun
  poll := by
    rintro _ ⟨⟩
    exact ⟨cx, received, rfl, hreceived, rfl⟩

/-- **A host refines its socket.** -/
theorem step_lowers (h : Host p) (e : HostEvent p) :
    (h.step e).socket = h.socket ∨ ∃ e', h.Lowers e e' := by
  have hquiet : ∀ e' : SocketEvent, (∀ cx, e' ≠ .poll cx) → ∀ arrival ∈ h.socket.arrived e',
      ∃ raw ∈ e.datagrams, arrival = raw.truncated := by
    intro e' he' arrival harrival
    cases e' with
    | poll cx => exact absurd rfl (he' cx)
    | _ => cases harrival
  cases e with
  | poll cx =>
      by_cases hrunning : h.socket.isRunning = true
      · have hpolled := h.poll_polled cx
        generalize hafter : h.poll cx = after at hpolled
        cases hpolled with
        | stuck =>
            left
            rw [step, if_pos hrunning, hafter]
        | silent received hreceived hnone =>
            exact Or.inr ⟨_, poll_lowers hrunning hreceived _ (congrArg Host.socket hafter)⟩
        | sends received answer hreceived hsome hanswer =>
            exact Or.inr ⟨_, poll_lowers hrunning hreceived _ (congrArg Host.socket hafter)⟩
      · left
        rw [step, if_neg hrunning]
  | connect dest localId remoteId =>
      refine Or.inr ⟨.connect dest localId remoteId, rfl, hquiet _ nofun, ?_, nofun, nofun, nofun⟩
      rintro _ _ _ ⟨⟩
      rfl
  | send dest buf =>
      refine Or.inr ⟨.send dest buf, rfl, hquiet _ nofun, nofun, ?_, nofun, nofun⟩
      rintro _ _ ⟨⟩
      rfl
  | stream n c =>
      refine Or.inr ⟨.stream n (c.withSegments h.udp.maxGsoSegments), rfl, hquiet _ nofun, nofun, nofun, ?_, nofun⟩
      rintro _ _ ⟨⟩
      exact ⟨c, rfl, rfl⟩
  | recv waker => exact Or.inr ⟨.recv waker, rfl, hquiet _ nofun, nofun, nofun, nofun, nofun⟩
  | clone => exact Or.inr ⟨.clone, rfl, hquiet _ nofun, nofun, nofun, nofun, nofun⟩
  | drop => exact Or.inr ⟨.drop, rfl, hquiet _ nofun, nofun, nofun, nofun, nofun⟩
  | tick elapsed => exact Or.inr ⟨.tick elapsed, rfl, hquiet _ nofun, nofun, nofun, nofun, nofun⟩

end Host

/-! ### Where transmits come from -/

/-- What the streams of a socket have handed to it so far. -/
def UdxSocket.outbox (h : UdxSocket) : List (List EventOutgoing) := h.tasks.map fun u => u.inner.sendTx.events

/-- An event in the channel to the socket: a set that a stream has handed over, or a datagram of the user. -/
def Offered (ok : Dgram → Prop) (outbox : List (List EventOutgoing)) : EventOutgoing → Prop
  | .transmit set => ∃ (n : Nat) (events : List EventOutgoing), outbox[n]? = some events ∧ .transmit set ∈ events
  | .transmitDgram dgram => ok dgram
  | .streamDropped _ => True

/-- A transmit is made from a datagram of the user, or from a set of packets that a stream has handed over. -/
inductive Origin (ok : Dgram → Prop) (outbox : List (List EventOutgoing)) (transmit : Transmit) : Prop
  | user (dgram : Dgram) (hok : ok dgram) (h : transmit = dgram.intoTransmit)
  | stream (n : Nat) (events : List EventOutgoing) (set : PacketSet) (skip : PacketRef → Bool)
      (hn : outbox[n]? = some events) (hset : .transmit set ∈ events) (h : transmit = set.toTransmit skip)

/-- All that waits in a socket comes from its streams or from the user. -/
structure Traced (ok : Dgram → Prop) (outbox : List (List EventOutgoing)) (inner : UdxSocketInner) : Prop where
  channel : ∀ sent ∈ inner.sendRx, Offered ok outbox sent.event
  queued : ∀ transmit ∈ inner.outgoingTransmits, Origin ok outbox transmit

/-- The streams have handed over more. -/
def Outgrows (outbox outbox' : List (List EventOutgoing)) : Prop :=
  ∀ (n : Nat) (events : List EventOutgoing), outbox[n]? = some events →
    ∃ events', outbox'[n]? = some events' ∧ events ⊆ events'

section Traced

variable {ok : Dgram → Prop} {outbox outbox' : List (List EventOutgoing)}

theorem Offered.mono {event : EventOutgoing} (h : Offered ok outbox event) (hgrows : Outgrows outbox outbox') :
    Offered ok outbox' event := by
  cases event with
  | transmit set =>
      obtain ⟨n, events, hn, hset⟩ := h
      obtain ⟨events', hn', hsubset⟩ := hgrows n events hn
      exact ⟨n, events', hn', hsubset hset⟩
  | transmitDgram dgram => exact h
  | streamDropped localId => trivial

theorem Origin.mono {transmit : Transmit} (h : Origin ok outbox transmit) (hgrows : Outgrows outbox outbox') :
    Origin ok outbox' transmit := by
  cases h with
  | user dgram hok h => exact .user dgram hok h
  | stream n events set skip hn hset h =>
      obtain ⟨events', hn', hsubset⟩ := hgrows n events hn
      exact .stream n events' set skip hn' (hsubset hset) h

theorem Traced.mono {inner : UdxSocketInner} (h : Traced ok outbox inner) (hgrows : Outgrows outbox outbox') :
    Traced ok outbox' inner :=
  ⟨fun sent hsent => (h.channel sent hsent).mono hgrows, fun t ht => (h.queued t ht).mono hgrows⟩

namespace UdxSocket

variable {h : UdxSocket}

theorem handleEvent_traced {sent : Sent} {rest : List Sent} (hcons : h.inner.sendRx = sent :: rest)
    (hs : Traced ok outbox h.inner) :
    Traced ok outbox (({ h with inner := { h.inner with sendRx := rest } } : UdxSocket).handleEvent sent).inner := by
  have hrest : ∀ other ∈ rest, Offered ok outbox other.event := by
    intro other hother
    apply hs.channel
    rw [hcons]
    exact List.mem_cons_of_mem _ hother
  have hsent : Offered ok outbox sent.event := by
    apply hs.channel
    rw [hcons]
    exact List.mem_cons_self
  unfold handleEvent
  split <;> rename_i heq
  · rw [remove_eq]
    exact ⟨hrest, hs.queued⟩
  · rename_i dgram
    refine ⟨hrest, fun transmit htransmit => ?_⟩
    rcases List.mem_append.mp htransmit with hold | hnew
    · exact hs.queued transmit hold
    · rw [heq] at hsent
      exact .user dgram hsent (List.mem_singleton.mp hnew)
  · rename_i set
    refine ⟨hrest, fun transmit htransmit => ?_⟩
    rcases List.mem_append.mp htransmit with hold | hnew
    · exact hs.queued transmit hold
    · rw [heq] at hsent
      obtain ⟨n, events, hn, hset⟩ := hsent
      exact .stream n events set _ hn hset (List.mem_singleton.mp hnew)

theorem pollRecv_traced (cx : SocketContext) (hs : Traced ok outbox h.inner) :
    Traced ok outbox (h.pollRecv cx).1.inner := by
  refine pollRecv_invariant (fun t => Traced ok outbox t.inner) ?_ ?_ ?_ cx hs
  · exact fun _ _ _ _ _ ht => ⟨ht.channel, ht.queued⟩
  · exact fun _ _ _ _ _ ht => ht
  · intro t localId handle _ _ ht
    rw [remove_eq]
    exact ⟨ht.channel, ht.queued⟩

theorem takeEvents_traced (budget : Nat) (hs : Traced ok outbox h.inner) :
    Traced ok outbox (h.takeEvents budget).1.inner :=
  takeEvents_invariant (fun t => Traced ok outbox t.inner) (fun _ _ _ hcons => handleEvent_traced hcons) budget hs

/-- A send takes transmits away and adds none. -/
theorem pollTransmit_traced (cx : SocketContext) (hs : Traced ok outbox h.inner) :
    Traced ok outbox (h.pollTransmit cx).1.inner := by
  have htaken := takeEvents_traced cx.budget hs
  unfold pollTransmit
  dsimp only
  split
  · exact htaken
  · split
    · exact htaken
    · exact ⟨htaken.channel, htaken.queued⟩
    · exact htaken
    · rw [drain_eq]
      exact ⟨htaken.channel, fun transmit h => htaken.queued transmit (List.mem_of_mem_drop h)⟩

theorem poll_traced (cx : SocketContext) (hs : Traced ok outbox h.inner) : Traced ok outbox (h.poll cx).inner :=
  poll_invariant_of_pollRecv (fun t => Traced ok outbox t.inner) (fun _ _ _ _ _ ht => ⟨ht.channel, ht.queued⟩)
    (fun _ ht => ht) (fun _ _ ht => ⟨ht.channel, ht.queued⟩) (fun _ cx ht => pollTransmit_traced cx ht) cx
    (pollRecv_traced cx hs)

/-- A step only adds to what the streams have handed over. -/
theorem step_outgrows {N : Nat} {P : Nat → UdxStream → Prop} (hs : h.Attends N P) (e : SocketEvent) :
    Outgrows h.outbox (h.step e).outbox := by
  have hget : ∀ (n : Nat) (u : UdxStream), h.tasks[n]? = some u → h.outbox[n]? = some u.inner.sendTx.events := by
    intro n u hu
    rw [outbox, List.getElem?_map, hu]
    rfl
  have hkept : (h.step e).Attends h.tasks.length fun n u => ∀ events, h.outbox[n]? = some events →
      events <+: u.inner.sendTx.events := by
    apply Attends.step
    · apply hs.of_all
      intro n u hu events hevents
      rw [Option.some.inj ((hget n u hu).symm.trans hevents)]
    · exact fun n u c _ hu events hevents => (hu events hevents).trans (u.step_events_prefix (.call c))
    · exact fun n c _ u hu events hevents => (hu events hevents).trans (u.step_events_prefix (.call c))
    · exact fun arrival _ n u hu _ _ events hevents => (hu events hevents).trans (u.step_events_prefix _)
    · intro dest localId remoteId _ _ events hevents
      rw [outbox, List.getElem?_map, List.getElem?_eq_none (Nat.le_refl _)] at hevents
      cases hevents
  intro n events hevents
  have hlt : n < h.tasks.length := by
    obtain ⟨hlt, -⟩ := List.getElem?_eq_some_iff.mp hevents
    rwa [outbox, List.length_map] at hlt
  obtain ⟨u, hu⟩ : ∃ u, (h.step e).tasks[n]? = some u :=
    ⟨_, List.getElem?_eq_getElem (Nat.lt_of_lt_of_le hlt hkept.length_le)⟩
  refine ⟨u.inner.sendTx.events, ?_, (hkept.all n u hu events hevents).subset⟩
  rw [outbox, List.getElem?_map, hu]
  rfl

/-- Every step keeps the trace, if it keeps to the datagrams the user may send. -/
theorem step_traced {N : Nat} (hs : h.Attends N fun _ u => u.Reachable) (ht : Traced ok h.outbox h.inner)
    {e : SocketEvent} (hok : ∀ dest buf, e = .send dest buf → ok ⟨buf, dest⟩) :
    Traced ok (h.step e).outbox (h.step e).inner := by
  have hgrows := step_outgrows hs e
  cases e with
  | connect dest localId remoteId =>
      have hold := ht.mono hgrows
      generalize (h.step (.connect dest localId remoteId)).outbox = outbox' at hold ⊢
      rw [step]
      split
      · exact hold
      · exact ⟨hold.channel, hold.queued⟩
  | stream n c =>
      have hold := ht.mono hgrows
      by_cases hown : c.isOwn = true
      · cases hn : h.tasks[n]? with
        | none =>
            have hsame : h.step (.stream n c) = h := by
              rw [step, if_pos hown, callStream, hn]
            rw [hsame] at hold ⊢
            exact hold
        | some u =>
            have hstep : h.step (.stream n c) = h.callStream n c := if_pos hown
            have hbox : (h.step (.stream n c)).outbox[n]? = some (u.call c).inner.sendTx.events := by
              rw [hstep, callStream, hn, outbox, List.getElem?_map,
                List.getElem?_set_self (List.getElem?_eq_some_iff.mp hn).1]
              rfl
            have hstream := ((hs.all n u hn).step (.call c)).ofStream
            generalize (h.step (.stream n c)).outbox = outbox' at hold hbox ⊢
            rw [hstep, callStream, hn]
            refine ⟨fun sent hsent => ?_, hold.queued⟩
            rcases List.mem_append.mp hsent with hmem | hnew
            · exact hold.channel sent hmem
            · obtain ⟨event, hevent, rfl⟩ := List.mem_map.mp hnew
              have hsent := List.mem_of_mem_drop hevent
              cases event with
              | transmit set => exact ⟨n, _, hbox, hsent⟩
              | transmitDgram dgram => exact (hstream _ hsent).elim
              | streamDropped localId => trivial
      · have hsame : h.step (.stream n c) = h := if_neg hown
        rw [hsame] at hold ⊢
        exact hold
  | send dest buf =>
      have hold := ht.mono hgrows
      generalize (h.step (.send dest buf)).outbox = outbox' at hold ⊢
      rw [step]
      split
      · exact hold
      · refine ⟨fun sent hsent => ?_, hold.queued⟩
        rcases List.mem_append.mp hsent with hmem | hnew
        · exact hold.channel sent hmem
        · rw [List.mem_singleton.mp hnew]
          exact hok dest buf rfl
  | recv waker =>
      have hold := ht.mono hgrows
      generalize (h.step (.recv waker)).outbox = outbox' at hold ⊢
      rw [step, recv]
      split
      · exact hold
      · split <;> exact ⟨hold.channel, hold.queued⟩
  | clone =>
      have hold := ht.mono hgrows
      generalize (h.step .clone).outbox = outbox' at hold ⊢
      rw [step]
      split <;> exact hold
  | drop =>
      have hold := ht.mono hgrows
      generalize (h.step .drop).outbox = outbox' at hold ⊢
      rw [step]
      split
      · exact hold
      · unfold release onDrop
        split_ifs <;> exact ⟨hold.channel, hold.queued⟩
  | poll cx =>
      have hold := ht.mono hgrows
      generalize (h.step (.poll cx)).outbox = outbox' at hold ⊢
      rw [step]
      split
      · exact poll_traced cx hold
      · exact hold
  | tick elapsed => exact ht.mono hgrows

end UdxSocket

end Traced

namespace Host

variable {p : Platform}

/-- The streams of a host are streams of some run, and all it has or had to send comes from them or from the user. -/
structure Grounded (ok : Dgram → Prop) (h : Host p) : Prop where
  attends : h.socket.Attends 0 fun _ u => u.Reachable
  traced : Traced ok h.socket.outbox h.socket.inner
  wire : ∀ transmit ∈ h.wire, Origin ok h.socket.outbox transmit

theorem bind_grounded (ok : Dgram → Prop) (now maxGsoSegments : Nat) (earlier : Option Int) :
    (Host.bind now maxGsoSegments earlier : Host p).Grounded ok where
  attends := UdxSocket.bind_attends now p.batchSize
  traced := ⟨fun _ h => absurd h List.not_mem_nil, fun _ h => absurd h List.not_mem_nil⟩
  wire := fun _ h => absurd h List.not_mem_nil

/-- What is offered to the UDP socket was waiting in the socket or in its channel. -/
theorem offered_origin {ok : Dgram → Prop} {outbox : List (List EventOutgoing)} {h : Host p}
    (ht : Traced ok outbox h.socket.inner) (cx : HostContext p) (received : List (Except IoError (List Arrival))) :
    ∀ transmit ∈ h.offered cx received, Origin ok outbox transmit := by
  intro transmit htransmit
  unfold offered UdxSocket.transmitting at htransmit
  have hrecv := UdxSocket.pollRecv_traced (cx.lower received .pending) ht
  split at htransmit
  · cases htransmit
  · rename_i t htransmitting
    split at htransmitting
    · cases htransmitting
    · rename_i t' flag hpoll
      split at htransmitting
      · cases htransmitting
      · cases htransmitting
        rw [hpoll] at hrecv
        exact (UdxSocket.takeEvents_traced cx.budget hrecv).queued transmit (List.mem_of_mem_take htransmit)

/-- What the kernel takes in a step was offered to it. -/
theorem step_wire (h : Host p) (e : HostEvent p) : ∃ taken, (h.step e).wire = h.wire ++ taken ∧
    ∀ transmit ∈ taken, ∃ cx received, e = .poll cx ∧ transmit ∈ h.offered cx received := by
  have hnone : ∃ taken, h.wire = h.wire ++ taken ∧
      ∀ transmit ∈ taken, ∃ cx received, e = .poll cx ∧ transmit ∈ h.offered cx received :=
    ⟨[], (List.append_nil _).symm, fun _ h => absurd h List.not_mem_nil⟩
  have hstepped := h.step_stepped e
  generalize h.step e = after at hstepped ⊢
  cases hstepped with
  | same => exact hnone
  | quiet e' he' => exact hnone
  | polls cx he hrunning hpolled =>
      cases hpolled with
      | stuck => exact hnone
      | silent received hreceived hempty => exact hnone
      | sends received answer hreceived hsome hanswer =>
          have hanswers := p.answers _ _ _ _ _ hanswer
          refine ⟨answer.taken, rfl, fun transmit htransmit => ⟨cx, received, he, ?_⟩⟩
          by_cases hsent : ∃ n, answer.result = .ready (.ok n)
          · obtain ⟨n, hn⟩ := hsent
            exact List.mem_of_mem_take ((hanswers.sent n hn).2.sublist.subset htransmit)
          · rw [(hanswers.blocked fun n hn => hsent ⟨n, hn⟩).1] at htransmit
            cases htransmit

theorem attends_step {h : Host p} {N : Nat} {P : Nat → UdxStream → Prop} (hs : h.socket.Attends N P)
    (hcall : UdxSocket.KeptBySocket P) (e : HostEvent p)
    (hown : ∀ n c, e = .stream n c → ∀ u, P n u → P n (u.call (c.withSegments h.udp.maxGsoSegments)))
    (harrivals : ∀ raw ∈ e.datagrams, UdxSocket.KeptByArrival P raw.truncated)
    (hnew : ∀ dest localId remoteId, e = .connect dest localId remoteId → h.socket.handles ≠ 0 →
      P h.socket.tasks.length (.connect h.socket.clock dest remoteId localId)) : (h.step e).socket.Attends N P := by
  rcases h.step_lowers e with hsame | ⟨e', hlowers⟩
  · rw [hsame]
    exact hs
  · rw [hlowers.socket]
    apply hs.step hcall
    · intro n c he
      obtain ⟨c', hc', rfl⟩ := hlowers.stream n c he
      exact hown n c' hc'
    · intro arrival harrival
      obtain ⟨raw, hraw, rfl⟩ := hlowers.arrived arrival harrival
      exact harrivals raw hraw
    · exact fun dest localId remoteId he => hnew dest localId remoteId (hlowers.connect dest localId remoteId he)

theorem step_outgrows {h : Host p} {N : Nat} {P : Nat → UdxStream → Prop} (hs : h.socket.Attends N P)
    (e : HostEvent p) : Outgrows h.socket.outbox (h.step e).socket.outbox := by
  rcases h.step_lowers e with hsame | ⟨e', hlowers⟩
  · rw [hsame]
    exact fun n events hn => ⟨events, hn, List.Subset.refl _⟩
  · rw [hlowers.socket]
    exact UdxSocket.step_outgrows hs e'

/-- **Every step of a host keeps to what its streams and its user have sent.** -/
theorem Grounded.step {ok : Dgram → Prop} {h : Host p} (hs : h.Grounded ok) {e : HostEvent p}
    (hok : ∀ dest buf, e = .send dest buf → ok ⟨buf, dest⟩) : (h.step e).Grounded ok where
  attends := by
    apply attends_step hs.attends
    · exact fun _ u c _ hu => hu.step (.call c)
    · exact fun _ c _ u hu => hu.step (.call (c.withSegments h.udp.maxGsoSegments))
    · exact fun _ _ _ _ hu _ _ => hu.step _
    · exact fun dest localId remoteId _ _ => ⟨h.socket.clock, dest, remoteId, localId, [], rfl⟩
  traced := by
    rcases h.step_lowers e with hsame | ⟨e', hlowers⟩
    · rw [hsame]
      exact hs.traced
    · rw [hlowers.socket]
      exact UdxSocket.step_traced hs.attends hs.traced fun dest buf he => hok dest buf (hlowers.send dest buf he)
  wire := by
    have hgrows := step_outgrows hs.attends e
    obtain ⟨taken, hwire, htaken⟩ := h.step_wire e
    intro transmit htransmit
    rw [hwire] at htransmit
    rcases List.mem_append.mp htransmit with hold | hnew
    · exact (hs.wire transmit hold).mono hgrows
    · obtain ⟨cx, received, -, hmem⟩ := htaken transmit hnew
      exact (offered_origin hs.traced cx received transmit hmem).mono hgrows

end Host

end AsyncUdx
