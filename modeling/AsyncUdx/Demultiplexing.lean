import AsyncUdx.Codec
import AsyncUdx.PacketLoad
import AsyncUdx.SocketSend

/-! Where a received datagram goes. A datagram is what the UDP socket reports: the bytes it has read and the address
they came from. It is for a stream if it is long enough for a header, starts with the magic and version bytes, and names
a stream id that is registered at that moment; otherwise it is a datagram of the user. `UdxSocket.route` says so without
the code, as one destination for each datagram, and the functions of the socket follow it in every run. -/

namespace AsyncUdx

/-! ### Destinations -/

/-- Where a datagram goes: to the channel of a stream, to the queue of the user's datagrams, or nowhere, because the
stream it names has no receiver any more or because the queue is full. -/
inductive Destination
  | stream (n : Nat) (packet : IncomingPacket)
  | dgrams (dgram : Dgram)
  | gone (localId : UInt32)
  | full
  deriving DecidableEq, Repr

/-- What a destination means for the channel of a stream. -/
def Destination.toStream (n : Nat) : Destination → Option IncomingPacket
  | .stream m packet => if m = n then some packet else none
  | _ => none

/-- What a destination means for the queue of the user's datagrams. -/
def Destination.toDgrams : Destination → Option Dgram
  | .dgrams dgram => some dgram
  | _ => none

namespace UdxSocket

/-- The stream a datagram is for: the one registered under the id in its header. -/
def addressee (h : UdxSocket) (data : List UInt8) : Option StreamHandle :=
  if WellFormed data then h.inner.streams.lookup (headerAt data).streamId else none

/-- **Where a datagram goes.** -/
def route (h : UdxSocket) (arrival : Arrival) : Destination :=
  match h.addressee arrival.data with
  | some handle =>
      if h.receives handle then
        .stream handle.recvTx ⟨headerAt arrival.data, arrival.data.drop udxHeaderSize, 0, arrival.source⟩
      else .gone (headerAt arrival.data).streamId
  | none =>
      if h.inner.recvDgrams.length < recvQueueMaxLen then .dgrams ⟨arrival.data, arrival.source⟩ else .full

theorem processPacket_none {h : UdxSocket} {data : List UInt8} (hnone : h.addressee data = none) (source : SocketAddr) :
    h.processPacket data source = (h.countRx data, .error data) := by
  unfold addressee at hnone
  unfold processPacket
  rw [fromBytes_eq]
  by_cases hformed : WellFormed data
  · rw [if_pos hformed] at hnone ⊢
    have hlookup : (h.countRx data).inner.streams.lookup (headerAt data).streamId = none := hnone
    dsimp only [dispatch]
    rw [hlookup]
  · rw [if_neg hformed]

theorem processPacket_some {h : UdxSocket} {data : List UInt8} {handle : StreamHandle}
    (hsome : h.addressee data = some handle) (source : SocketAddr) :
    h.processPacket data source =
      (if h.receives handle then
        (h.countRx data).modify handle.recvTx fun u => u.step (.recv (headerAt data) (data.drop udxHeaderSize) source)
      else (h.countRx data).remove (headerAt data).streamId, .ok ()) := by
  unfold addressee at hsome
  unfold processPacket
  rw [fromBytes_eq]
  split_ifs at hsome with hformed
  rw [if_pos hformed]
  have hlookup : (h.countRx data).inner.streams.lookup (headerAt data).streamId = some handle := hsome
  have hreceives : (h.countRx data).receives handle = h.receives handle := rfl
  dsimp only [dispatch]
  rw [hlookup]
  dsimp only
  rw [hreceives]
  split <;> rfl

/-- What receiving a datagram does, by its destination. -/
theorem receive_eq (h : UdxSocket) (arrival : Arrival) :
    h.receive arrival =
      match h.route arrival with
      | .stream n packet =>
          (h.countRx arrival.data).modify n fun u => u.step (.recv packet.header packet.buf packet.source)
      | .dgrams dgram => (h.countRx arrival.data).onRecvDgram dgram.buf dgram.dest
      | .gone localId => (h.countRx arrival.data).remove localId
      | .full => h.countRx arrival.data := by
  unfold receive route
  cases haddressee : h.addressee arrival.data with
  | none =>
      rw [processPacket_none haddressee]
      dsimp only
      by_cases hroom : h.inner.recvDgrams.length < recvQueueMaxLen
      · rw [if_pos hroom]
      · rw [if_neg hroom]
        exact if_neg hroom
  | some handle =>
      rw [processPacket_some haddressee]
      dsimp only
      cases h.receives handle <;> rfl

/-! ### Receiving follows the destinations -/

/-- The packets in the channel of a stream. -/
def inbox (h : UdxSocket) (n : Nat) : List IncomingPacket := (h.tasks.map fun u => u.inner.recvRx.queue).getD n []

theorem inbox_congr {h t : UdxSocket}
    (hsame : (t.tasks.map fun u => u.inner.recvRx.queue) = h.tasks.map fun u => u.inner.recvRx.queue) (n : Nat) :
    t.inbox n = h.inbox n := by
  rw [inbox, inbox, hsame]

/-- Something that happens to all streams and not to their channels. -/
theorem map_queues (tasks : List UdxStream) {f : UdxStream → UdxStream}
    (hf : ∀ u, (f u).inner.recvRx.queue = u.inner.recvRx.queue) :
    ((tasks.map f).map fun u => u.inner.recvRx.queue) = tasks.map fun u => u.inner.recvRx.queue := by
  rw [List.map_map]
  exact List.map_congr_left fun u _ => hf u

theorem modify_inbox (h : UdxSocket) (m : Nat) {f : UdxStream → UdxStream}
    (hf : ∀ u, (f u).inner.recvRx.queue = u.inner.recvRx.queue) (n : Nat) : (h.modify m f).inbox n = h.inbox n := by
  refine inbox_congr ?_ n
  change (h.tasks.modify m f).map _ = _
  rw [map_modify f _ id hf, List.modify_id]

theorem remove_inbox (h : UdxSocket) (localId : UInt32) (n : Nat) : (h.remove localId).inbox n = h.inbox n := by
  change (h.dropHandle (h.inner.streams.lookup localId)).inbox n = h.inbox n
  unfold dropHandle
  split
  · rfl
  · exact modify_inbox h _ (f := fun u => u.call (.socketGone true false)) (fun _ => rfl) n

/-- A packet that a stream is sent joins its channel and no other. -/
theorem modify_recv_inbox {h : UdxSocket} {m : Nat} (hm : m < h.tasks.length) (packet : IncomingPacket)
    (hfresh : packet.readOffset = 0) (n : Nat) :
    (h.modify m fun u => u.step (.recv packet.header packet.buf packet.source)).inbox n =
      h.inbox n ++ if m = n then [packet] else [] := by
  obtain ⟨header, buf, readOffset, source⟩ := packet
  cases hfresh
  unfold inbox
  change ((h.tasks.modify m _).map _).getD n [] = _
  rw [map_modify _ _ (fun queue : List IncomingPacket => queue ++ [⟨header, buf, 0, source⟩]) fun _ => rfl,
    List.getD_eq_getElem?_getD, List.getD_eq_getElem?_getD, List.getElem?_modify]
  by_cases hmn : m = n
  · subst hmn
    rw [List.getElem?_map, List.getElem?_eq_getElem hm]
    simp
  · simp [hmn]

theorem lt_of_receives {h : UdxSocket} {handle : StreamHandle} (hreceives : h.receives handle = true) :
    handle.recvTx < h.tasks.length := by
  unfold receives at hreceives
  split at hreceives
  · cases hreceives
  · rename_i hsome
    exact (List.getElem?_eq_some_iff.mp hsome).1

/-- Only a stream that receives is a destination, and its packet has not been read from. -/
theorem route_stream {h : UdxSocket} {arrival : Arrival} {n : Nat} {packet : IncomingPacket}
    (hroute : h.route arrival = .stream n packet) : n < h.tasks.length ∧ packet.readOffset = 0 := by
  unfold route at hroute
  split at hroute
  · split at hroute
    · rename_i hreceives
      cases hroute
      exact ⟨lt_of_receives hreceives, rfl⟩
    · cases hroute
  · split at hroute <;> cases hroute

theorem receive_inbox (h : UdxSocket) (arrival : Arrival) (n : Nat) :
    (h.receive arrival).inbox n = h.inbox n ++ ((h.route arrival).toStream n).toList := by
  rw [receive_eq]
  cases hroute : h.route arrival with
  | stream m packet =>
      obtain ⟨hm, hfresh⟩ := route_stream hroute
      have hstep := modify_recv_inbox (h := h.countRx arrival.data) hm packet hfresh n
      refine hstep.trans (congrArg (h.inbox n ++ ·) ?_)
      rw [Destination.toStream]
      split <;> rfl
  | dgrams dgram =>
      dsimp only
      rw [onRecvDgram]
      split <;> exact (List.append_nil _).symm
  | gone localId => exact (remove_inbox _ _ _).trans (List.append_nil _).symm
  | full => exact (List.append_nil _).symm

/-- There is room for a datagram that goes to the user. -/
theorem route_dgrams {h : UdxSocket} {arrival : Arrival} {dgram : Dgram} (hroute : h.route arrival = .dgrams dgram) :
    h.inner.recvDgrams.length < recvQueueMaxLen := by
  unfold route at hroute
  split at hroute
  · split at hroute <;> cases hroute
  · split at hroute
    · assumption
    · cases hroute

/-- The user's side of a socket: the datagrams that wait, and the waker that is registered. -/
def userSide (h : UdxSocket) : List Dgram × Option Waker := (h.inner.recvDgrams, h.inner.recvWaker)

/-- A datagram that goes to the user joins the queue and takes the waker; no other changes either. -/
theorem receive_userSide (h : UdxSocket) (arrival : Arrival) :
    (h.receive arrival).userSide =
      match (h.route arrival).toDgrams with
      | some dgram => (h.inner.recvDgrams ++ [dgram], none)
      | none => h.userSide := by
  rw [receive_eq]
  cases hroute : h.route arrival with
  | stream m packet => rfl
  | dgrams dgram =>
      have hroom : (h.countRx arrival.data).inner.recvDgrams.length < recvQueueMaxLen := route_dgrams hroute
      dsimp only
      rw [onRecvDgram, if_pos hroom]
      rfl
  | gone localId =>
      dsimp only
      rw [remove_eq]
      rfl
  | full => rfl

/-- The datagrams that the loop of `poll_recv` gets from the UDP socket. -/
def arrivals : Nat → List (Except IoError (List Arrival)) → List Arrival
  | iters + 1, .ok batch :: rest => batch ++ arrivals iters rest
  | _, _ => []

/-- Datagrams with their destinations, each decided in the state its predecessors leave behind. -/
def routes : List Arrival → UdxSocket → List (Arrival × Destination)
  | [], _ => []
  | arrival :: rest, h => (arrival, h.route arrival) :: routes rest (h.receive arrival)

theorem recvLoop_eq (iters : Nat) (received : List (Except IoError (List Arrival))) (h : UdxSocket) :
    (recvLoop iters received h).1 = (arrivals iters received).foldl receive h := by
  induction iters generalizing received h with
  | zero => rfl
  | succ iters ih =>
      match received with
      | [] => rfl
      | .error err :: rest => rfl
      | .ok batch :: rest => exact (ih rest _).trans List.foldl_append.symm

theorem receives_inbox (batch : List Arrival) (h : UdxSocket) (n : Nat) :
    (batch.foldl receive h).inbox n = h.inbox n ++ (routes batch h).filterMap fun entry => entry.2.toStream n := by
  induction batch generalizing h with
  | nil => exact (List.append_nil _).symm
  | cons arrival rest ih =>
      rw [List.foldl_cons, ih, receive_inbox, routes, List.append_assoc]
      refine congrArg (h.inbox n ++ ·) ?_
      cases hroute : (h.route arrival).toStream n <;> simp [hroute]

/-- The datagrams among some that go to the user. -/
def accepted (entries : List (Arrival × Destination)) : List Dgram := entries.filterMap fun entry => entry.2.toDgrams

theorem accepted_cons (arrival : Arrival) (destination : Destination) (rest : List (Arrival × Destination)) :
    accepted ((arrival, destination) :: rest) = destination.toDgrams.toList ++ accepted rest := by
  cases destination <;> rfl

theorem receives_userSide (batch : List Arrival) (h : UdxSocket) :
    (batch.foldl receive h).userSide =
      (h.inner.recvDgrams ++ accepted (routes batch h),
        if accepted (routes batch h) = [] then h.inner.recvWaker else none) := by
  induction batch generalizing h with
  | nil => exact Prod.ext (List.append_nil _).symm rfl
  | cons arrival rest ih =>
      have hfirst := receive_userSide h arrival
      rw [List.foldl_cons, ih, routes, accepted_cons]
      change ((h.receive arrival).userSide.1 ++ _, if _ then (h.receive arrival).userSide.2 else none) = _
      rw [hfirst]
      cases (h.route arrival).toDgrams with
      | none => rfl
      | some dgram => simp

theorem receives_dgrams_le (batch : List Arrival) {h : UdxSocket} (hle : h.inner.recvDgrams.length ≤ recvQueueMaxLen) :
    (batch.foldl receive h).inner.recvDgrams.length ≤ recvQueueMaxLen := by
  refine List.foldlRecOn (motive := fun h : UdxSocket => h.inner.recvDgrams.length ≤ recvQueueMaxLen) batch receive hle
    fun h hle arrival _ => ?_
  have hfirst := congrArg Prod.fst (receive_userSide h arrival)
  change (h.receive arrival).inner.recvDgrams = _ at hfirst
  cases hroute : h.route arrival with
  | dgrams dgram =>
      rw [hfirst, hroute]
      change (h.inner.recvDgrams ++ [dgram]).length ≤ recvQueueMaxLen
      rw [List.length_append]
      exact route_dgrams hroute
  | _ =>
      rw [hfirst, hroute]
      exact hle

/-! ### The other steps -/

/-- The receiving side of a socket is as it was. -/
structure SameInbound (h t : UdxSocket) : Prop where
  inbox : ∀ n, t.inbox n = h.inbox n
  userSide : t.userSide = h.userSide

theorem SameInbound.refl (h : UdxSocket) : SameInbound h h := ⟨fun _ => rfl, rfl⟩

theorem SameInbound.handleEvent {h t : UdxSocket} (ht : SameInbound h t) (sent : Sent) (rest : List Sent) :
    SameInbound h (({ t with inner := { t.inner with sendRx := rest } } : UdxSocket).handleEvent sent) := by
  obtain ⟨origin, event⟩ := sent
  cases event with
  | streamDropped localId =>
      refine ⟨fun n => ?_, ?_⟩
      · exact (remove_inbox _ _ n).trans (ht.inbox n)
      · change (({ t with inner := { t.inner with sendRx := rest } } : UdxSocket).remove localId).userSide = _
        rw [remove_eq]
        exact ht.userSide
  | transmitDgram dgram => exact ⟨ht.inbox, ht.userSide⟩
  | transmit set => exact ⟨ht.inbox, ht.userSide⟩

theorem SameInbound.pollTransmit {h t : UdxSocket} (ht : SameInbound h t) (cx : SocketContext) :
    SameInbound h (t.pollTransmit cx).1 := by
  refine pollTransmit_invariant (SameInbound h) (fun t sent rest _ ht => ht.handleEvent sent rest)
    (fun t _ _ _ _ ht => ?_) (fun t n seq sent ht => ?_) cx ht
  · exact ⟨ht.inbox, ht.userSide⟩
  · refine ⟨fun m => (modify_inbox t n (fun u => ?_) m).trans (ht.inbox m), ht.userSide⟩
    change (UdxStream.markSent u.inner sent seq).recvRx.queue = _
    unfold UdxStream.markSent
    split <;> rfl

/-- After receiving, a poll leaves the receiving side alone. -/
theorem poll_sameInbound (h : UdxSocket) (cx : SocketContext) : SameInbound (h.pollRecv cx).1 (h.poll cx) := by
  refine poll_invariant_of_pollRecv (SameInbound (h.pollRecv cx).1) (fun t _ _ _ _ ht => ⟨ht.inbox, ht.userSide⟩)
    (fun t ht => ?_) (fun t _ ht => ⟨ht.inbox, ht.userSide⟩) (fun t cx ht => ht.pollTransmit cx) cx (.refl _)
  refine ⟨fun n => (inbox_congr ?_ n).trans (ht.inbox n), ht.userSide⟩
  exact map_queues t.tasks (f := fun u => u.call (.socketGone true true)) fun _ => rfl

/-- A call takes packets from the front of the channel, and a call that does not drive the stream takes none. -/
theorem call_queue_suffix (u : UdxStream) (c : Call) :
    (u.call c).inner.recvRx.queue <:+ u.inner.recvRx.queue := by
  by_cases hdrives : u.drives c
  · cases c with
    | poll waker timerLag budget maxGsoSegments =>
        rw [UdxStream.call, if_pos hdrives.1, UdxStream.poll_recvRx _ hdrives.2]
        exact List.drop_suffix _ _
    | _ => exact hdrives.elim
  · have hkept : (u.call c).inner.recvRx.queue = u.inner.recvRx.queue := by
      have hinv : CallInvariant u.clock fun s => s.recvRx.queue = u.inner.recvRx.queue := by
        constructor <;> intros <;> assumption
      exact UdxStream.call_invariant u c hinv hdrives rfl
    rw [hkept]

theorem callStream_inbox_suffix (h : UdxSocket) (m : Nat) (c : Call) (n : Nat) :
    (h.callStream m c).inbox n <:+ h.inbox n := by
  unfold callStream
  split
  · exact List.suffix_rfl
  · rename_i u hu
    have hm := (List.getElem?_eq_some_iff.mp hu).1
    change ((h.tasks.set m (u.call c)).map _).getD n [] <:+ (h.tasks.map _).getD n []
    rw [List.getD_eq_getElem?_getD, List.getD_eq_getElem?_getD, List.getElem?_map, List.getElem?_map, List.getElem?_set]
    by_cases hmn : m = n
    · subst hmn
      rw [if_pos rfl, if_pos hm, hu]
      exact call_queue_suffix u c
    · rw [if_neg hmn]

/-- The datagrams that a step gets from the UDP socket. -/
def arrived (h : UdxSocket) : SocketEvent → List Arrival
  | .poll cx => if h.isRunning then arrivals (maxLoop - 1) cx.received else []
  | _ => []

/-- The datagrams that a step gets from the UDP socket, with their destinations. -/
def routed (h : UdxSocket) (e : SocketEvent) : List (Arrival × Destination) := routes (h.arrived e) h

/-- The packets that leave the channel of a stream in a step. -/
def takenBy (n : Nat) (h : UdxSocket) (e : SocketEvent) : List IncomingPacket :=
  (h.inbox n).take ((h.inbox n).length - ((h.step e).inbox n).length)

/-- The datagram that a step hands out to a `RecvFuture`. -/
def handedOut (h : UdxSocket) : SocketEvent → List Dgram
  | .recv waker =>
      if h.handles = 0 then []
      else
        match (h.recv waker).2 with
        | .ready dgram => [dgram]
        | .pending => []
  | _ => []

/-- The channel of a new stream is empty, and the one it replaces keeps its packets. -/
theorem connect_inbox (h : UdxSocket) (dest : SocketAddr) (localId remoteId : UInt32) (n : Nat) :
    (h.connect dest localId remoteId).inbox n = h.inbox n := by
  have hdropped : (h.dropHandle (h.inner.streams.lookup localId)).inbox n = h.inbox n := remove_inbox h localId n
  rw [← hdropped]
  unfold connect inbox
  dsimp only
  rw [List.map_append, List.getD_eq_getElem?_getD, List.getD_eq_getElem?_getD, List.getElem?_append]
  split
  · rfl
  · rename_i hlen
    rw [List.getElem?_eq_none (Nat.le_of_not_lt hlen)]
    cases n - ((h.dropHandle (h.inner.streams.lookup localId)).tasks.map _).length <;> rfl

theorem release_inbox (h : UdxSocket) (n : Nat) : h.release.inbox n = h.inbox n := by
  unfold release
  split
  · exact inbox_congr (map_queues h.tasks (f := fun u => u.call (.socketGone true true)) fun _ => rfl) n
  · rfl

theorem onDrop_inbox (h : UdxSocket) (n : Nat) : h.onDrop.inbox n = h.inbox n := by
  unfold onDrop
  split <;> rfl

/-- A step that is not a poll of the socket adds nothing to a channel. -/
theorem step_inbox_suffix (h : UdxSocket) {e : SocketEvent} (he : ∀ cx, e ≠ .poll cx) (n : Nat) :
    (h.step e).inbox n <:+ h.inbox n := by
  cases e with
  | poll cx => exact absurd rfl (he cx)
  | stream m c =>
      rw [step]
      split
      · exact callStream_inbox_suffix h m c n
      · exact List.suffix_rfl
  | connect dest localId remoteId =>
      rw [step]
      split
      · exact List.suffix_rfl
      · rw [connect_inbox]
  | send dest buf =>
      rw [step]
      split <;> exact List.suffix_rfl
  | recv waker =>
      rw [step, recv]
      split
      · exact List.suffix_rfl
      · split <;> exact List.suffix_rfl
  | clone =>
      rw [step]
      split <;> exact List.suffix_rfl
  | drop =>
      rw [step]
      split
      · exact List.suffix_rfl
      · rw [release_inbox, ← onDrop_inbox h n]
        exact List.suffix_rfl
  | tick elapsed =>
      have hticked := map_queues h.tasks (f := fun u => u.call (.tick elapsed)) fun _ => rfl
      rw [show (h.step (.tick elapsed)).inbox n = h.inbox n from inbox_congr hticked n]

/-- A step that is neither a poll of the socket nor of a `RecvFuture` leaves the user's side alone. -/
theorem step_userSide (h : UdxSocket) {e : SocketEvent} (hpoll : ∀ cx, e ≠ .poll cx)
    (hrecv : ∀ waker, e ≠ .recv waker) : (h.step e).userSide = h.userSide := by
  cases e with
  | poll cx => exact absurd rfl (hpoll cx)
  | recv waker => exact absurd rfl (hrecv waker)
  | stream m c =>
      rw [step, callStream]
      split
      · split <;> rfl
      · rfl
  | drop =>
      rw [step]
      split
      · rfl
      · unfold release onDrop
        split_ifs <;> rfl
  | tick elapsed => rfl
  | _ =>
      rw [step]
      split <;> rfl

/-- A poll of the socket leaves what receiving its datagrams leaves. -/
theorem poll_sameRouted {h : UdxSocket} (hrunning : h.isRunning = true) (cx : SocketContext) :
    SameInbound ((h.arrived (.poll cx)).foldl receive h) (h.step (.poll cx)) := by
  rw [arrived, if_pos hrunning, step, if_pos hrunning, ← recvLoop_eq]
  exact h.poll_sameInbound cx

/-- **One step and the channel of a stream.** -/
theorem step_inbox (n : Nat) (h : UdxSocket) (e : SocketEvent) :
    (h.inbox n ++ (h.routed e).filterMap fun entry => entry.2.toStream n) = takenBy n h e ++ (h.step e).inbox n := by
  by_cases hquiet : h.arrived e = [] ∧ (h.step e).inbox n <:+ h.inbox n
  · obtain ⟨harrived, hsuffix⟩ := hquiet
    have hdrop := List.suffix_iff_eq_drop.mp hsuffix
    rw [routed, harrived, takenBy]
    calc h.inbox n ++ [] = h.inbox n := List.append_nil _
      _ = _ := (List.take_append_drop ((h.inbox n).length - ((h.step e).inbox n).length) _).symm
      _ = _ := congrArg (_ ++ ·) hdrop.symm
  · cases e with
    | poll cx =>
        cases hrunning : h.isRunning with
        | false =>
            rw [arrived, step, hrunning] at hquiet
            exact absurd ⟨rfl, List.suffix_rfl⟩ hquiet
        | true =>
            have hbox := (poll_sameRouted hrunning cx).inbox n
            rw [receives_inbox] at hbox
            rw [takenBy, hbox, List.length_append, Nat.sub_add_eq, Nat.sub_self, Nat.zero_sub]
            rfl
    | _ => exact absurd ⟨rfl, h.step_inbox_suffix (fun _ => SocketEvent.noConfusion) n⟩ hquiet

theorem recv_of_nil {h : UdxSocket} (hdgrams : h.inner.recvDgrams = []) (waker : Waker) :
    h.recv waker = ({ h with inner := { h.inner with recvWaker := some waker } }, .pending) := by
  rw [recv, hdgrams]

theorem recv_of_cons {h : UdxSocket} {dgram : Dgram} {rest : List Dgram} (hdgrams : h.inner.recvDgrams = dgram :: rest)
    (waker : Waker) : h.recv waker = ({ h with inner := { h.inner with recvDgrams := rest } }, .ready dgram) := by
  rw [recv, hdgrams]

/-- What a step of the socket that is no poll of a future does on the user's side. -/
theorem step_userSide_eq (h : UdxSocket) {e : SocketEvent} (hrecv : ∀ waker, e ≠ .recv waker) :
    (h.step e).userSide =
      (h.inner.recvDgrams ++ accepted (h.routed e),
        if accepted (h.routed e) = [] then h.inner.recvWaker else none) := by
  by_cases hpoll : ∃ cx, e = .poll cx ∧ h.isRunning = true
  · obtain ⟨cx, rfl, hrunning⟩ := hpoll
    exact (poll_sameRouted hrunning cx).userSide.trans (receives_userSide _ _)
  · have hquiet : h.arrived e = [] ∧ (h.step e).userSide = h.userSide := by
      cases e with
      | poll cx =>
          have hdone : h.isRunning = false := by
            cases hrunning : h.isRunning with
            | false => rfl
            | true => exact absurd ⟨cx, rfl, hrunning⟩ hpoll
          rw [arrived, step, hdone]
          exact ⟨rfl, rfl⟩
      | recv waker => exact absurd rfl (hrecv waker)
      | _ =>
          exact ⟨rfl, h.step_userSide (fun _ => SocketEvent.noConfusion) fun _ => SocketEvent.noConfusion⟩
    rw [hquiet.2, routed, hquiet.1]
    exact Prod.ext (List.append_nil _).symm rfl

/-- **One step and the queue of the user's datagrams.** -/
theorem step_dgrams (h : UdxSocket) (e : SocketEvent) :
    h.inner.recvDgrams ++ accepted (h.routed e) = h.handedOut e ++ (h.step e).inner.recvDgrams := by
  by_cases hrecv : ∃ waker, e = .recv waker
  · obtain ⟨waker, rfl⟩ := hrecv
    refine (List.append_nil _).trans ?_
    rw [handedOut, step]
    split
    · rfl
    · cases hdgrams : h.inner.recvDgrams with
      | nil =>
          rw [recv_of_nil hdgrams]
          exact hdgrams.symm
      | cons dgram rest =>
          rw [recv_of_cons hdgrams]
          rfl
  · have hnone : h.handedOut e = [] := by
      cases e with
      | recv waker => exact absurd ⟨waker, rfl⟩ hrecv
      | _ => rfl
    rw [hnone]
    exact (congrArg Prod.fst (h.step_userSide_eq fun waker he => hrecv ⟨waker, he⟩)).symm

theorem step_dgrams_le (h : UdxSocket) (e : SocketEvent) (hle : h.inner.recvDgrams.length ≤ recvQueueMaxLen) :
    (h.step e).inner.recvDgrams.length ≤ recvQueueMaxLen := by
  by_cases hquiet : h.arrived e = []
  · have hsplit := congrArg List.length (h.step_dgrams e)
    rw [routed, hquiet, List.length_append, List.length_append] at hsplit
    change h.inner.recvDgrams.length + 0 = _ at hsplit
    omega
  · cases e with
    | poll cx =>
        have hrunning : h.isRunning = true := by
          by_contra hdone
          exact hquiet (if_neg hdone)
        have huser := congrArg Prod.fst (poll_sameRouted hrunning cx).userSide
        rw [show (h.step (.poll cx)).inner.recvDgrams = _ from huser]
        exact receives_dgrams_le _ hle
    | _ => exact absurd rfl hquiet

/-! ### Runs -/

theorem routes_arrivals (batch : List Arrival) (h : UdxSocket) : (routes batch h).map Prod.fst = batch := by
  induction batch generalizing h with
  | nil => rfl
  | cons arrival rest ih => exact congrArg (arrival :: ·) (ih _)

/-- **Demultiplexing is exact.** In every run, every datagram that the UDP socket has reported has one destination, in
the order of their arrival. What a stream has taken from its channel, followed by what is still there, are the packets
whose destination it was; what the futures were handed out, followed by what still waits, are the datagrams whose
destination was the user; and the queue of those is never longer than its limit. -/
theorem demultiplexing_exact (now batchSize : Nat) (events : List SocketEvent) :
    let h := UdxSocket.bind now batchSize
    let log := Runs.history step routed h events
    log.map Prod.fst = Runs.history step arrived h events ∧
      (∀ n, (log.filterMap fun entry => entry.2.toStream n) =
        Runs.history step (takenBy n) h events ++ (Runs.run step h events).inbox n) ∧
      (log.filterMap fun entry => entry.2.toDgrams) =
        Runs.history step handedOut h events ++ (Runs.run step h events).inner.recvDgrams ∧
      (Runs.run step h events).inner.recvDgrams.length ≤ recvQueueMaxLen := by
  intro h log
  refine ⟨?_, fun n => ?_, ?_, ?_⟩
  · rw [Runs.history_map]
    exact congrArg (Runs.history step · h events) (funext fun h => funext fun e => routes_arrivals _ h)
  · rw [Runs.history_filterMap]
    exact Runs.history_conserved (fun h => h.inbox n) (step_inbox n) h events
  · rw [Runs.history_filterMap]
    exact Runs.history_conserved (fun h : UdxSocket => h.inner.recvDgrams) step_dgrams h events
  · exact Runs.run_invariant (fun h : UdxSocket => h.inner.recvDgrams.length ≤ recvQueueMaxLen) step_dgrams_le
      (Nat.zero_le _) events

end UdxSocket

end AsyncUdx
