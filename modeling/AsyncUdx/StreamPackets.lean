import AsyncUdx.StreamChannel
import AsyncUdx.Segmentation

/-! What a stream hands to its socket. Every packet is encoded, names the stream of the peer and fits into a buffer of
the receiver; every set goes to the address of the peer; and nothing else is sent on the channel but the notice that
the stream is gone. -/

namespace AsyncUdx

open UdxStreamInner

variable {ok : IncomingPacket → Prop} {now : Nat}

/-! ### The packets -/

/-- A packet for the stream with the given id. -/
structure Addressed (remoteId : UInt32) (packet : Packet) : Prop where
  encoded : packet.Encoded
  streamId : packet.header.streamId = remoteId
  len_le : packet.len ≤ udxMtu

/-- Every packet on its way through a stream is for the stream of the peer. -/
structure AllAddressed (s : UdxStreamInner) : Prop where
  outgoing : ∀ k packet, s.outgoing.lookup k = some packet → Addressed s.remoteId packet
  queued : ∀ ref ∈ s.sendQueue, Addressed s.remoteId ref.deref
  sent : ∀ ref ∈ transmitted s.sendTx.events, Addressed s.remoteId ref.deref

theorem createHeader_typ_lt (s : UdxStreamInner) {typ : UInt32} (htyp : typ < 256) :
    (s.createHeader typ).typ < 256 := by
  unfold createHeader
  dsimp only
  split
  · apply UInt32.lt_iff_toNat_lt.mpr
    rw [UInt32.toNat_and]
    exact Nat.lt_of_le_of_lt Nat.and_le_left (UInt32.lt_iff_toNat_lt.mp htyp)
  · exact htyp

theorem createPacket_addressed (s : UdxStreamInner) {typ : UInt32} (htyp : typ < 256) {body : List UInt8}
    (hbody : body.length ≤ udxMaxDataSize) : Addressed s.remoteId (s.createPacket typ body) where
  encoded := Packet.new_encoded _ _ _ (createHeader_typ_lt s htyp) (by decide : (0 : Nat) < 256)
  streamId := rfl
  len_le := by
    rw [createPacket, Packet.new_len]
    calc
      udxHeaderSize + body.length ≤ udxHeaderSize + udxMaxDataSize := Nat.add_le_add_left hbody _
      _ ≤ udxMtu := by decide

theorem stateTyp_lt (error : Option UdxError) : (if error.isSome then 0 ||| udxHeaderEnd else 0 : UInt32) < 256 := by
  split <;> decide

theorem AllAddressed.queue {s : UdxStreamInner} (hs : AllAddressed s) {ref : PacketRef}
    (href : Addressed s.remoteId ref.deref) : ∀ other ∈ s.sendQueue ++ [ref], Addressed s.remoteId other.deref := by
  intro other hother
  rcases List.mem_append.mp hother with h | h
  · exact hs.queued other h
  · rw [List.mem_singleton.mp h]
    exact href

theorem AllAddressed.replace {s : UdxStreamInner} (hs : AllAddressed s) {i : UInt32} {packet : Packet}
    (hpacket : Addressed s.remoteId packet) :
    ∀ k other, (s.outgoing.insert i packet).lookup k = some other → Addressed s.remoteId other := by
  intro k other hlookup
  rcases AList.lookup_insert_eq_some hlookup with ⟨-, rfl⟩ | ⟨-, hold⟩
  · exact hpacket
  · exact hs.outgoing k other hold

theorem sendStatePacket_addressed {s : UdxStreamInner} (hs : AllAddressed s) : AllAddressed s.sendStatePacket :=
  ⟨hs.outgoing, hs.queue (createPacket_addressed s (stateTyp_lt s.error) (Nat.zero_le _)), hs.sent⟩

theorem terminate_addressed {s : UdxStreamInner} (error : UdxError) (hs : AllAddressed s) :
    AllAddressed (s.terminate error) := by
  have h := sendStatePacket_addressed (s := { s with
    error := some error
    ghost := { s.ghost with reasons := s.ghost.reasons ++ [error.kind] }
    state := s.state.closeLocal }) ⟨hs.outgoing, hs.queued, hs.sent⟩
  exact ⟨h.outgoing, h.queued, h.sent⟩

theorem ackPacket_addressed {s : UdxStreamInner} (i : UInt32) (hs : AllAddressed s) :
    AllAddressed (s.ackPacket now i) := by
  unfold ackPacket
  split
  · exact ⟨fun k other h => hs.outgoing k other (AList.lookup_erase_eq_some h).2, hs.queued, hs.sent⟩
  · exact hs

theorem Micro.addressed {s t : UdxStreamInner} (h : Micro ok now s t) (hs : AllAddressed s) : AllAddressed t := by
  cases h with
  | ackNext packet hok hlt => exact ackPacket_addressed _ ⟨hs.outgoing, hs.queued, hs.sent⟩
  | sack packet i hok htype => exact ackPacket_addressed i hs
  | park i packet hlookup hwaiting hmax hdue =>
      obtain ⟨hencoded, hid, hlen⟩ := hs.outgoing i packet hlookup
      exact ⟨hs.replace ⟨hencoded, hid, hlen⟩, hs.queued, hs.sent⟩
  | requeue i packet hlookup hwaiting hroom =>
      obtain ⟨hencoded, hid, hlen⟩ := hs.outgoing i packet hlookup
      exact ⟨hs.replace ⟨hencoded, hid, hlen⟩, hs.queue ⟨hencoded, hid, hlen⟩, hs.sent⟩
  | mark i packet sent hlookup =>
      obtain ⟨hencoded, hid, hlen⟩ := hs.outgoing i packet hlookup
      exact ⟨hs.replace ⟨hencoded, hid, hlen⟩, hs.queued, hs.sent⟩
  | finish packet hok htype => exact terminate_addressed _ ⟨hs.outgoing, hs.queued, hs.sent⟩
  | data packet hok htype => exact sendStatePacket_addressed ⟨hs.outgoing, hs.queued, hs.sent⟩
  | transmit rest sets hrest hsets =>
      refine ⟨hs.outgoing, fun ref href => hs.queued ref (hrest ref href), fun ref href => ?_⟩
      rcases mem_transmitted_append href with hold | ⟨set, hset, hmem⟩
      · exact hs.sent ref hold
      · exact hs.queued ref (hsets set hset ref hmem)
  | quiet | rearm | backOff | grow => exact ⟨hs.outgoing, hs.queued, hs.sent⟩

theorem Move.addressed {s t : UdxStreamInner} (h : Move ok now s t) (hs : AllAddressed s) : AllAddressed t := by
  cases h with
  | micro h => exact h.addressed hs
  | send body herror hbody hlen hroom =>
      obtain ⟨hencoded, hid, hfits⟩ := createPacket_addressed s (by decide : udxHeaderData < 256) hlen
      exact ⟨hs.replace ⟨hencoded, hid, hfits⟩, hs.queue ⟨hencoded, hid, hfits⟩, hs.sent⟩
  | terminate error => exact terminate_addressed error hs
  | complete hdone => exact ⟨hs.outgoing, hs.queued, fun ref href => hs.sent ref (complete_transmitted s ▸ href)⟩
  | readPart | readWhole | slot | gone => exact ⟨hs.outgoing, hs.queued, hs.sent⟩

theorem addressed_invariant : MoveInvariant UdxStream.anyPacket AllAddressed (fun _ => True) where
  connect := fun _ _ _ _ => ⟨fun k _ h => absurd (AList.mem_of_lookup h) (AList.notMem_empty k),
    fun _ h => absurd h List.not_mem_nil, fun _ h => absurd h List.not_mem_nil⟩
  back := fun _ _ _ _ _ => trivial
  move := fun _ _ _ h hs _ => h.addressed hs
  channel := fun _ _ hs => ⟨hs.outgoing, hs.queued, hs.sent⟩
  channel_back := fun _ _ _ => trivial

/-- Every packet a stream has handed to its socket is for the stream of the peer. -/
theorem UdxStream.Reachable.addressed {u : UdxStream} (hu : u.Reachable) {ref : PacketRef}
    (href : ref ∈ transmitted u.inner.sendTx.events) : Addressed u.inner.remoteId ref.deref :=
  (addressed_invariant.of_reachable hu).sent ref href

/-! ### The address of the peer -/

theorem ackPacket_remoteAddr (s : UdxStreamInner) (i : UInt32) : (s.ackPacket now i).remoteAddr = s.remoteAddr := by
  unfold ackPacket
  split <;> rfl

theorem Move.remoteAddr_eq {s t : UdxStreamInner} (h : Move ok now s t) : t.remoteAddr = s.remoteAddr := by
  cases h with
  | micro h =>
      cases h with
      | ackNext packet hok hlt => exact ackPacket_remoteAddr _ _
      | sack packet i hok htype => exact ackPacket_remoteAddr _ _
      | _ => rfl
  | _ => rfl

theorem UdxStream.step_remoteAddr (u : UdxStream) (e : Event) :
    (u.step e).inner.remoteAddr = u.inner.remoteAddr :=
  (u.step_advance_any e).invariant (fun s => s.remoteAddr = u.inner.remoteAddr)
    (fun _ _ h hs => h.remoteAddr_eq.trans hs) (fun _ _ => id) rfl

/-! ### The channel -/

/-- What a stream sends on its channel: sets of packets to the address of the peer, and that it is gone. -/
def EventOutgoing.OfStream (remoteAddr : SocketAddr) : EventOutgoing → Prop
  | .transmit set => set.dest = remoteAddr
  | .transmitDgram _ => False
  | .streamDropped _ => True

def AllOfStream (s : UdxStreamInner) : Prop := ∀ event ∈ s.sendTx.events, event.OfStream s.remoteAddr

theorem AllOfStream.append {s : UdxStreamInner} (hs : AllOfStream s) {event : EventOutgoing}
    (hevent : event.OfStream s.remoteAddr) : AllOfStream (s.sendEvent event) := by
  intro other hother
  rcases List.mem_append.mp hother with hold | hnew
  · exact hs other hold
  · rw [List.mem_singleton.mp hnew]
    exact hevent

theorem transmitLoop_ofStream (limit : Nat) (pending : List PacketRef) (segmentSize : Nat) (queue : List PacketRef)
    (s : UdxStreamInner) (hs : AllOfStream s) : AllOfStream (transmitLoop limit pending segmentSize queue s).1 := by
  induction pending generalizing segmentSize queue s with
  | nil =>
      rw [transmitLoop]
      split
      · exact hs
      · exact hs.append rfl
  | cons packet rest ih =>
      rw [transmitLoop]
      dsimp only
      split_ifs with hflush hempty hclosed
      · exact ih _ _ _ hs
      · exact hs
      · exact ih _ _ _ (AllOfStream.append (s := { s with sendQueue := rest }) hs rfl)
      · exact ih _ _ _ hs

theorem ofStream_callInvariant (now : Nat) : CallInvariant now AllOfStream where
  push := fun _ _ _ _ _ _ => id
  blocked := fun _ _ _ _ _ _ => id
  readPart := fun _ _ _ => id
  readWhole := fun _ _ => id
  readWaker := fun _ _ => id
  terminate := fun _ _ => id
  slot := fun _ _ _ => id
  complete := fun _ hs => hs.append trivial
  mark := fun _ _ _ _ _ => id
  gone := fun _ _ _ => id

/-- The fields that concern what a stream sends. -/
def UdxStreamInner.outlet (s : UdxStreamInner) : SendChannel × SocketAddr := (s.sendTx, s.remoteAddr)

theorem AllOfStream.of_eq {s t : UdxStreamInner} (hs : AllOfStream s) (h : t.outlet = s.outlet) : AllOfStream t := by
  have hsend : t.sendTx = s.sendTx := congrArg Prod.fst h
  have haddr : t.remoteAddr = s.remoteAddr := congrArg Prod.snd h
  unfold AllOfStream
  rw [hsend, haddr]
  exact hs

theorem pollIncoming_outlet (s : UdxStreamInner) (cx : Context) : (s.pollIncoming cx).1.outlet = s.outlet := by
  apply pollIncoming_frame outlet (fun _ _ => rfl) (fun _ _ => rfl)
  · exact fun s i => congrArg₂ Prod.mk (ackPacket_sendTx s i) (ackPacket_remoteAddr s i)
  all_goals intros; rfl

/-- Only the transmission sends anything. -/
theorem pollDrive_ofStream {s : UdxStreamInner} (cx : Context) (hs : AllOfStream s) :
    AllOfStream (s.pollDrive cx).1 := by
  refine pollDrive_stages AllOfStream s cx (hs.of_eq (pollIncoming_outlet s cx)) ?_ ?_ ?_
  · intro t ht
    unfold pollCheckTimeouts
    split_ifs
    · exact ht
    · exact ht
    · exact ht.of_eq (timeoutLoop_frame outlet (fun _ _ _ _ => rfl) _ _)
  · exact fun t ht => ht.of_eq (flushLoop_frame outlet (fun _ _ _ _ => rfl) _ t)
  · exact fun t ht => transmitLoop_ofStream _ _ _ _ t ht

theorem UdxStream.Reachable.ofStream {u : UdxStream} (hu : u.Reachable) : AllOfStream u.inner := by
  refine UdxStream.Reachable.invariant (fun u => AllOfStream u.inner) ?_ ?_ hu
  · exact fun _ _ _ _ _ h => absurd h List.not_mem_nil
  · intro u e hs
    exact u.step_invariant e (ofStream_callInvariant u.clock) (fun _ _ _ => id) (fun _ _ => id)
      (fun cx => pollDrive_ofStream cx hs) hs

end AsyncUdx
