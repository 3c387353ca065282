import AsyncUdx.Pair

/-! Delivery in order. Whatever the network does, a packet that reaches a stream comes from the data packets
its peer has created, so every payload the stream keeps is the payload created under that number. What the
stream has read is then a prefix of what its peer has accepted from its writers. -/

namespace AsyncUdx

open Relation UdxStreamInner Reassembly

variable {ok : IncomingPacket → Prop} {now : Nat}

/-! ### Packets of a peer -/

/-- The payload of the `n`-th data packet created. -/
def bodyAt (created : List Packet) (n : Nat) : Option (List UInt8) := created[n]?.map Packet.body

theorem bodyAt_mono {created created' : List Packet} (h : created <+: created') {n : Nat} {bytes : List UInt8}
    (hbody : bodyAt created n = some bytes) : bodyAt created' n = some bytes := by
  obtain ⟨original, horiginal, hbytes⟩ := Option.map_eq_some_iff.mp hbody
  obtain ⟨hlt, rfl⟩ := List.getElem?_eq_some_iff.mp horiginal
  exact Option.map_eq_some_iff.mpr ⟨_, List.prefix_iff_getElem?.mp h _ hlt, hbytes⟩

theorem lt_of_bodyAt {created : List Packet} {n : Nat} {bytes : List UInt8} (h : bodyAt created n = some bytes) :
    n < created.length := by
  obtain ⟨original, horiginal, -⟩ := Option.map_eq_some_iff.mp h
  exact (List.getElem?_eq_some_iff.mp horiginal).1

/-- A packet of a peer that has created these data packets. -/
structure FromPeer (created : List Packet) (packet : IncomingPacket) : Prop where
  fresh : freshPacket packet
  plain : packet.hasType udxHeaderSack = false
  data : packet.hasType udxHeaderData = true → bodyAt created packet.seq.toNat = some packet.buf

theorem FromPeer.mono {created created' : List Packet} (h : created <+: created') {packet : IncomingPacket}
    (hpacket : FromPeer created packet) : FromPeer created' packet :=
  ⟨hpacket.fresh, hpacket.plain, fun htype => bodyAt_mono h (hpacket.data htype)⟩

/-- What a stream emits has bytes that decode to its header. -/
theorem Emits.encoded {v : EmitSide} (hv : Emits v) {packet : Packet} (hpacket : Emitted v.created packet) :
    packet.Encoded := by
  rcases hpacket with ⟨original, horiginal, hheader, hbuf⟩ | hstate
  · obtain ⟨n, hn⟩ := List.mem_iff_getElem?.mp horiginal
    rw [Packet.Encoded, hheader, hbuf]
    exact (hv.created n original hn).encoded
  · exact hstate.encoded

/-- What a stream emits arrives as a packet of that stream, with the same header. -/
theorem Emits.fromPeer {v : EmitSide} (hv : Emits v) {packet : Packet} (hpacket : Emitted v.created packet)
    {source : SocketAddr} {incoming : IncomingPacket}
    (hdecode : IncomingPacket.ofDatagram source packet.buf.asSlice = .ok incoming) :
    FromPeer v.created incoming ∧ incoming.header = packet.header := by
  rw [IncomingPacket.ofDatagram_encoded (hv.encoded hpacket)] at hdecode
  cases hdecode
  refine ⟨?_, rfl⟩
  rcases hpacket with ⟨original, horiginal, hheader, hbuf⟩ | hstate
  · obtain ⟨n, hn⟩ := List.mem_iff_getElem?.mp horiginal
    have hdata := hv.created n original hn
    refine ⟨rfl, ?_, fun _ => ?_⟩
    · rw [IncomingPacket.hasType, hheader, hdata.typ]
      decide
    · rw [bodyAt, IncomingPacket.seq, hheader, hdata.seq, hn, Option.map_some, Packet.body, Packet.body, hbuf]
  · refine ⟨rfl, ?_, fun htype => ?_⟩
    · rw [IncomingPacket.hasType]
      rcases hstate.typ with h | h <;> rw [h] <;> decide
    · rw [IncomingPacket.hasType] at htype
      rcases hstate.typ with h | h <;> rw [h] at htype <;> exact absurd htype (by decide)

/-! ### What a stream keeps of its peer -/

/-- A stream has received only what its peer has created. -/
structure Receives (created : List Packet) (v : RecvSide) : Prop where
  reassembled : Reassembled v
  received_lt : ∀ k ∈ v.received, k.toNat < created.length
  kept_eq : ∀ k bytes, v.kept.lookup k = some bytes → bodyAt created k.toNat = some bytes

theorem Receives.mono {created created' : List Packet} (h : created <+: created') {v : RecvSide}
    (hv : Receives created v) : Receives created' v where
  reassembled := hv.reassembled
  received_lt := fun k hk => Nat.lt_of_lt_of_le (hv.received_lt k hk) h.length_le
  kept_eq := fun k bytes hlookup => bodyAt_mono h (hv.kept_eq k bytes hlookup)

/-- The payload under a number that was received is the one created under it. -/
theorem Receives.payload_eq {created : List Packet} {v : RecvSide} (hv : Receives created v) {k : UInt32}
    (hk : k ∈ v.received) : bodyAt created k.toNat = some (v.payload k.toNat) := by
  obtain ⟨bytes, hbytes⟩ := AList.exists_lookup_of_mem ((hv.reassembled.kept_iff k).mpr hk)
  rw [hv.kept_eq k bytes hbytes, RecvSide.payload, UInt32.ofNat_toNat, hbytes, Option.getD_some]

theorem Receives.payload_lt {created : List Packet} {v : RecvSide} (hv : Receives created v) :
    ∀ n < v.readCursor.toNat, (created.map Packet.body)[n]? = some (v.payload n) := by
  intro n hn
  have hcursor := UInt32.le_iff_toNat_le.mp hv.reassembled.cursor_le
  have hack := v.ack.toNat_lt
  have hnat := Counter.toNat_ofNat (show n < 2 ^ 32 by omega)
  have hmem : UInt32.ofNat n ∈ v.received :=
    hv.reassembled.least.2 _ (UInt32.lt_iff_toNat_lt.mpr (by rw [hnat]; omega))
  have h := hv.payload_eq hmem
  rw [hnat] at h
  rw [List.getElem?_map]
  exact h

theorem Receives.payload_cursor {created : List Packet} {v : RecvSide} (hv : Receives created v)
    (hmem : v.readCursor ∈ v.incoming) :
    (created.map Packet.body)[v.readCursor.toNat]? = some (v.payload v.readCursor.toNat) := by
  rw [List.getElem?_map]
  exact hv.payload_eq ((hv.reassembled.keys_iff _).mp hmem).1

/-- What was read is a beginning of what was created. -/
theorem Receives.delivered_prefix {created : List Packet} {v : RecvSide} (hv : Receives created v) :
    (v.delivered.map Prod.snd).flatten <+: (created.map Packet.body).flatten := by
  rw [hv.reassembled.bytes_eq]
  refine consumed_prefix hv.payload_lt ?_
  by_cases hmem : v.readCursor ∈ v.incoming
  · exact Or.inr (hv.payload_cursor hmem)
  · left
    rw [RecvSide.offset, AList.lookup_eq_none.mpr hmem]
    rfl

theorem Receives.ack_le {created : List Packet} {v : RecvSide} (hv : Receives created v) :
    v.ack.toNat ≤ created.length := by
  by_contra hlt
  have hack := v.ack.toNat_lt
  have hnat := Counter.toNat_ofNat (show created.length < 2 ^ 32 by omega)
  have hmem : UInt32.ofNat created.length ∈ v.received :=
    hv.reassembled.least.2 _ (UInt32.lt_iff_toNat_lt.mpr (by rw [hnat]; omega))
  have h := hv.received_lt _ hmem
  rw [hnat] at h
  omega

/-- The largest number is never received. -/
theorem last_notMem {created : List Packet} (hfew : created.length < 2 ^ 32) {received : List UInt32}
    (h : ∀ k ∈ received, k.toNat < created.length) : (0xffffffff : UInt32) ∉ received := by
  intro hmem
  have hlt := h _ hmem
  rw [show (0xffffffff : UInt32).toNat = 2 ^ 32 - 1 from rfl] at hlt
  omega

theorem data_receives {created : List Packet} (hfew : created.length < 2 ^ 32) {v : RecvSide}
    (hv : Receives created v) {packet : IncomingPacket} (hfresh : freshPacket packet)
    (hbody : bodyAt created packet.seq.toNat = some packet.buf) :
    Receives created { v.file packet with ack := advanceAck (v.file packet).incoming (2 ^ 32) v.ack } := by
  have hreceived : ∀ k ∈ v.received ++ [packet.seq], k.toNat < created.length := by
    intro k hk
    rcases List.mem_append.mp hk with hk | hk
    · exact hv.received_lt k hk
    · rw [List.mem_singleton] at hk
      exact hk ▸ lt_of_bodyAt hbody
  refine ⟨data_reassembled hv.reassembled hfresh (last_notMem hfew hreceived), hreceived, ?_⟩
  intro k bytes hlookup
  change (if v.ack ≤ packet.seq then v.kept.insert packet.seq packet.buf else v.kept).lookup k = some bytes at hlookup
  split at hlookup
  · rcases AList.lookup_insert_eq_some hlookup with ⟨rfl, rfl⟩ | ⟨-, hlookup⟩
    · exact hbody
    · exact hv.kept_eq k bytes hlookup
  · exact hv.kept_eq k bytes hlookup

theorem Micro.receives {created : List Packet} (hfew : created.length < 2 ^ 32) {s t : UdxStreamInner}
    (h : Micro (FromPeer created) now s t) (hs : Receives created s.recvSide) : Receives created t.recvSide := by
  cases h with
  | ackNext packet hok hlt =>
      rw [UdxStreamInner.ackNext, ackPacket_recvSide]
      exact hs
  | sack packet i hok htype =>
      rw [ackPacket_recvSide]
      exact hs
  | data packet hok htype => exact data_receives hfew hs hok.fresh (hok.data htype)
  | _ => exact hs

theorem Move.receives {created : List Packet} (hfew : created.length < 2 ^ 32) {s t : UdxStreamInner}
    (h : Move (FromPeer created) now s t) (hs : Receives created s.recvSide) : Receives created t.recvSide := by
  cases h with
  | micro h => exact h.receives hfew hs
  | readPart packet remaining hlookup hlong =>
      exact ⟨readPart_reassembled hs.reassembled hlookup hlong, hs.received_lt, hs.kept_eq⟩
  | readWhole packet hlookup =>
      exact ⟨readWhole_reassembled hs.reassembled hlookup, hs.received_lt, hs.kept_eq⟩
  | _ => exact hs

theorem receives_invariant {created : List Packet} (hfew : created.length < 2 ^ 32) :
    MoveInvariant (FromPeer created) (fun s => Receives created s.recvSide) (fun _ => True) where
  connect := fun _ _ _ _ =>
    { reassembled := connect_reassembled _ _ _ _
      received_lt := fun _ h => absurd h List.not_mem_nil
      kept_eq := fun k _ h => absurd (AList.mem_of_lookup h) (AList.notMem_empty k) }
  back := fun _ _ _ _ _ => trivial
  move := fun _ _ _ h hs _ => h.receives hfew hs
  channel := fun _ _ => id
  channel_back := fun _ _ _ => trivial

/-! ### What a stream accepts -/

/-- The payloads of the data packets created, one after the other. -/
def createdBytes (s : UdxStreamInner) : List UInt8 := (s.ghost.created.map Packet.body).flatten

theorem pushData_createdBytes (s : UdxStreamInner) (body : List UInt8) :
    createdBytes (s.pushData now body) = createdBytes s ++ body := by
  have hbody : (s.createPacket udxHeaderData body).body = body := Packet.new_body _ _ _
  change ((s.ghost.created ++ [_]).map Packet.body).flatten = _
  rw [List.map_append, List.flatten_append, List.map_singleton, List.flatten_singleton]
  exact congrArg (createdBytes s ++ ·) hbody

/-- The loop of a write creates packets for what it reports as written. -/
theorem writeLoop_createdBytes (now : Nat) (waker : Waker) (buf : List UInt8) (fuel written : Nat)
    (s : UdxStreamInner) :
    ∃ n, createdBytes (writeLoop now waker buf fuel written s).1 = createdBytes s ++ (buf.drop written).take n ∧
      ((writeLoop now waker buf fuel written s).2 = .ready (.ok (written + n)) ∨
        (writeLoop now waker buf fuel written s).2 = .pending ∧ n = 0 ∧ written = 0) := by
  have hnone : ∀ s : UdxStreamInner, createdBytes s = createdBytes s ++ (buf.drop written).take 0 :=
    fun _ => (List.append_nil _).symm
  induction fuel generalizing written s with
  | zero => exact ⟨0, hnone s, Or.inl rfl⟩
  | succ fuel ih =>
      rw [writeLoop]
      split
      · exact ⟨0, hnone s, Or.inl rfl⟩
      · generalize hchunk : (buf.drop written).take udxMaxDataSize = chunk
        have hcases := sendDataPacket_cases now s (buf.drop written)
        rw [hchunk] at hcases
        rcases hcases with h | ⟨-, h⟩ <;> rw [h] <;> dsimp only
        · rw [if_pos rfl]
          split
          · exact ⟨0, hnone s, Or.inr ⟨rfl, rfl, ‹_›⟩⟩
          · exact ⟨0, hnone s, Or.inl rfl⟩
        · have hlen : chunk.length ≠ 0 := by
            rw [← hchunk, List.length_take, List.length_drop, udxMaxDataSize]
            omega
          have hfront : chunk = (buf.drop written).take chunk.length := by
            rw [← hchunk]
            exact List.prefix_iff_eq_take.mp (List.take_prefix _ _)
          rw [if_neg hlen]
          -- the rest of the buffer is written by the rounds that follow
          obtain ⟨n, hbytes, hresult⟩ := ih (written + chunk.length) (s.pushData now chunk)
            fun _ => (List.append_nil _).symm
          refine ⟨chunk.length + n, ?_, ?_⟩
          · rw [hbytes, pushData_createdBytes, List.append_assoc, List.take_add, List.drop_drop, ← hfront]
          · rcases hresult with h | ⟨-, -, hzero⟩
            · rw [h, Nat.add_assoc]
              exact Or.inl rfl
            · omega

/-- **A write creates packets for the bytes it says it took**, and for no others. -/
theorem pollWrite_createdBytes (s : UdxStreamInner) (waker : Waker) (buf : List UInt8) :
    createdBytes (s.pollWrite now waker buf).1 = createdBytes s ++ takenBytes buf (s.pollWrite now waker buf).2 := by
  unfold pollWrite
  split
  · exact (List.append_nil _).symm
  · split
    · exact (List.append_nil _).symm
    · obtain ⟨n, hbytes, hresult⟩ := writeLoop_createdBytes now waker buf (buf.length + 1) 0 s
      rw [hbytes, List.drop_zero]
      rcases hresult with h | ⟨h, rfl, -⟩ <;> rw [h]
      · rw [Nat.zero_add]
        rfl
      · rfl

theorem Micro.createdBytes_eq {s t : UdxStreamInner} (h : Micro ok now s t) : createdBytes t = createdBytes s := by
  rw [createdBytes, h.created_eq, createdBytes]

/-- The bytes accepted so far are the payloads created so far. -/
theorem step_accepted {u : UdxStream} (e : Event) (hu : u.accepted = createdBytes u.inner) :
    (u.step e).accepted = createdBytes (u.step e).inner := by
  cases e with
  | recv header buf source => exact hu
  | call c =>
      change (u.call c).accepted = createdBytes (u.call c).inner
      by_cases hc : ∃ waker buf, c = .write waker buf
      · obtain ⟨waker, buf, rfl⟩ := hc
        rw [UdxStream.call]
        split
        · exact hu
        · exact (congrArg (· ++ _) hu).trans (pollWrite_createdBytes u.inner waker buf).symm
      · have hne : ∀ waker buf, c ≠ .write waker buf := fun waker buf h => hc ⟨waker, buf, h⟩
        rw [UdxStream.call_accepted u c hne, hu]
        exact (UdxStream.call_frame createdBytes u c (fun _ _ _ h => h.createdBytes_eq) (fun _ _ => rfl)
          (fun _ _ _ => rfl) (fun waker buf h => absurd h (hne waker buf))
          (fun _ _ _ => ⟨fun _ _ _ => rfl, fun _ _ => rfl⟩) (fun _ _ => rfl) fun _ _ _ _ _ _ => rfl).symm

/-! ### The flow from one stream to the other -/

/-- What one stream has sent and the other received. -/
structure Flow (u v : UdxStream) : Prop where
  emits : Emits u.inner.emitSide
  receives : Receives u.inner.ghost.created v.inner.recvSide
  channel : ∀ packet ∈ v.inner.recvRx.queue, FromPeer u.inner.ghost.created packet
  accepted : u.accepted = createdBytes u.inner

/-- `ack` does not run ahead of what the peer has created. -/
theorem Flow.ack_le_seq {u v : UdxStream} (h : Flow u v) : v.inner.ack ≤ u.inner.seq := by
  rw [UInt32.le_iff_toNat_le, show u.inner.seq.toNat = _ from h.emits.seq_eq]
  exact h.receives.ack_le

theorem Advance.created_prefix {s t : UdxStreamInner} (h : Advance ok now s t) :
    s.ghost.created <+: t.ghost.created := by
  cases h with
  | moves h => exact h.created_prefix
  | arrive packet hok => exact List.prefix_rfl

/-- A step of the sender. -/
theorem Flow.near {u v : UdxStream} (h : Flow u v) (e : Event) (hfew : FewCreated (u.step e).inner) :
    Flow (u.step e) v := by
  have hadvance := u.step_advance_any e
  have hprefix := hadvance.created_prefix
  exact ⟨emits_invariant.advance hadvance h.emits hfew, h.receives.mono hprefix,
    fun packet hpacket => (h.channel packet hpacket).mono hprefix, step_accepted e h.accepted⟩

/-- A step of the receiver. -/
theorem Flow.far {u v : UdxStream} (h : Flow u v) (e : Event)
    (harrive : ∀ header buf source, e = .recv header buf source →
      FromPeer u.inner.ghost.created ⟨header, buf, 0, source⟩)
    (hfew : FewCreated u.inner) : Flow u (v.step e) := by
  have hadvance : Advance (FromPeer u.inner.ghost.created) v.clock v.inner (v.step e).inner :=
    v.step_advance e h.channel harrive
  exact ⟨h.emits, (receives_invariant hfew).advance hadvance h.receives trivial, hadvance.queue h.channel,
    h.accepted⟩

theorem Flow.arrives {u v : UdxStream} (h : Flow u v) {packet : IncomingPacket} (harrives : Arrives u v packet) :
    FromPeer u.inner.ghost.created packet := by
  obtain ⟨ref, href, hdecode⟩ := harrives
  exact (h.emits.fromPeer (h.emits.sent ref href) hdecode).1

theorem Link.flow {u v u' v' : UdxStream} (hlink : Link u v u' v') (h : Flow u v) (hfew : FewCreated u'.inner) :
    Flow u' v' := by
  cases hlink with
  | stay => exact h
  | near c => exact h.near _ hfew
  | far c => exact h.far _ (fun _ _ _ heq => by cases heq) hfew
  | there packet harrives =>
      have hpacket := h.arrives harrives
      refine h.far _ (fun header buf source heq => ?_) hfew
      cases heq
      exact ⟨rfl, hpacket.plain, hpacket.data⟩
  | back packet harrives => exact h.near _ hfew

theorem Link.fewCreated {u v u' v' : UdxStream} (hlink : Link u v u' v') (hfew : FewCreated u'.inner) :
    FewCreated u.inner := by
  cases hlink with
  | near c => exact accounted_invariant.advance_back (u.step_advance_any _) hfew
  | back packet harrives => exact accounted_invariant.advance_back (u.step_advance_any _) hfew
  | _ => exact hfew

theorem connect_flow (start : Nat) (dest : SocketAddr) (remoteId localId : UInt32) (start' : Nat)
    (dest' : SocketAddr) (remoteId' localId' : UInt32) :
    Flow (.connect start dest remoteId localId) (.connect start' dest' remoteId' localId') where
  emits := emits_invariant.connect _ _ _ _
  receives := (receives_invariant (by decide : ([] : List Packet).length < 2 ^ 32)).connect _ _ _ _
  channel := fun _ h => absurd h List.not_mem_nil
  accepted := rfl

theorem Pair.Reachable.flow {p : Pair} (hp : p.Reachable) (x : Side) (hfew : FewCreated (p.peer x).inner) :
    Flow (p.peer x) (p.peer x.other) :=
  hp.invariant x Flow (fun u _ => FewCreated u.inner) connect_flow (fun _ _ _ _ => Link.fewCreated)
    (fun _ _ _ _ => Link.flow) hfew

/-- **Reliable delivery in order.** In every run of two connected streams, what one side has read is a prefix
of what the other side has accepted, whatever the network loses, duplicates or reorders. -/
theorem delivered_prefix_accepted {p : Pair} (hp : p.Reachable) (x : Side)
    (hfew : FewCreated (p.peer x).inner) :
    (p.peer x.other).deliveredBytes <+: (p.peer x).accepted := by
  have hflow := hp.flow x hfew
  rw [hflow.accepted]
  exact hflow.receives.delivered_prefix

/-- Two writes whose packets arrive in the wrong order and twice, and a read that cuts the second one. -/
def reorderedRun : List PairEvent :=
  [.call .a (.write 0 [1, 2, 3]), .call .a (.write 0 [4, 5]), .call .a (.poll 0 0 10 1), .deliver .a 1,
    .call .b (.poll 0 0 10 1), .call .b (.read 0 8), .deliver .a 0, .deliver .a 1, .call .b (.poll 0 0 10 1),
    .call .b (.read 0 4)]

theorem delivered_prefix_accepted_reordered :
    let p := Runs.run Pair.step (.connect 0 0 ⟨.v4 0, 1⟩ ⟨.v4 0, 2⟩ 1 2) reorderedRun
    FewCreated (p.peer .a).inner ∧ (p.peer .b).deliveredBytes = [1, 2, 3, 4] ∧
      (p.peer .b).deliveredBytes <+: (p.peer .a).accepted :=
  ⟨by decide, by decide,
    delivered_prefix_accepted ⟨0, 0, ⟨.v4 0, 1⟩, ⟨.v4 0, 2⟩, 1, 2, reorderedRun, rfl⟩ .a (by decide)⟩

end AsyncUdx
