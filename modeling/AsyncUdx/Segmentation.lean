import AsyncUdx.PacketLoad
import AsyncUdx.Reassembly
import AsyncUdx.Socket

/-! From packet sets to datagrams. A stream groups the packets of its queue by size; the socket puts the bytes of a
set one after the other, without the packets that were acknowledged in the meantime, and the UDP layer cuts them
apart again. The segment size is dropped for a set of one packet, whether that packet is left out or not, so an
acknowledged packet that is alone in its set is sent as an empty datagram. -/

namespace AsyncUdx

open Relation UdxStreamInner Reassembly

variable {ok : IncomingPacket → Prop} {now : Nat}

/-! ### Groups of packets of one size -/

/-- A set with packets, all of the size of a segment. -/
structure Grouped (set : PacketSet) : Prop where
  packets_ne : set.packets ≠ []
  size_eq : ∃ size, set.segmentSize = some size ∧ ∀ ref ∈ set.packets, ref.deref.len = size

/-- Every set among the events is grouped. -/
def AllGrouped (events : List EventOutgoing) : Prop := ∀ set, .transmit set ∈ events → Grouped set

theorem AllGrouped.append {events : List EventOutgoing} (h : AllGrouped events) {set : PacketSet} (hset : Grouped set) :
    AllGrouped (events ++ [.transmit set]) := by
  intro other hother
  rcases List.mem_append.mp hother with hold | hnew
  · exact h other hold
  · cases List.mem_singleton.mp hnew
    exact hset

theorem grouped_new (dest : SocketAddr) {queue : List PacketRef} {size : Nat} (hne : queue ≠ [])
    (hsize : ∀ ref ∈ queue, ref.deref.len = size) : Grouped (PacketSet.new dest queue size) :=
  ⟨hne, size, rfl, hsize⟩

/-- The packets that are collected are all of the current size, so every set that is sent is grouped. -/
theorem transmitLoop_grouped (limit : Nat) (pending : List PacketRef) (segmentSize : Nat) (queue : List PacketRef)
    (s : UdxStreamInner) (hqueue : ∀ ref ∈ queue, ref.deref.len = segmentSize) (hs : AllGrouped s.sendTx.events) :
    AllGrouped (transmitLoop limit pending segmentSize queue s).1.sendTx.events := by
  induction pending generalizing segmentSize queue s with
  | nil =>
      rw [transmitLoop]
      split
      · exact hs
      · rename_i hne
        exact hs.append (grouped_new _ (by simp_all) hqueue)
  | cons packet rest ih =>
      have hsingle : ∀ ref ∈ [packet], ref.deref.len = packet.deref.buf.len := by
        intro ref href
        rw [List.mem_singleton.mp href]
        rfl
      rw [transmitLoop]
      dsimp only
      split_ifs with hflush hempty hclosed
      · exact ih _ _ _ hsingle hs
      · exact hs
      · exact ih _ _ _ hsingle (hs.append (grouped_new _ (by simpa using hempty) hqueue))
      · refine ih _ _ _ (fun ref href => ?_) hs
        rcases List.mem_append.mp href with hold | hnew
        · exact hqueue ref hold
        · rw [List.mem_singleton.mp hnew]
          exact not_not.mp fun h => hflush (Or.inl h)

theorem grouped_callInvariant (now : Nat) : CallInvariant now (fun s => AllGrouped s.sendTx.events) where
  push := fun _ _ _ _ _ _ => id
  blocked := fun _ _ _ _ _ _ => id
  readPart := fun _ _ _ => id
  readWhole := fun _ _ => id
  readWaker := fun _ _ => id
  terminate := fun _ _ => id
  slot := fun _ _ _ => id
  complete := fun s hs set hset => by
    have hmem : .transmit set ∈ s.sendTx.events ++ [.streamDropped s.localId] := hset
    rcases List.mem_append.mp hmem with hold | hnew
    · exact hs set hold
    · cases List.mem_singleton.mp hnew
  mark := fun _ _ _ _ _ => id
  gone := fun _ _ _ => id

/-- Every packet set a stream has handed to its socket is grouped. -/
theorem UdxStream.Reachable.grouped {u : UdxStream} (hu : u.Reachable) : AllGrouped u.inner.sendTx.events := by
  refine UdxStream.Reachable.invariant (fun u => AllGrouped u.inner.sendTx.events)
    (fun _ _ _ _ set hset => absurd hset List.not_mem_nil) (fun u e hs => ?_) hu
  have hkept := u.step_invariant e (grouped_callInvariant u.clock) (fun _ _ _ => id) (fun _ _ => id)
  refine hkept (fun cx => ?_) hs
  exact pollDrive_sendTx (fun tx => AllGrouped tx.events) { u.inner with driveWaker := none } cx hs fun t ht =>
    transmitLoop_grouped _ _ _ _ t (fun _ h => absurd h List.not_mem_nil) ht

/-! ### Every packet has a header -/

/-- Every packet on its way through a stream is at least a header. -/
structure Headed (s : UdxStreamInner) : Prop where
  outgoing : ∀ k packet, s.outgoing.lookup k = some packet → 0 < packet.len
  queued : ∀ ref ∈ s.sendQueue, 0 < ref.deref.len
  sent : ∀ ref ∈ transmitted s.sendTx.events, 0 < ref.deref.len

theorem createPacket_len_pos (s : UdxStreamInner) (typ : UInt32) (body : List UInt8) :
    0 < (s.createPacket typ body).len := by
  rw [createPacket, Packet.new_len]
  exact Nat.add_pos_left (by decide) _

theorem Headed.queue {s : UdxStreamInner} (hs : Headed s) {ref : PacketRef} (href : 0 < ref.deref.len) :
    ∀ other ∈ s.sendQueue ++ [ref], 0 < other.deref.len := by
  intro other hother
  rcases List.mem_append.mp hother with h | h
  · exact hs.queued other h
  · exact List.mem_singleton.mp h ▸ href

theorem Headed.replace {s : UdxStreamInner} (hs : Headed s) {i : UInt32} {packet : Packet} (hpacket : 0 < packet.len) :
    ∀ k other, (s.outgoing.insert i packet).lookup k = some other → 0 < other.len := by
  intro k other hlookup
  rcases AList.lookup_insert_eq_some hlookup with ⟨-, rfl⟩ | ⟨-, hold⟩
  · exact hpacket
  · exact hs.outgoing k other hold

theorem ackPacket_headed {s : UdxStreamInner} (i : UInt32) (hs : Headed s) : Headed (s.ackPacket now i) := by
  unfold ackPacket
  split
  · exact ⟨fun k other h => hs.outgoing k other (AList.lookup_erase_eq_some h).2, hs.queued, hs.sent⟩
  · exact hs

theorem Micro.headed {s t : UdxStreamInner} (h : Micro ok now s t) (hs : Headed s) : Headed t := by
  cases h with
  | ackNext packet hok hlt => exact ackPacket_headed _ ⟨hs.outgoing, hs.queued, hs.sent⟩
  | sack packet i hok htype => exact ackPacket_headed i hs
  | park i packet hlookup hwaiting hmax hdue =>
      exact ⟨hs.replace (hs.outgoing i packet hlookup), hs.queued, hs.sent⟩
  | requeue i packet hlookup hwaiting hroom =>
      have hlen := hs.outgoing i packet hlookup
      exact ⟨hs.replace hlen, hs.queue hlen, hs.sent⟩
  | mark i packet sent hlookup => exact ⟨hs.replace (hs.outgoing i packet hlookup), hs.queued, hs.sent⟩
  | finish packet hok htype => exact ⟨hs.outgoing, hs.queue (createPacket_len_pos _ _ _), hs.sent⟩
  | data packet hok htype => exact ⟨hs.outgoing, hs.queue (createPacket_len_pos _ _ _), hs.sent⟩
  | transmit rest sets hrest hsets =>
      refine ⟨hs.outgoing, fun ref href => hs.queued ref (hrest ref href), fun ref href => ?_⟩
      rcases mem_transmitted_append href with hold | ⟨set, hset, hmem⟩
      · exact hs.sent ref hold
      · exact hs.queued ref (hsets set hset ref hmem)
  | quiet | rearm | backOff | grow => exact ⟨hs.outgoing, hs.queued, hs.sent⟩

theorem Move.headed {s t : UdxStreamInner} (h : Move ok now s t) (hs : Headed s) : Headed t := by
  cases h with
  | micro h => exact h.headed hs
  | send body herror hbody hlen hroom =>
      have hnew := createPacket_len_pos s udxHeaderData body
      exact ⟨hs.replace hnew, hs.queue hnew, hs.sent⟩
  | terminate error => exact ⟨hs.outgoing, hs.queue (createPacket_len_pos _ _ _), hs.sent⟩
  | complete hdone => exact ⟨hs.outgoing, hs.queued, fun ref href => hs.sent ref (complete_transmitted s ▸ href)⟩
  | readPart | readWhole | slot | gone => exact ⟨hs.outgoing, hs.queued, hs.sent⟩

theorem headed_invariant : MoveInvariant UdxStream.anyPacket Headed (fun _ => True) where
  connect := fun _ _ _ _ => ⟨fun k _ h => absurd (AList.mem_of_lookup h) (AList.notMem_empty k),
    fun _ h => absurd h List.not_mem_nil, fun _ h => absurd h List.not_mem_nil⟩
  back := fun _ _ _ _ _ => trivial
  move := fun _ _ _ h hs _ => h.headed hs
  channel := fun _ _ hs => ⟨hs.outgoing, hs.queued, hs.sent⟩
  channel_back := fun _ _ _ => trivial

/-- The segments of a set are never empty. -/
theorem UdxStream.Reachable.len_pos {u : UdxStream} (hu : u.Reachable) {set : PacketSet}
    (hset : .transmit set ∈ u.inner.sendTx.events) {ref : PacketRef} (href : ref ∈ set.packets) : 0 < ref.deref.len :=
  (headed_invariant.of_reachable hu).sent ref (List.mem_flatMap.mpr ⟨_, hset, href⟩)

/-! ### On the wire -/

/-- What the UDP layer makes of a transmit: one datagram, or one a segment. -/
def Transmit.datagrams (transmit : Transmit) : List (List UInt8) :=
  match transmit.segmentSize with
  | none => [transmit.contents]
  | some size => cut size transmit.contents

/-- The packets of a set that were not acknowledged, each as one datagram. -/
def PacketSet.liveDatagrams (set : PacketSet) (skip : PacketRef → Bool) : List (List UInt8) :=
  (set.packets.filter fun ref => !skip ref).map fun ref => ref.deref.buf.asSlice

/-- The only packet of the set was acknowledged. -/
def SkippedAlone (set : PacketSet) (skip : PacketRef → Bool) : Prop :=
  ∃ ref, set.packets = [ref] ∧ skip ref = true

theorem toTransmit_datagrams_iff {set : PacketSet} (hset : Grouped set) (hpos : ∀ ref ∈ set.packets, 0 < ref.deref.len)
    (skip : PacketRef → Bool) :
    (set.toTransmit skip).datagrams = set.liveDatagrams skip ↔ ¬SkippedAlone set skip := by
  obtain ⟨hne, size, hsize, hlen⟩ := hset
  obtain ⟨first, rest, hpackets⟩ := List.exists_cons_of_ne_nil hne
  have hcontents : (set.toTransmit skip).contents = (set.liveDatagrams skip).flatten := by
    rw [PacketSet.toTransmit, hsize, PacketSet.liveDatagrams, ← List.flatMap_def]
  cases rest with
  | nil =>
      -- a single packet: the transmit has no segment size
      have hone : (set.toTransmit skip).segmentSize = none := by
        rw [PacketSet.toTransmit, hsize, hpackets]
        rfl
      rw [Transmit.datagrams, hone, hcontents, PacketSet.liveDatagrams, SkippedAlone, hpackets]
      cases hskip : skip first with
      | true => simp [hskip]
      | false => simp [hskip]
  | cons second others =>
      have hmany : (set.toTransmit skip).segmentSize = some size := by
        rw [PacketSet.toTransmit, hsize, hpackets]
        rfl
      have hlive : ∀ bytes ∈ set.liveDatagrams skip, bytes.length = size := by
        intro bytes hbytes
        obtain ⟨ref, href, rfl⟩ := List.mem_map.mp hbytes
        exact hlen ref (List.mem_of_mem_filter href)
      have hfirst : first ∈ set.packets := hpackets ▸ List.mem_cons_self
      rw [Transmit.datagrams, hmany, hcontents]
      dsimp only
      rw [cut_flatten (hlen first hfirst ▸ hpos first hfirst) hlive]
      refine iff_of_true rfl ?_
      rintro ⟨ref, hsingle, -⟩
      rw [hpackets] at hsingle
      cases hsingle

/-- **Segmentation.** For every packet set a stream hands to its socket in any run, and whichever of its packets are
acknowledged before it is sent: the datagrams on the wire are the packets that are not, in order, each as one
datagram, exactly unless the set has one packet and it was acknowledged. -/
theorem segmentation_exact_iff {u : UdxStream} (hu : u.Reachable) {set : PacketSet}
    (hset : .transmit set ∈ u.inner.sendTx.events) (skip : PacketRef → Bool) :
    (set.toTransmit skip).datagrams = set.liveDatagrams skip ↔ ¬SkippedAlone set skip :=
  toTransmit_datagrams_iff (hu.grouped set hset) (fun _ => hu.len_pos hset) skip

/-- Some bytes are written and handed to the socket, and then the peer acknowledges one packet. -/
def acknowledgedRun (writes : List (List UInt8)) : List Event :=
  writes.map (fun buf => .call (.write 0 buf)) ++
    [.call (.poll 0 0 10 10), .recv ⟨0, 0, 1, 0xffffffff, 0, 1⟩ [] ⟨.v4 0, 2⟩, .call (.poll 0 0 10 10)]

/-- The sets a stream has handed to its socket. -/
def UdxStream.sentSets (u : UdxStream) : List PacketSet :=
  u.inner.sendTx.events.filterMap fun
    | .transmit set => some set
    | _ => none

/-- The packets that were acknowledged, as the socket sees them when it builds a transmit. -/
def UdxStream.acknowledged (u : UdxStream) (ref : PacketRef) : Bool := ref.deref.seq ∈ u.inner.skipped

theorem mem_sentSets {u : UdxStream} {set : PacketSet} (h : set ∈ u.sentSets) :
    .transmit set ∈ u.inner.sendTx.events := by
  obtain ⟨event, hevent, hset⟩ := List.mem_filterMap.mp h
  cases event with
  | transmit other =>
      cases hset
      exact hevent
  | transmitDgram dgram => cases hset
  | streamDropped localId => cases hset

/-- The second of two packets in one set is sent alone after the first one was acknowledged. -/
theorem segmentation_exact_second :
    let u := (UdxStream.connect 0 ⟨.v4 0, 2⟩ 2 1).run (acknowledgedRun [[1], [2]])
    ∃ set ∈ u.sentSets, set.packets.length = 2 ∧
      (set.toTransmit u.acknowledged).datagrams = set.liveDatagrams u.acknowledged := by
  intro u
  obtain ⟨set, hmem, htwo⟩ : ∃ set ∈ u.sentSets, set.packets.length = 2 := by decide
  refine ⟨set, hmem, htwo, (segmentation_exact_iff (u := u)
    ⟨0, ⟨.v4 0, 2⟩, 2, 1, acknowledgedRun [[1], [2]], rfl⟩ (mem_sentSets hmem) _).mpr ?_⟩
  rintro ⟨ref, hsingle, -⟩
  rw [hsingle] at htwo
  cases htwo

theorem acknowledged_sent_empty :
    let u := (UdxStream.connect 0 ⟨.v4 0, 2⟩ 2 1).run (acknowledgedRun [[1]])
    ∃ set ∈ u.sentSets, (set.toTransmit u.acknowledged).datagrams = [[]] ∧ set.liveDatagrams u.acknowledged = [] := by
  decide

end AsyncUdx
