import AsyncUdx.BaseGroups
import AsyncUdx.StreamPoll

/-! How `poll_transmit` divides the send queue into packet sets. The loop keeps the packets it has collected and their
size, and hands them over when the next packet has another size or the set is full; at the end it hands over what is
left. That is the grouping of the queue by size, and the invariants that `PacketSet` documents follow from it. -/

namespace AsyncUdx

open UdxStreamInner

/-- The number of bytes of a queued packet. -/
def PacketRef.size (ref : PacketRef) : Nat := ref.deref.buf.len

/-- The set that a group of packets is handed over as: its segment size is that of the first one. -/
def packetSet (dest : SocketAddr) (group : List PacketRef) : PacketSet :=
  PacketSet.new dest group ((group.head?.map PacketRef.size).getD 0)

theorem packetSet_eq (dest : SocketAddr) {group : List PacketRef} {segmentSize : Nat} (hne : group ≠ [])
    (hsize : ∀ ref ∈ group, ref.size = segmentSize) :
    packetSet dest group = PacketSet.new dest group segmentSize := by
  cases group with
  | nil => exact absurd rfl hne
  | cons ref rest => rw [packetSet, List.head?_cons, Option.map_some, Option.getD_some, hsize ref List.mem_cons_self]

/-- All packets are off the queue, and these sets have been handed over. -/
def UdxStreamInner.handOver (s : UdxStreamInner) (sets : List PacketSet) : UdxStreamInner :=
  { s with
    sendQueue := []
    sendTx := { s.sendTx with events := s.sendTx.events ++ sets.map .transmit } }

theorem sendEvent_handOver (s : UdxStreamInner) (rest : List PacketRef) (set : PacketSet) (sets : List PacketSet) :
    (({ s with sendQueue := rest }).sendEvent (.transmit set)).handOver sets = s.handOver (set :: sets) := by
  simp [handOver, sendEvent]

section Loop

variable {limit segmentSize : Nat} {queue : List PacketRef}

/-- The first packet of a set gives it its size, whatever size the loop remembers. -/
theorem transmitLoop_first (packet : PacketRef) (rest : List PacketRef) (s : UdxStreamInner) :
    transmitLoop limit (packet :: rest) segmentSize [] s =
      transmitLoop limit rest packet.size [packet] { s with sendQueue := rest } := by
  rw [transmitLoop]
  dsimp only
  split_ifs with hflush hempty
  · rfl
  · exact absurd rfl hempty
  · exact absurd rfl hempty
  · have hsame : packet.deref.buf.len = segmentSize := by
      by_contra hother
      exact hflush (Or.inl hother)
    rw [PacketRef.size, hsame]
    rfl

/-- The packets of `queue` have the size the loop remembers, so a packet of another size is one that does not match
them. -/
theorem flush_iff (hne : queue ≠ []) (hsize : ∀ ref ∈ queue, ref.size = segmentSize) (packet : PacketRef) :
    queue.isEmpty = false ∧ (queue.length = limit ∨ ∃ ref ∈ queue, ref.size ≠ packet.size) ↔
      packet.size ≠ segmentSize ∨ queue.length = limit := by
  obtain ⟨first, hfirst⟩ := List.exists_mem_of_ne_nil queue hne
  have hdiffer : (∃ ref ∈ queue, ref.size ≠ packet.size) ↔ packet.size ≠ segmentSize := by
    constructor
    · rintro ⟨ref, href, hother⟩ heq
      exact hother ((hsize ref href).trans heq.symm)
    · intro hother
      exact ⟨first, hfirst, fun heq => hother (heq.symm.trans (hsize first hfirst))⟩
  rw [hdiffer, or_comm]
  exact ⟨fun h => h.2, fun h => ⟨by simpa using hne, h⟩⟩

/-- A packet that follows others closes their set or joins it. -/
theorem transmitLoop_next (hne : queue ≠ []) (packet : PacketRef) (rest : List PacketRef) {s : UdxStreamInner}
    (hopen : s.sendTx.closed = false) :
    transmitLoop limit (packet :: rest) segmentSize queue s =
      if packet.size ≠ segmentSize ∨ queue.length = limit then
        transmitLoop limit rest packet.size [packet]
          (({ s with sendQueue := rest }).sendEvent (.transmit (PacketSet.new s.remoteAddr queue segmentSize)))
      else transmitLoop limit rest segmentSize (queue ++ [packet]) { s with sendQueue := rest } := by
  have hnot : ¬queue.isEmpty = true := by simpa using hne
  have hclosed : ¬s.sendTx.closed = true := by simpa using hopen
  rw [transmitLoop]
  dsimp only
  refine if_congr Iff.rfl ?_ rfl
  rw [if_neg hnot, if_neg hclosed]
  rfl

/-- **The loop groups.** What is left of the queue is handed over in groups of one size, after what was handed over
before. -/
theorem transmitLoop_eq (pending : List PacketRef)
    (hsize : ∀ ref ∈ queue, ref.size = segmentSize) {s : UdxStreamInner} (hpending : s.sendQueue = pending)
    (hopen : s.sendTx.closed = false) :
    transmitLoop limit pending segmentSize queue s =
      (s.handOver ((Groups.collect PacketRef.size limit queue pending).map (packetSet s.remoteAddr)), .ok ()) := by
  induction pending generalizing segmentSize queue s with
  | nil =>
      rw [transmitLoop, hopen, Bool.or_false, Groups.collect]
      split_ifs with hempty
      · rw [List.map_nil, handOver, ← hpending, List.map_nil, List.append_nil]
      · have hne : queue ≠ [] := by simpa using hempty
        rw [List.map_singleton, packetSet_eq s.remoteAddr hne hsize, handOver, ← hpending]
        rfl
  | cons packet rest ih =>
      have hone : ∀ ref ∈ [packet], ref.size = packet.size := by simp
      by_cases hempty : queue = []
      · subst hempty
        rw [transmitLoop_first, Groups.collect_nil_cons]
        exact ih hone rfl hopen
      · rw [transmitLoop_next hempty packet rest hopen, Groups.collect,
          if_congr (flush_iff hempty hsize packet) rfl rfl]
        split_ifs with hflush
        · rw [List.map_cons, packetSet_eq s.remoteAddr hempty hsize, ← sendEvent_handOver s rest]
          exact ih hone rfl hopen
        · have hsame : packet.size = segmentSize := by
            by_contra hother
            exact hflush (Or.inl hother)
          have hjoined : ∀ ref ∈ queue ++ [packet], ref.size = segmentSize := by
            intro ref href
            rcases List.mem_append.mp href with href | href
            · exact hsize ref href
            · rw [List.mem_singleton.mp href, hsame]
          exact ih hjoined rfl hopen

end Loop

/-- **Grouping into packet sets.** With the channel to the socket open, `poll_transmit` takes all packets off the
queue and changes nothing else but the channel. The sets it puts there hold these packets, in order; each of them has
packets, not more than the limits allow and all with the length that is its segment size; and of two sets that follow
each other, the first one is full or their sizes differ. -/
theorem pollTransmit_groups (s : UdxStreamInner) {cx : Context} (hgso : 1 ≤ cx.maxGsoSegments)
    (hopen : s.sendTx.closed = false) :
    ∃ sets : List PacketSet,
      s.pollTransmit cx = ({ s with
        sendQueue := []
        sendTx := { s.sendTx with events := s.sendTx.events ++ sets.map .transmit } }, .ok ()) ∧
      (sets.map PacketSet.packets).flatten = s.sendQueue ∧
      (∀ set ∈ sets, set.dest = s.remoteAddr ∧ set.packets ≠ [] ∧
        set.packets.length ≤ min cx.maxGsoSegments maxSegments ∧
        ∃ size, set.segmentSize = some size ∧ ∀ ref ∈ set.packets, ref.deref.buf.len = size) ∧
      sets.IsChain fun first second =>
        first.packets.length = min cx.maxGsoSegments maxSegments ∨ first.segmentSize ≠ second.segmentSize := by
  have hlimit : 0 < min cx.maxGsoSegments maxSegments := Nat.lt_min.mpr ⟨hgso, by decide⟩
  let groups := Groups.collect PacketRef.size (min cx.maxGsoSegments maxSegments) [] s.sendQueue
  have hgroups : Groups.IsGrouping PacketRef.size (min cx.maxGsoSegments maxSegments) s.sendQueue groups :=
    Groups.collect_isGrouping hlimit (Nat.zero_le _) (fun _ h => absurd h List.not_mem_nil) s.sendQueue
  have hsize : ∀ group ∈ groups, ∀ ref ∈ group, (packetSet s.remoteAddr group).segmentSize = some ref.size := by
    intro group hgroup ref href
    rw [packetSet_eq s.remoteAddr (hgroups.ne_nil group hgroup) fun other hother =>
      hgroups.same_key group hgroup other hother ref href]
    rfl
  refine ⟨groups.map (packetSet s.remoteAddr), ?_, ?_, ?_, ?_⟩
  · rw [pollTransmit, transmitLoop_eq s.sendQueue (fun _ h => absurd h List.not_mem_nil) rfl hopen]
    rfl
  · rw [List.map_map, show PacketSet.packets ∘ packetSet s.remoteAddr = id from rfl, List.map_id]
    exact hgroups.flatten_eq
  · intro set hset
    obtain ⟨group, hgroup, rfl⟩ := List.mem_map.mp hset
    obtain ⟨first, hfirst⟩ := List.exists_mem_of_ne_nil group (hgroups.ne_nil group hgroup)
    refine ⟨rfl, hgroups.ne_nil group hgroup, hgroups.length_le group hgroup, first.size,
      hsize group hgroup first hfirst, ?_⟩
    intro ref href
    exact hgroups.same_key group hgroup ref href first hfirst
  · apply (List.isChain_map _).mpr
    refine List.IsChain.imp_of_mem_imp ?_ hgroups.maximal
    intro first second hfirst hsecond hsplit
    refine hsplit.imp_right ?_
    rintro ⟨ref, href, other, hother, hdiffer⟩ heq
    rw [hsize first hfirst ref href, hsize second hsecond other hother] at heq
    exact hdiffer (Option.some.inj heq)

/-- Two packets of one size and one of another size, in sets of one packet at most. -/
theorem pollTransmit_groups_unequal :
    let s := ((UdxStream.connect 0 ⟨.v4 0, 2⟩ 2 1).run
      [.call (.write 0 [1]), .call (.write 0 [2]), .call (.write 0 [3, 4])]).inner
    s.sendQueue.length = 3 ∧ s.sendTx.closed = false ∧
    ∃ sets : List PacketSet,
      (s.pollTransmit ⟨0, 0, 0, 10, 1⟩).1.sendTx.events = s.sendTx.events ++ sets.map .transmit ∧
      (sets.map PacketSet.packets).flatten = s.sendQueue := by
  intro s
  refine ⟨by decide, by decide, ?_⟩
  obtain ⟨sets, hsent, hflatten, -⟩ :=
    @pollTransmit_groups s ⟨0, 0, 0, 10, 1⟩ (Nat.le_refl 1) (by decide)
  exact ⟨sets, by rw [hsent], hflatten⟩

end AsyncUdx
