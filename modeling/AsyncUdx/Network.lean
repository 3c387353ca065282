import AsyncUdx.Host
import AsyncUdx.PairEchoRun

/-! Two hosts and the network between them. Any number of streams runs over one socket on each side, next to datagrams
of the users and of strangers; transmits are segmented, dropped by the kernel, lost, reordered, duplicated and cut off
on the way. Two streams that are connected to each other see nothing of that: seen from the two of them, every run is a
run of the pair over a network that loses, duplicates and reorders packets. -/

namespace AsyncUdx

open Udp

/-! ### The pair from either side -/

/-- The two sides exchanged. -/
def Pair.swap (q : Pair) : Pair := ⟨q.b, q.a⟩

def PairEvent.swap : PairEvent → PairEvent
  | .call x c => .call x.other c
  | .deliver x n => .deliver x.other n

theorem Pair.swap_peer (q : Pair) (x : Side) : q.swap.peer x = q.peer x.other := by
  cases x <;> rfl

theorem Pair.swap_set (q : Pair) (x : Side) (u : UdxStream) : (q.set x u).swap = q.swap.set x.other u := by
  cases x <;> rfl

theorem Pair.swap_step (q : Pair) (e : PairEvent) : (q.step e).swap = q.swap.step e.swap := by
  cases e with
  | call x c =>
      rw [step, swap_set, PairEvent.swap, step, swap_peer, Side.other_other]
  | deliver x n =>
      have hdatagram : q.swap.datagram x.other n = q.datagram x n := by
        unfold datagram
        rw [swap_peer, swap_peer, Side.other_other]
      rw [PairEvent.swap, step, step, hdatagram]
      split
      · rfl
      · rw [swap_set, swap_peer, Side.other_other]

theorem Pair.Reachable.swap {q : Pair} (hq : q.Reachable) : q.swap.Reachable := by
  obtain ⟨startA, startB, addrA, addrB, idA, idB, events, rfl⟩ := hq
  refine ⟨startB, startA, addrB, addrA, idB, idA, events.map PairEvent.swap, ?_⟩
  have hrun : ∀ (events : List PairEvent) (q : Pair),
      Runs.run Pair.step q.swap (events.map PairEvent.swap) = (Runs.run Pair.step q events).swap := by
    intro events
    induction events with
    | nil => exact fun _ => rfl
    | cons e rest ih =>
        intro q
        change Runs.run Pair.step (q.swap.step e.swap) (rest.map PairEvent.swap) =
          (Runs.run Pair.step (q.step e) rest).swap
        rw [← Pair.swap_step]
        exact ih (q.step e)
  exact hrun events (.connect startA startB addrA addrB idA idB)

/-! ### The network -/

/-- Two hosts, of any platform each, and the addresses at which they are reached. -/
structure Network (p : Side → Platform) where
  addr : Side → SocketAddr
  host : (x : Side) → Host (p x)

namespace Network

variable {p : Side → Platform}

def bind (addr : Side → SocketAddr) (start maxGsoSegments : Side → Nat) (earlier : Side → Option Int) : Network p where
  addr := addr
  host := fun x => .bind (start x) (maxGsoSegments x) (earlier x)

/-- Something happens at one of the hosts. -/
def step (net : Network p) (e : Σ x, HostEvent (p x)) : Network p :=
  { net with host := Function.update net.host e.1 ((net.host e.1).step e.2) }

/-- The streams connected at a side so far. -/
def streams (net : Network p) (x : Side) : List UdxStream := (net.host x).socket.tasks

/-- A datagram that the other host has put on the wire for this one. -/
def OnWire (net : Network p) (x : Side) (raw : Arrival) : Prop :=
  ∃ transmit ∈ (net.host x.other).wire, transmit.destination = net.addr x ∧ raw.source = net.addr x.other ∧
    raw.data ∈ transmit.datagrams

/-- Bytes that are not a packet for a stream with one of the given ids. -/
def Foreign (ids : UInt32 → Prop) (data : List UInt8) : Prop :=
  WellFormed data → ¬ids (headerAt data).streamId

/-- The users send certain datagrams and strangers certain others. The network delivers what was put on the wire, as
often as it likes and in any order. -/
def Relays (sent : Side → Dgram → Prop) (strange : Side → Arrival → Prop) (net : Network p)
    (e : Σ x, HostEvent (p x)) : Prop :=
  (∀ raw ∈ e.2.datagrams, net.OnWire e.1 raw ∨ strange e.1 raw) ∧
    ∀ dest buf, e.2 = .send dest buf → sent e.1 ⟨buf, dest⟩

/-- Users and strangers do not forge packets of the streams. -/
def Honest (ids : UInt32 → Prop) (_ : Side) (dgram : Dgram) : Prop := Foreign ids dgram.buf

def Carries (ids : UInt32 → Prop) (net : Network p) (e : Σ x, HostEvent (p x)) : Prop :=
  Relays (Honest ids) (fun _ raw => Foreign ids raw.data) net e

/-- A stream of a side is connected to the other host. -/
def Faces (net : Network p) (x : Side) (u : UdxStream) : Prop := u.inner.remoteAddr = net.addr x.other

/-- Ids are used once at each side, and two streams that face each other agree on both ids or on none. -/
structure Matched (ids : UInt32 → Prop) (net : Network p) : Prop where
  known : ∀ x, ∀ u ∈ net.streams x, ids u.inner.localId
  distinct : ∀ x, ((net.streams x).map fun u => u.inner.localId).Nodup
  agreed : ∀ x, ∀ u ∈ net.streams x, ∀ v ∈ net.streams x.other, net.Faces x u → net.Faces x.other v →
    (v.inner.remoteId = u.inner.localId ↔ v.inner.localId = u.inner.remoteId)

end Network

/-! ### Datagrams -/

theorem slice_take (data : List UInt8) {i j n : Nat} (hj : j ≤ n) : slice (data.take n) i j = slice data i j := by
  rw [slice, slice, List.drop_take, List.take_take, Nat.min_eq_left (Nat.sub_le_sub_right hj i)]

/-- A datagram that is cut off after its header keeps the header. -/
theorem headerAt_take (data : List UInt8) {n : Nat} (hn : udxHeaderSize ≤ n) :
    headerAt (data.take n) = headerAt data := by
  have hsize : 20 ≤ n := hn
  have hget : ∀ i, i < 20 → (data.take n).getD i 0 = data.getD i 0 := by
    intro i hi
    rw [List.getD_eq_getElem?_getD, List.getD_eq_getElem?_getD, List.getElem?_take_of_lt (by omega)]
  unfold headerAt
  rw [hget 2 (by decide), hget 3 (by decide), slice_take data (by omega), slice_take data (by omega),
    slice_take data (by omega), slice_take data (by omega)]

theorem wellFormed_take {data : List UInt8} {n : Nat} (hn : udxHeaderSize ≤ n) (h : WellFormed (data.take n)) :
    WellFormed data := by
  have hsize : 20 ≤ n := hn
  obtain ⟨hlen, hmagic, hversion⟩ := h
  rw [List.length_take] at hlen
  rw [List.getElem?_take_of_lt (by omega)] at hmagic hversion
  exact ⟨hlen.trans (Nat.min_le_right _ _), hmagic, hversion⟩

theorem Network.Foreign.truncated {ids : UInt32 → Prop} {raw : Arrival} (h : Network.Foreign ids raw.data) :
    Network.Foreign ids raw.truncated.data := by
  intro hformed hid
  have hsize : udxHeaderSize ≤ udxMtu := by decide
  apply h (wellFormed_take hsize hformed)
  rw [← headerAt_take raw.data hsize]
  exact hid

/-- The datagrams of a set are packets of it, or empty. -/
theorem toTransmit_datagrams_mem {u : UdxStream} (hu : u.Reachable) {set : PacketSet}
    (hset : .transmit set ∈ u.inner.sendTx.events) (skip : PacketRef → Bool) {data : List UInt8}
    (hdata : data ∈ (set.toTransmit skip).datagrams) :
    data = [] ∨ ∃ ref ∈ set.packets, data = ref.deref.buf.asSlice := by
  have hgrouped := hu.grouped set hset
  by_cases halone : SkippedAlone set skip
  · left
    obtain ⟨ref, hsingle, hskip⟩ := halone
    obtain ⟨-, size, hsize, -⟩ := hgrouped
    rw [PacketSet.toTransmit, hsize, hsingle] at hdata
    simpa [Transmit.datagrams, hskip] using hdata
  · right
    rw [(toTransmit_datagrams_iff hgrouped (fun _ => hu.len_pos hset) skip).mpr halone] at hdata
    obtain ⟨ref, href, rfl⟩ := List.mem_map.mp hdata
    exact ⟨ref, List.mem_of_mem_filter href, rfl⟩

theorem toTransmit_destination {set : PacketSet} (hset : Grouped set) (skip : PacketRef → Bool) :
    (set.toTransmit skip).destination = set.dest := by
  obtain ⟨-, size, hsize, -⟩ := hset
  rw [PacketSet.toTransmit, hsize]

/-! ### What stays of a stream -/

/-- Where a stream is connected to does not change. -/
structure SameEnds (u v : UdxStream) : Prop where
  localId : v.inner.localId = u.inner.localId
  remoteId : v.inner.remoteId = u.inner.remoteId
  remoteAddr : v.inner.remoteAddr = u.inner.remoteAddr

theorem SameEnds.step {u v : UdxStream} (h : SameEnds u v) (e : Event) : SameEnds u (v.step e) where
  localId := (v.step_localId e).trans h.localId
  remoteId := (v.step_remoteId e).trans h.remoteId
  remoteAddr := (v.step_remoteAddr e).trans h.remoteAddr

/-- A host keeps the streams it has, at their places. -/
theorem Host.step_sameEnds {p : Platform} {h : Host p} {N : Nat} {P : Nat → UdxStream → Prop}
    (hs : h.socket.Attends N P) (e : HostEvent p) {n : Nat} {u : UdxStream} (hu : h.socket.tasks[n]? = some u) :
    ∃ v, (h.step e).socket.tasks[n]? = some v ∧ SameEnds u v := by
  have hkept : (h.step e).socket.Attends h.socket.tasks.length fun n v =>
      ∀ u, h.socket.tasks[n]? = some u → SameEnds u v := by
    apply attends_step
    · apply hs.of_all
      intro n v hv u hu
      obtain rfl : u = v := Option.some.inj (hu.symm.trans hv)
      exact ⟨rfl, rfl, rfl⟩
    · exact fun n v c _ hv u hu => (hv u hu).step (.call c)
    · exact fun n c _ v hv u hu => (hv u hu).step (.call (c.withSegments h.udp.maxGsoSegments))
    · exact fun raw _ n v hv _ _ u hu => (hv u hu).step _
    · intro dest localId remoteId _ _ u hu
      rw [List.getElem?_eq_none (Nat.le_refl _)] at hu
      cases hu
  have hlt : n < h.socket.tasks.length := (List.getElem?_eq_some_iff.mp hu).1
  obtain ⟨v, hv⟩ : ∃ v, (h.step e).socket.tasks[n]? = some v :=
    ⟨_, List.getElem?_eq_getElem (Nat.lt_of_lt_of_le hlt hkept.length_le)⟩
  exact ⟨v, hv, hkept.all n v hv u hu⟩

/-! ### Partners -/

/-- A stream at the address `here` and the streams at the other address: with the one that is its partner it is in a
state of the pair, and as long as it has none, it is so with any stream that may be connected to be it. -/
structure Partnered (here : SocketAddr) (peers : List UdxStream) (u : UdxStream) : Prop where
  both : ∀ v ∈ peers, v.inner.remoteAddr = here → v.inner.localId = u.inner.remoteId →
    v.inner.remoteId = u.inner.localId → Pair.Reachable ⟨u, v⟩
  alone : (∀ v ∈ peers, v.inner.remoteAddr = here → v.inner.localId ≠ u.inner.remoteId) →
    ∀ start, Pair.Reachable ⟨u, .connect start here u.inner.localId u.inner.remoteId⟩

/-- A call on a stream is a call on its side of the pair. -/
theorem Partnered.call {here : SocketAddr} {peers : List UdxStream} {u : UdxStream} (hu : Partnered here peers u)
    (c : Call) : Partnered here peers (u.call c) := by
  have hlocal : (u.call c).inner.localId = u.inner.localId := u.step_localId (.call c)
  have hremote : (u.call c).inner.remoteId = u.inner.remoteId := u.step_remoteId (.call c)
  constructor
  · intro v hv haddr hid hid'
    rw [hremote] at hid
    rw [hlocal] at hid'
    exact (hu.both v hv haddr hid hid').step (.call .a c)
  · intro halone start
    rw [hlocal, hremote] at *
    exact (hu.alone halone start).step (.call .a c)

/-- A packet of its partner arrives at a stream as it arrives in the pair. -/
theorem Partnered.arrive {here : SocketAddr} {peers : List UdxStream} {u v : UdxStream} (hu : Partnered here peers u)
    (hv : v ∈ peers) (hunique : ∀ other ∈ peers, other.inner.localId = v.inner.localId → other = v)
    (haddr : v.inner.remoteAddr = here) (hid : v.inner.localId = u.inner.remoteId)
    (hid' : v.inner.remoteId = u.inner.localId) {ref : PacketRef} (href : ref ∈ transmitted v.inner.sendTx.events)
    (haddressed : Addressed v.inner.remoteId ref.deref) :
    Partnered here peers (u.step (.recv ref.deref.header ref.deref.body u.inner.remoteAddr)) := by
  have hpair : Pair.Reachable ⟨u, v⟩ := hu.both v hv haddr hid hid'
  have hnext : Pair.Reachable ⟨u.step (.recv ref.deref.header ref.deref.body u.inner.remoteAddr), v⟩ := by
    obtain ⟨n, hn⟩ := List.getElem?_of_mem href
    have hdatagram : Pair.datagram ⟨u, v⟩ .b n =
        some ⟨ref.deref.header, ref.deref.body, 0, u.inner.remoteAddr⟩ :=
      hpair.datagram_eq (x := .b) hn haddressed.encoded haddressed.streamId
    have hstep := hpair.step (.deliver .b n)
    rw [Pair.step, hdatagram] at hstep
    exact hstep
  constructor
  · intro other hother haddr' hlocal _
    rw [UdxStream.step_remoteId] at hlocal
    rw [hunique other hother (hlocal.trans hid.symm)]
    exact hnext
  · intro halone
    rw [UdxStream.step_remoteId] at halone
    exact absurd hid (halone v hv haddr)

namespace Network

variable {p : Side → Platform} {ids : UInt32 → Prop} {ok : Side → Dgram → Prop} {net : Network p}

/-- Both hosts have sent only what comes from their streams, and datagrams of the users that are as they should be. -/
def Grounded (ok : Side → Dgram → Prop) (net : Network p) : Prop := ∀ x, (net.host x).Grounded (ok x)

/-- What arrives from the other host is a datagram of its users, empty, or a packet of one of its streams that faces
this host. -/
theorem OnWire.origin (hgrounded : net.Grounded ok) {x : Side} {raw : Arrival} (hraw : net.OnWire x raw) :
    (∃ dgram, ok x.other dgram ∧ dgram.dest = net.addr x ∧ raw.data = dgram.buf) ∨ raw.data = [] ∨
      ∃ v ∈ net.streams x.other, v.inner.remoteAddr = net.addr x ∧ ∃ ref ∈ transmitted v.inner.sendTx.events,
        Addressed v.inner.remoteId ref.deref ∧ raw.data = ref.deref.buf.asSlice := by
  obtain ⟨transmit, htransmit, hdest, -, hdata⟩ := hraw
  cases (hgrounded x.other).wire transmit htransmit with
  | user dgram hok h =>
      left
      subst h
      exact ⟨dgram, hok, hdest, List.mem_singleton.mp hdata⟩
  | stream n events set skip hn hset h =>
      right
      subst h
      rw [UdxSocket.outbox, List.getElem?_map] at hn
      obtain ⟨v, hv, rfl⟩ := Option.map_eq_some_iff.mp hn
      have hreachable := (hgrounded x.other).attends.all n v hv
      rcases toTransmit_datagrams_mem hreachable hset skip hdata with hempty | ⟨ref, href, heq⟩
      · exact Or.inl hempty
      · have hsent : ref ∈ transmitted v.inner.sendTx.events := List.mem_flatMap.mpr ⟨_, hset, href⟩
        refine Or.inr ⟨v, List.mem_of_getElem? hv, ?_, ref, hsent, hreachable.addressed hsent, heq⟩
        rw [← hdest, toTransmit_destination (hreachable.grouped set hset)]
        exact (hreachable.ofStream _ hset).symm

/-- What is kept of a stream of a side: its id is known, and if it faces the other host, it agrees with the streams
there and is in a state of the pair with its partner. -/
def Settled (ids : UInt32 → Prop) (net : Network p) (x : Side) (u : UdxStream) : Prop :=
  ids u.inner.localId ∧ (net.Faces x u →
    (∀ v ∈ net.streams x.other, v.inner.remoteAddr = net.addr x →
      (v.inner.remoteId = u.inner.localId ↔ v.inner.localId = u.inner.remoteId)) ∧
    Partnered (net.addr x) (net.streams x.other) u)

theorem settled_call {x : Side} {u : UdxStream} (hu : net.Settled ids x u) (c : Call) :
    net.Settled ids x (u.call c) := by
  have hlocal : (u.call c).inner.localId = u.inner.localId := u.step_localId (.call c)
  have hremote : (u.call c).inner.remoteId = u.inner.remoteId := u.step_remoteId (.call c)
  refine ⟨hlocal ▸ hu.1, fun hfaces => ?_⟩
  obtain ⟨hagreed, hpartnered⟩ := hu.2 ((u.step_remoteAddr (.call c)).symm.trans hfaces)
  refine ⟨?_, hpartnered.call c⟩
  rw [hlocal, hremote]
  exact hagreed

theorem settled_arrival (hgrounded : net.Grounded (Honest ids)) {x : Side}
    (hdistinct : ((net.streams x.other).map fun u => u.inner.localId).Nodup) {raw : Arrival}
    (hraw : net.OnWire x raw ∨ Foreign ids raw.data) :
    UdxSocket.KeptByArrival (fun _ u => net.Settled ids x u) raw.truncated := by
  intro n u hu hformed hid
  have hforeign : ¬Foreign ids raw.data := by
    intro h
    apply h.truncated hformed
    rw [hid]
    exact hu.1
  have hwire : net.OnWire x raw := hraw.resolve_right hforeign
  rcases hwire.origin hgrounded with ⟨dgram, hdgram, -, hdata⟩ | hempty | ⟨v, hv, haddr, ref, href, haddressed, hdata⟩
  · rw [hdata] at hforeign
    exact absurd hdgram hforeign
  · -- an empty datagram is not a packet
    obtain ⟨hlen, -⟩ := hformed
    rw [Arrival.truncated, hempty] at hlen
    cases hlen
  · have hwhole : raw.truncated.data = ref.deref.buf.asSlice := by
      rw [← hdata]
      apply List.take_of_length_le
      rw [hdata]
      exact haddressed.len_le
    rw [hwhole] at hid hformed ⊢
    obtain ⟨-, hheader⟩ := fromBytes_eq_ok_iff.mp haddressed.encoded
    rw [hheader] at hid ⊢
    refine ⟨(u.step_localId _).symm ▸ hu.1, fun hfaces => ?_⟩
    have hfaces' : u.inner.remoteAddr = net.addr x.other := (u.step_remoteAddr _).symm.trans hfaces
    obtain ⟨hagreed, hpartnered⟩ := hu.2 hfaces'
    have hremote : v.inner.remoteId = u.inner.localId := haddressed.streamId.symm.trans hid
    have hunique : ∀ other ∈ net.streams x.other, other.inner.localId = v.inner.localId → other = v :=
      fun other hother hsame => List.inj_on_of_nodup_map hdistinct hother hv hsame
    have hsource : raw.truncated.source = u.inner.remoteAddr := by
      obtain ⟨-, -, -, hsource, -⟩ := hwire
      exact hsource.trans hfaces'.symm
    rw [hsource]
    refine ⟨?_, hpartnered.arrive hv hunique haddr ((hagreed v hv haddr).mp hremote) hremote href haddressed⟩
    rw [UdxStream.step_localId, UdxStream.step_remoteId]
    exact hagreed

/-! ### Steps -/

theorem step_near (net : Network p) (x : Side) (e : HostEvent (p x)) :
    (net.step ⟨x, e⟩).host x = (net.host x).step e := Function.update_self _ _ _

theorem step_far (net : Network p) {x y : Side} (hne : y ≠ x) (e : HostEvent (p x)) :
    (net.step ⟨x, e⟩).host y = net.host y := Function.update_of_ne hne _ _

theorem Side.other_ne (x : Side) : x.other ≠ x := by
  cases x <;> rintro ⟨⟩

/-- Both hosts keep the streams they have. -/
theorem step_streams (hgrounded : net.Grounded ok) (e : Σ x, HostEvent (p x)) {y : Side} {n : Nat} {u : UdxStream}
    (hu : (net.streams y)[n]? = some u) : ∃ v, ((net.step e).streams y)[n]? = some v ∧ SameEnds u v := by
  obtain ⟨x, e⟩ := e
  unfold streams at *
  by_cases heq : y = x
  · subst heq
    rw [step_near]
    exact Host.step_sameEnds (hgrounded y).attends e hu
  · rw [step_far net heq]
    exact ⟨u, hu, rfl, rfl, rfl⟩

theorem step_streams_mem (hgrounded : net.Grounded ok) (e : Σ x, HostEvent (p x)) {y : Side} {u : UdxStream}
    (hu : u ∈ net.streams y) : ∃ v ∈ (net.step e).streams y, SameEnds u v := by
  obtain ⟨n, hn⟩ := List.getElem?_of_mem hu
  obtain ⟨v, hv, hsame⟩ := step_streams hgrounded e hn
  exact ⟨v, List.mem_of_getElem? hv, hsame⟩

/-- Ids that fit together at the end of a step fitted together before. -/
theorem matched_back (hgrounded : net.Grounded ok) {e : Σ x, HostEvent (p x)} (h : Matched ids (net.step e)) :
    Matched ids net where
  known := by
    intro x u hu
    obtain ⟨v, hv, hsame⟩ := step_streams_mem hgrounded e hu
    rw [← hsame.localId]
    exact h.known x v hv
  distinct := by
    intro x
    refine (h.distinct x).sublist (List.IsPrefix.sublist (List.prefix_iff_getElem?.mpr ?_))
    intro n hn
    rw [List.length_map] at hn
    obtain ⟨v, hv, hsame⟩ := step_streams hgrounded e (List.getElem?_eq_getElem hn)
    rw [List.getElem?_map, hv, List.getElem_map]
    exact congrArg some hsame.localId
  agreed := by
    intro x u hu v hv hfaces hfaces'
    obtain ⟨u', hu', hsame⟩ := step_streams_mem hgrounded e hu
    obtain ⟨v', hv', hsame'⟩ := step_streams_mem hgrounded e hv
    have hagreed := h.agreed x u' hu' v' hv' (hsame.remoteAddr.trans hfaces) (hsame'.remoteAddr.trans hfaces')
    rwa [hsame.localId, hsame.remoteId, hsame'.localId, hsame'.remoteId] at hagreed

theorem grounded_step (hgrounded : net.Grounded ok) {e : Σ x, HostEvent (p x)}
    (he : ∀ dest buf, e.2 = .send dest buf → ok e.1 ⟨buf, dest⟩) : (net.step e).Grounded ok := by
  obtain ⟨x, e⟩ := e
  intro y
  by_cases heq : y = x
  · subst heq
    rw [step_near]
    exact (hgrounded y).step he
  · rw [step_far net heq]
    exact hgrounded y

/-- Every stream that faces the other host has a partner there, or may get one. -/
def Paired (net : Network p) : Prop :=
  ∀ x, ∀ u ∈ net.streams x, net.Faces x u → Partnered (net.addr x) (net.streams x.other) u

theorem Paired.settled (hpaired : net.Paired) (hmatched : Matched ids net) {x : Side} {u : UdxStream}
    (hu : u ∈ net.streams x) : net.Settled ids x u := by
  refine ⟨hmatched.known x u hu, fun hfaces => ⟨fun v hv haddr => ?_, hpaired x u hu hfaces⟩⟩
  refine hmatched.agreed x u hu v hv hfaces ?_
  rw [Faces, Side.other_other]
  exact haddr

/-- The stream that a connection adds is the last one. -/
theorem connect_last (net : Network p) (x : Side) (dest : SocketAddr) (localId remoteId : UInt32)
    (hhandles : (net.host x).socket.handles ≠ 0) :
    ((net.step ⟨x, .connect dest localId remoteId⟩).streams x)[(net.streams x).length]? =
      some (.connect (net.host x).socket.clock dest remoteId localId) := by
  unfold streams
  rw [step_near, Host.step, UdxSocket.step, if_neg hhandles]
  have hlength : ((net.host x).socket.dropHandle ((net.host x).socket.inner.streams.lookup localId)).tasks.length =
      (net.host x).socket.tasks.length := by
    unfold UdxSocket.dropHandle
    split
    · rfl
    · exact List.length_modify _ _ _
  rw [← hlength]
  exact List.getElem?_concat_length

/-- A new stream finds its partner waiting, or waits itself. -/
theorem settled_connect (hgrounded : net.Grounded (Honest ids)) (hpaired : net.Paired) {x : Side} {dest : SocketAddr}
    {localId remoteId : UInt32} (hmatched : Matched ids (net.step ⟨x, .connect dest localId remoteId⟩))
    (hhandles : (net.host x).socket.handles ≠ 0) :
    net.Settled ids x (.connect (net.host x).socket.clock dest remoteId localId) := by
  have hlast := net.connect_last x dest localId remoteId hhandles
  have hfar : ∀ v ∈ net.streams x.other,
      v ∈ (net.step ⟨x, .connect dest localId remoteId⟩).streams x.other := by
    intro v hv
    unfold streams at *
    rwa [step_far net (Side.other_ne x)]
  refine ⟨hmatched.known x _ (List.mem_of_getElem? hlast), fun hfaces => ⟨fun v hv haddr => ?_, ?_, ?_⟩⟩
  · refine hmatched.agreed x _ (List.mem_of_getElem? hlast) v (hfar v hv) hfaces ?_
    rw [Faces, Side.other_other]
    exact haddr
  · intro v hv haddr hlocal hremote
    have hlocal' : v.inner.localId = remoteId := hlocal
    have hremote' : v.inner.remoteId = localId := hremote
    have hfaces' : net.Faces x.other v := by
      rw [Faces, Side.other_other]
      exact haddr
    have halone : ∀ w ∈ net.streams x.other.other, w.inner.remoteAddr = net.addr x.other →
        w.inner.localId ≠ v.inner.remoteId := by
      rw [Side.other_other]
      intro w hw _ hsame
      obtain ⟨i, hi⟩ := List.getElem?_of_mem hw
      obtain ⟨w', hi', hends⟩ := step_streams hgrounded ⟨x, .connect dest localId remoteId⟩ hi
      have hlt : i < (net.streams x).length := (List.getElem?_eq_some_iff.mp hi).1
      have hend : (net.streams x).length < ((net.step ⟨x, .connect dest localId remoteId⟩).streams x).length :=
        (List.getElem?_eq_some_iff.mp hlast).1
      apply List.nodup_iff_getElem?_ne_getElem?.mp (hmatched.distinct x) i _ hlt ((List.length_map _).symm ▸ hend)
      rw [List.getElem?_map, List.getElem?_map, hi', hlast]
      exact congrArg some ((hends.localId.trans hsame).trans hremote')
    have hpair := ((hpaired x.other v hv hfaces').alone halone (net.host x).socket.clock).swap
    have hdest : dest = net.addr x.other := hfaces
    rw [hlocal', hremote', ← hdest] at hpair
    exact hpair
  · intro _ start
    exact ⟨_, start, net.addr x, dest, localId, remoteId, [], rfl⟩

/-- A step leaves the streams of its side settled with the streams of the other. -/
theorem step_settled (hgrounded : net.Grounded (Honest ids)) (hpaired : net.Paired) {x : Side} {e : HostEvent (p x)}
    (he : Carries ids net ⟨x, e⟩) (hmatched : Matched ids (net.step ⟨x, e⟩)) :
    ∀ u ∈ (net.step ⟨x, e⟩).streams x, net.Settled ids x u := by
  have hbefore : Matched ids net := matched_back hgrounded hmatched
  have hattends : ((net.host x).step e).socket.Attends (net.host x).socket.tasks.length
      fun _ u => net.Settled ids x u := by
    apply Host.attends_step
    · exact (hgrounded x).attends.of_all fun n u hu => hpaired.settled hbefore (List.mem_of_getElem? hu)
    · exact fun _ _ _ _ hu => settled_call hu _
    · exact fun _ _ _ _ hu => settled_call hu _
    · exact fun raw hraw => settled_arrival hgrounded (hbefore.distinct x.other) (he.1 raw hraw)
    · rintro dest localId remoteId rfl hhandles
      exact settled_connect hgrounded hpaired hmatched hhandles
  intro u hu
  unfold streams at hu
  rw [step_near] at hu
  obtain ⟨n, hn⟩ := List.getElem?_of_mem hu
  exact hattends.all n u hn

theorem paired_step (hgrounded : net.Grounded (Honest ids)) (hpaired : net.Paired) {e : Σ x, HostEvent (p x)}
    (he : Carries ids net e) (hmatched : Matched ids (net.step e)) : (net.step e).Paired := by
  obtain ⟨x, e⟩ := e
  have hfar : (net.step ⟨x, e⟩).streams x.other = net.streams x.other :=
    congrArg (fun h => h.socket.tasks) (step_far net (Side.other_ne x) e)
  have hnear := step_settled hgrounded hpaired he hmatched
  intro y u hu hfaces
  by_cases heq : y = x
  · subst heq
    rw [hfar]
    exact ((hnear u hu).2 hfaces).2
  · -- the other side has not moved; its partner has
    obtain rfl : y = x.other := by
      revert heq
      cases x <;> cases y <;> intro heq <;> first | rfl | exact absurd rfl heq
    rw [hfar] at hu
    have hold := hpaired x.other u hu hfaces
    rw [Side.other_other] at *
    constructor
    · intro v hv haddr hlocal hremote
      have hpair := ((hnear v hv).2 haddr).2.both u hu ?_ hremote.symm hlocal.symm
      · exact hpair.swap
      · rw [Faces, Side.other_other] at hfaces
        exact hfaces
    · intro halone start
      apply hold.alone
      intro v hv haddr hlocal
      obtain ⟨v', hv', hends⟩ := step_streams_mem hgrounded ⟨x, e⟩ hv
      exact halone v' hv' (hends.remoteAddr.trans haddr) (hends.localId.trans hlocal)

/-! ### Runs -/

/-- The network after a run in which it was honest. -/
def Reachable (ids : UInt32 → Prop) (net : Network p) : Prop :=
  ∃ (addr : Side → SocketAddr) (start maxGsoSegments : Side → Nat) (earlier : Side → Option Int)
      (events : List (Σ x, HostEvent (p x))),
    Runs.Along step (Carries ids) (.bind addr start maxGsoSegments earlier) events ∧
      net = Runs.run step (.bind addr start maxGsoSegments earlier) events

theorem Reachable.paired (hreachable : net.Reachable ids) (hmatched : Matched ids net) : net.Paired := by
  obtain ⟨addr, start, maxGsoSegments, earlier, events, hcarries, rfl⟩ := hreachable
  refine Runs.along_invariant_bounded (Grounded (Honest ids)) Paired (Matched ids) ?_
    (fun _ _ hgrounded _ => matched_back hgrounded) ?_ ?_ ?_ hcarries hmatched
  · exact fun _ _ hgrounded he => grounded_step hgrounded he.2
  · exact fun _ _ hgrounded hpaired => paired_step hgrounded hpaired
  · exact fun y => Host.bind_grounded _ _ _ _
  · exact fun y u hu => absurd hu List.not_mem_nil

/-- Two streams that are connected to each other. -/
structure Mutual (net : Network p) (x : Side) (u v : UdxStream) : Prop where
  near : u ∈ net.streams x
  far : v ∈ net.streams x.other
  faces : net.Faces x u
  facesBack : net.Faces x.other v
  id : v.inner.localId = u.inner.remoteId

theorem Paired.pair (hpaired : net.Paired) (hmatched : Matched ids net) {x : Side} {u v : UdxStream}
    (h : net.Mutual x u v) : Pair.Reachable ⟨u, v⟩ := by
  have hremote := (hmatched.agreed x u h.near v h.far h.faces h.facesBack).mpr h.id
  have haddr : v.inner.remoteAddr = net.addr x.other.other := h.facesBack
  rw [Side.other_other] at haddr
  exact (hpaired x u h.near h.faces).both v h.far haddr h.id hremote

section Decidable

theorem relays_send {sent : Side → Dgram → Prop} {strange : Side → Arrival → Prop} {x : Side} {dest : SocketAddr}
    {buf : List UInt8} : Relays sent strange net ⟨x, .send dest buf⟩ ↔ sent x ⟨buf, dest⟩ := by
  constructor
  · exact fun h => h.2 dest buf rfl
  · intro h
    refine ⟨nofun, ?_⟩
    rintro _ _ ⟨⟩
    exact h

instance (net : Network p) (x : Side) (raw : Arrival) : Decidable (net.OnWire x raw) :=
  inferInstanceAs (Decidable (∃ transmit ∈ (net.host x.other).wire, transmit.destination = net.addr x ∧
    raw.source = net.addr x.other ∧ raw.data ∈ transmit.datagrams))

instance decidableRelays {sent : Side → Dgram → Prop} {strange : Side → Arrival → Prop}
    [∀ x dgram, Decidable (sent x dgram)] [∀ x raw, Decidable (strange x raw)] (net : Network p) :
    ∀ e : Σ x, HostEvent (p x), Decidable (Relays sent strange net e)
  | ⟨x, .send dest buf⟩ => decidable_of_iff (sent x ⟨buf, dest⟩) relays_send.symm
  | ⟨x, .poll cx⟩ => decidable_of_iff (∀ raw ∈ (p x).datagrams cx.readable, net.OnWire x raw ∨ strange x raw)
      ⟨fun h => ⟨h, nofun⟩, fun h => h.1⟩
  | ⟨_, .connect _ _ _⟩ | ⟨_, .stream _ _⟩ | ⟨_, .recv _⟩ | ⟨_, .clone⟩ | ⟨_, .drop⟩ | ⟨_, .tick _⟩ =>
      isTrue ⟨nofun, nofun⟩

variable [DecidablePred ids]

instance (data : List UInt8) : Decidable (Foreign ids data) :=
  inferInstanceAs (Decidable (WellFormed data → ¬ids (headerAt data).streamId))

instance (x : Side) (dgram : Dgram) : Decidable (Honest ids x dgram) :=
  inferInstanceAs (Decidable (Foreign ids dgram.buf))

instance (net : Network p) (e : Σ x, HostEvent (p x)) : Decidable (Carries ids net e) :=
  inferInstanceAs (Decidable (Relays (Honest ids) (fun _ raw => Foreign ids raw.data) net e))

instance (net : Network p) (x : Side) (u : UdxStream) : Decidable (net.Faces x u) :=
  inferInstanceAs (Decidable (u.inner.remoteAddr = net.addr x.other))

instance (P : Side → Prop) [DecidablePred P] : Decidable (∀ x, P x) :=
  decidable_of_iff (P .a ∧ P .b) ⟨fun h x => by cases x; exacts [h.1, h.2], fun h => ⟨h .a, h .b⟩⟩

instance (net : Network p) : Decidable (Matched ids net) :=
  decidable_of_iff ((∀ x, ∀ u ∈ net.streams x, ids u.inner.localId) ∧
    (∀ x, ((net.streams x).map fun u => u.inner.localId).Nodup) ∧
    ∀ x, ∀ u ∈ net.streams x, ∀ v ∈ net.streams x.other, net.Faces x u → net.Faces x.other v →
      (v.inner.remoteId = u.inner.localId ↔ v.inner.localId = u.inner.remoteId))
    ⟨fun h => ⟨h.1, h.2.1, h.2.2⟩, fun h => ⟨h.known, h.distinct, h.agreed⟩⟩

end Decidable

/-- Two hosts with a stream each. A datagram of the user and a packet of the stream leave in one batch and arrive in
the other order, the packet twice. -/
def exchange : List (Σ _ : Side, HostEvent .linux) :=
  let packet : Arrival :=
    ⟨⟨.v4 0, 1⟩, [255, 1, 1, 0, 2, 0, 0, 0, 255, 255, 255, 255, 0, 0, 0, 0, 0, 0, 0, 0, 1, 2, 3]⟩
  let readable : Platform.linux.RecvScript :=
    ([.ready [.ok [packet, ⟨⟨.v4 0, 1⟩, [7]⟩, packet]]] : List (Readiness (Except RecvErrno (List Arrival))))
  let writable : Platform.linux.SendScript := ([.ready [.ok 2]] : List (Readiness (Except Errno Nat)))
  let quiet : Platform.linux.RecvScript := ([] : List (Readiness (Except RecvErrno (List Arrival))))
  [⟨.a, .connect ⟨.v4 0, 2⟩ 1 2⟩, ⟨.b, .connect ⟨.v4 0, 1⟩ 2 1⟩, ⟨.a, .send ⟨.v4 0, 2⟩ [7]⟩,
    ⟨.a, .stream 0 (.write 0 [1, 2, 3])⟩, ⟨.a, .stream 0 (.poll 0 0 10 64)⟩,
    ⟨.a, .poll ⟨0, 10, 0, 10, quiet, writable, 0⟩⟩, ⟨.b, .poll ⟨0, 10, 0, 10, readable, writable, 0⟩⟩,
    ⟨.b, .stream 0 (.poll 0 0 10 64)⟩, ⟨.b, .stream 0 (.read 0 8)⟩]

def exchangeAddr : Side → SocketAddr
  | .a => ⟨.v4 0, 1⟩
  | .b => ⟨.v4 0, 2⟩

/-- The ids of the two streams. -/
def exchangeIds (localId : UInt32) : Prop := localId = 1 ∨ localId = 2

instance : DecidablePred exchangeIds := fun localId => inferInstanceAs (Decidable (localId = 1 ∨ localId = 2))

def exchangeStart : Network fun _ => .linux := .bind exchangeAddr (fun _ => 0) (fun _ => 64) fun _ => none

theorem exchange_carries : Runs.Along step (Carries exchangeIds) exchangeStart exchange := by decide +kernel

theorem exchange_matched : Matched exchangeIds (Runs.run step exchangeStart exchange) := by decide +kernel

theorem exchange_mutual : let net := Runs.run step exchangeStart exchange
    ∃ u ∈ net.streams .a, ∃ v ∈ net.streams .b, net.Faces .a u ∧ net.Faces .b v ∧
      v.inner.localId = u.inner.remoteId ∧ v.deliveredBytes = [1, 2, 3] ∧ FewCreated u.inner ∧ FewCreated v.inner := by
  decide +kernel

/-- **Streams over shared sockets refine the pair.** In every run of two hosts, of any platforms, with any number of
streams on each socket, two streams that are connected to each other are in a state that they reach alone, over a
network that only loses, duplicates and reorders their packets. -/
theorem mutual_streams_refine_pair (hreachable : net.Reachable ids) (hmatched : Matched ids net) {x : Side}
    {u v : UdxStream} (h : net.Mutual x u v) : Pair.Reachable ⟨u, v⟩ :=
  (hreachable.paired hmatched).pair hmatched h

theorem mutual_streams_refine_exchange : let net := Runs.run step exchangeStart exchange
    ∃ u v, net.Mutual .a u v ∧ v.deliveredBytes = [1, 2, 3] ∧ Pair.Reachable ⟨u, v⟩ := by
  obtain ⟨u, hu, v, hv, hfaces, hfaces', hid, hread, -⟩ := exchange_mutual
  refine ⟨u, v, ⟨hu, hv, hfaces, hfaces', hid⟩, hread, ?_⟩
  exact mutual_streams_refine_pair ⟨_, _, _, _, _, exchange_carries, rfl⟩ exchange_matched
    ⟨hu, hv, hfaces, hfaces', hid⟩

/-- **Reliable delivery between hosts.** What a stream reads is a prefix of what its partner on the other host has
accepted, and when the driver of one has completed, the other has received everything. -/
theorem mutual_streams_deliver (hreachable : net.Reachable ids) (hmatched : Matched ids net) {x : Side}
    {u v : UdxStream} (h : net.Mutual x u v) (hfew : FewCreated u.inner) (hfew' : FewCreated v.inner) :
    v.deliveredBytes <+: u.accepted ∧ u.inner.remoteAcked ≤ v.inner.ack ∧ v.inner.ack ≤ u.inner.seq ∧
      (u.driver = .completed → v.inner.ack = u.inner.seq) := by
  have hagreed : Agreed u v := ((hreachable.paired hmatched).pair hmatched h).agreed .a hfew hfew'
  refine ⟨?_, hagreed.unforgotten.remoteAcked_le, hagreed.flow.ack_le_seq, fun hcompleted => ?_⟩
  · rw [hagreed.flow.accepted]
    exact hagreed.flow.receives.delivered_prefix
  · exact hagreed.ack_eq (hagreed.completed hcompleted).2

theorem mutual_streams_deliver_exchange : let net := Runs.run step exchangeStart exchange
    ∃ u v, net.Mutual .a u v ∧ v.deliveredBytes = [1, 2, 3] ∧ v.deliveredBytes <+: u.accepted := by
  obtain ⟨u, hu, v, hv, hfaces, hfaces', hid, hread, hfew, hfew'⟩ := exchange_mutual
  refine ⟨u, v, ⟨hu, hv, hfaces, hfaces', hid⟩, hread, ?_⟩
  exact (mutual_streams_deliver ⟨_, _, _, _, _, exchange_carries, rfl⟩ exchange_matched ⟨hu, hv, hfaces, hfaces', hid⟩
    hfew hfew').1

end Network

end AsyncUdx
