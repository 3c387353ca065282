import AsyncUdx.EndAnswer
import AsyncUdx.PairEcho

/-! Two terminated streams that never stop talking. While each of them has a data packet that the other one has not
received, neither of them is drained, so each END that is delivered is answered by another one. The run that does this
is built from a single END that goes to and fro, and it makes the condition under which the exchange dies out exact. -/

namespace AsyncUdx

open Relation UdxStreamInner

variable {now : Nat}

/-! ### Packets that never arrive -/

/-- A stream has not received a data packet, and it is not in its channel. -/
structure Lacks (k : UInt32) (s : UdxStreamInner) : Prop where
  missing : k ∉ s.ghost.received
  channel : ∀ packet ∈ s.recvRx.queue, packet.hasType udxHeaderData = true → packet.seq ≠ k

theorem Move.missing {k : UInt32} {s t : UdxStreamInner}
    (h : Move (fun packet => packet.hasType udxHeaderData = true → packet.seq ≠ k) now s t)
    (hs : k ∉ s.ghost.received) : k ∉ t.ghost.received := by
  cases h with
  | micro h =>
      cases h with
      | ackNext packet hok hlt => rw [UdxStreamInner.ackNext, ackPacket_received]; exact hs
      | sack packet i hok htype => rw [ackPacket_received]; exact hs
      | data packet hok htype =>
          change k ∉ s.ghost.received ++ [packet.seq]
          rw [List.mem_append, List.mem_singleton, not_or]
          exact ⟨hs, fun heq => hok htype heq.symm⟩
      | _ => exact hs
  | _ => exact hs

theorem Lacks.step {k : UInt32} {u : UdxStream} (h : Lacks k u.inner) (e : Event)
    (harrive : ∀ header buf source, e = .recv header buf source →
      IncomingPacket.hasType ⟨header, buf, 0, source⟩ udxHeaderData = true →
        IncomingPacket.seq ⟨header, buf, 0, source⟩ ≠ k) : Lacks k (u.step e).inner := by
  have hadvance : Advance (fun packet => packet.hasType udxHeaderData = true → packet.seq ≠ k) u.clock u.inner
    (u.step e).inner := u.step_advance e h.channel harrive
  exact ⟨hadvance.invariant (fun s => k ∉ s.ghost.received) (fun _ _ h => h.missing) (fun _ _ => id) h.missing,
    hadvance.queue h.channel⟩

namespace Pair

/-- Both streams keep answering. -/
structure Endless (q : Pair) : Prop where
  steady : Steady q q
  running : ∀ x, (q.peer x).driver = .running
  recv : ∀ x, (q.peer x).inner.recvRx.closed = false
  send : ∀ x, (q.peer x).inner.sendTx.closed = false
  lacks : ∀ x, ∃ k, k < (q.peer x).inner.seq ∧ Lacks k (q.peer x.other).inner

theorem Endless.going {q : Pair} (hq : Endless q) (x : Side) : (q.peer x).inner.closedAndDrained = false := by
  obtain ⟨k, hk, hlacks⟩ := hq.lacks x
  have hagreed := hq.steady.agreed x
  rw [Bool.eq_false_iff, Ne, closedAndDrained_iff]
  rintro ⟨-, -, hempty⟩
  have hlt := hagreed.unforgotten.lt_of_notMem k hk (AList.notMem_of_isEmpty (List.isEmpty_iff.mpr hempty) k)
  exact hlacks.missing (hagreed.flow.receives.reassembled.least.2 k hlt)

theorem Turn.lacks {q : Pair} {x : Side} {e : PairEvent} {v : UdxStream} (h : Turn q x e v) {k : UInt32}
    (hk : Lacks k (q.peer x).inner)
    (harrive : ∀ packet, q.arrival x e = some packet → packet.header.typ = udxHeaderEnd) : Lacks k v.inner := by
  cases h with
  | idle _ h => exact hk
  | poll waker timerLag budget maxGsoSegments hrunning hbudget hquiet =>
      rw [← UdxStream.call_poll hrunning]
      exact hk.step (.call _) fun _ _ _ h => by cases h
  | arrive n packet hpacket hopen =>
      refine hk.step _ fun header buf source heq htype => ?_
      cases heq
      rw [IncomingPacket.hasType, harrive packet (arrival_eq_some.mpr ⟨n, rfl, hpacket⟩)] at htype
      exact absurd htype (by decide)

theorem Turn.running {q : Pair} (hq : Endless q) {x : Side} {e : PairEvent} {u : UdxStream} (h : Turn q x e u) :
    u.driver = .running := by
  cases h with
  | idle _ h => exact hq.running x
  | poll waker timerLag budget maxGsoSegments hrunning hbudget hquiet =>
      exact (poll_settles hrunning (hq.going x) (hq.recv x) (hq.send x) hquiet).1
  | arrive n packet hpacket hopen => exact hq.running x

/-- Polls and END packets do not stop two streams that keep answering. -/
theorem Endless.step {q : Pair} (hq : Endless q) {e : PairEvent} (he : q.Quiet e)
    (harrive : ∀ x packet, q.arrival x e = some packet → packet.header.typ = udxHeaderEnd) : Endless (q.step e) where
  steady := (hq.steady.step he).self
  running := fun x => (step_turn he x).running hq
  recv := fun x => (congrArg Setting.recvClosed (step_turn he x).setting_eq).trans (hq.recv x)
  send := fun x => (congrArg Setting.sendClosed (step_turn he x).setting_eq).trans (hq.send x)
  lacks := by
    intro x
    obtain ⟨k, hk, hlacks⟩ := hq.lacks x
    have hseq : ((q.step e).peer x).inner.seq = (q.peer x).inner.seq :=
      congrArg Setting.seq (step_turn he x).setting_eq
    exact ⟨k, hseq ▸ hk, (step_turn he x.other).lacks hlacks (harrive x.other)⟩

/-- Each side addresses the other one. -/
theorem Reachable.remoteId_eq {p : Pair} (hp : p.Reachable) (x : Side) :
    (p.peer x).inner.remoteId = (p.peer x.other).inner.localId := by
  have hstep : ∀ (q : Pair) (e : PairEvent) (x : Side),
      ((q.step e).peer x).inner.remoteId = (q.peer x).inner.remoteId ∧
        ((q.step e).peer x).inner.localId = (q.peer x).inner.localId := by
    intro q e x
    have hlink := step_link q e x
    generalize (q.step e).peer x = u, (q.step e).peer x.other = v at hlink
    cases hlink with
    | near c => exact ⟨UdxStream.step_remoteId _ _, UdxStream.step_localId _ _⟩
    | back packet harrives => exact ⟨UdxStream.step_remoteId _ _, UdxStream.step_localId _ _⟩
    | _ => exact ⟨rfl, rfl⟩
  obtain ⟨startA, startB, addrA, addrB, idA, idB, events, rfl⟩ := hp
  refine List.foldlRecOn (motive := fun q : Pair => ∀ x, (q.peer x).inner.remoteId = (q.peer x.other).inner.localId)
    events Pair.step ?_ (fun q hq e _ x => ?_) x
  · intro x
    cases x <;> rfl
  · rw [(hstep q e x).1, (hstep q e x.other).2]
    exact hq x

/-- What a side has transmitted can be delivered, if it is encoded and addressed to the other side. -/
theorem Reachable.datagram_eq {p : Pair} (hp : p.Reachable) {x : Side} {n : Nat} {ref : PacketRef}
    (href : (p.peer x).sent[n]? = some ref) (hencoded : ref.deref.Encoded)
    (hid : ref.deref.header.streamId = (p.peer x).inner.remoteId) :
    p.datagram x n = some ⟨ref.deref.header, ref.deref.body, 0, (p.peer x.other).inner.remoteAddr⟩ := by
  unfold Pair.datagram
  rw [show (transmitted (p.peer x).inner.sendTx.events)[n]? = some ref from href]
  dsimp only
  rw [IncomingPacket.ofDatagram_encoded hencoded]
  dsimp only
  rw [if_pos (hid.trans (hp.remoteId_eq x))]

theorem Steady.datagram_eq {p q : Pair} (hq : Steady p q) {x : Side} {n : Nat} {ref : PacketRef}
    (href : (q.peer x).sent[n]? = some ref) (hid : ref.deref.header.streamId = (q.peer x).inner.remoteId) :
    ∃ packet, q.datagram x n = some packet ∧ packet.header = ref.deref.header := by
  have hemits := (hq.agreed x).flow.emits
  have hencoded := hemits.encoded (hemits.sent ref (List.mem_of_getElem? href))
  exact ⟨_, hq.reachable.datagram_eq href hencoded hid, rfl⟩

/-- A poll of a side that takes as many packets as it may and does not see its timer expire. -/
def pollEvent (q : Pair) (x : Side) (budget : Nat) : PairEvent :=
  .call x (.poll 0 ((q.peer x).clock + 1) budget 1)

theorem pollEvent_quiet (q : Pair) (x : Side) {budget : Nat} (hbudget : 0 < budget) :
    q.Quiet (q.pollEvent x budget) := by
  refine ⟨hbudget, fun _ _ => Or.inl ?_⟩
  change (q.peer x).clock < _ + ((q.peer x).clock + 1)
  omega

theorem pollEvent_other (q : Pair) (x : Side) (budget : Nat) :
    (q.step (q.pollEvent x budget)).peer x.other = q.peer x.other := by
  cases x <;> rfl

theorem Endless.pollEvent {q : Pair} (hq : Endless q) (x : Side) {budget : Nat} (hbudget : 0 < budget) :
    Endless (q.step (q.pollEvent x budget)) :=
  hq.step (q.pollEvent_quiet x hbudget) fun _ _ h => by cases h

/-- Such a poll of a running driver is a poll of the stream. -/
theorem pollEvent_peer {q : Pair} {x : Side} (hrunning : (q.peer x).driver = .running) (budget : Nat) :
    (q.step (q.pollEvent x budget)).peer x =
      (q.peer x).poll ⟨0, (q.peer x).clock, (q.peer x).clock + 1, budget, 1⟩ := by
  rw [pollEvent, Pair.step, peer_set, if_pos rfl]
  exact UdxStream.call_poll hrunning

/-- What such a poll leaves: an empty queue, and the channel without the packets it took. -/
theorem Endless.poll_peer {q : Pair} (hq : Endless q) (x : Side) {budget : Nat} (hbudget : 0 < budget) :
    ((q.step (q.pollEvent x budget)).peer x).inner.sendQueue = [] ∧
      ((q.step (q.pollEvent x budget)).peer x).inner.recvRx.queue = (q.peer x).inner.recvRx.queue.drop budget := by
  rw [pollEvent_peer (hq.running x)]
  refine ⟨(poll_settles (hq.running x) (hq.going x) (hq.recv x) (hq.send x) (q.pollEvent_quiet x hbudget).2).2.1, ?_⟩
  rw [UdxStream.poll_recvRx _ (hq.going x)]

/-! ### The endless run -/

/-- An END packet on its way between two streams: who has transmitted it, the how manieth of its packets it is, and
whether it is still on the network or in the channel of the receiver. -/
structure Ball where
  pair : Pair
  side : Side
  index : Nat
  flying : Bool

namespace Ball

/-- The packet is delivered, or the receiver is polled. -/
def event (b : Ball) : PairEvent :=
  if b.flying then .deliver b.side b.index else b.pair.pollEvent b.side.other 1

/-- The answer of the receiver is the next packet on its way. -/
def next (b : Ball) : Ball :=
  if b.flying then { b with pair := b.pair.step b.event, flying := false }
  else
    { pair := b.pair.step b.event
      side := b.side.other
      index := (b.pair.peer b.side.other).sent.length
      flying := true }

/-- Nothing but the packet is on its way. -/
structure InPlay (b : Ball) : Prop where
  endless : b.pair.Endless
  idle : ∀ x, (b.pair.peer x).inner.sendQueue = []
  empty : (b.pair.peer b.side).inner.recvRx.queue = []
  air : b.flying = true → (b.pair.peer b.side.other).inner.recvRx.queue = [] ∧
    ∃ ref, (b.pair.peer b.side).sent[b.index]? = some ref ∧ IsEnd (b.pair.peer b.side).inner.remoteId ref.deref
  ground : b.flying = false → ∃ packet, (b.pair.peer b.side.other).inner.recvRx.queue = [packet] ∧
    packet.header.typ = udxHeaderEnd

theorem InPlay.datagram {b : Ball} (hb : b.InPlay) (hflying : b.flying = true) :
    ∃ packet, b.pair.datagram b.side b.index = some packet ∧ packet.header.typ = udxHeaderEnd := by
  obtain ⟨-, ref, href, hend⟩ := hb.air hflying
  obtain ⟨packet, hpacket, hheader⟩ := hb.endless.steady.datagram_eq href hend.streamId
  exact ⟨packet, hpacket, by rw [hheader]; exact hend.typ⟩

theorem InPlay.quiet {b : Ball} (hb : b.InPlay) : b.pair.Quiet b.event := by
  unfold event
  split
  · exact hb.endless.recv _
  · exact b.pair.pollEvent_quiet _ Nat.one_pos

/-- A packet on the network lands in the channel of the receiver. -/
theorem InPlay.lands {b : Ball} (hb : b.InPlay) (hflying : b.flying = true) : b.next.InPlay := by
  obtain ⟨packet, hpacket, htype⟩ := hb.datagram hflying
  have hevent : b.event = .deliver b.side b.index := if_pos hflying
  have hnext : b.next = { b with pair := b.pair.step (.deliver b.side b.index), flying := false } := by
    rw [next, if_pos hflying, hevent]
  have hstep : b.pair.step (.deliver b.side b.index) = b.pair.set b.side.other
      ((b.pair.peer b.side.other).step (.recv packet.header packet.buf packet.source)) := by
    rw [Pair.step, hpacket]
  have hendless : (b.pair.step (.deliver b.side b.index)).Endless := by
    refine hb.endless.step (hevent ▸ hb.quiet) fun x other hother => ?_
    obtain ⟨n, hn, hdatagram⟩ := arrival_eq_some.mp hother
    injection hn with hside hindex
    rw [← hside, ← hindex, hpacket] at hdatagram
    cases hdatagram
    exact htype
  rw [hnext]
  refine ⟨hendless, fun x => ?_, ?_, fun h => (by cases h),
    fun _ => ⟨⟨packet.header, packet.buf, 0, packet.source⟩, ?_, htype⟩⟩
  · dsimp only
    rw [hstep, peer_set]
    split
    · rename_i hx
      exact hb.idle _
    · exact hb.idle x
  · dsimp only
    rw [hstep, peer_set, if_neg (by cases b.side <;> decide)]
    exact hb.empty
  · dsimp only
    rw [hstep, peer_set, if_pos rfl]
    change (b.pair.peer b.side.other).inner.recvRx.queue ++ [_] = _
    rw [(hb.air hflying).1]
    rfl

/-- A packet in the channel of the receiver is answered by the next one. -/
theorem InPlay.returns {b : Ball} (hb : b.InPlay) (hground : b.flying = false) : b.next.InPlay := by
  obtain ⟨packet, hqueue, htype⟩ := hb.ground hground
  have hnot : ¬b.flying = true := by rw [hground]; decide
  let q := b.pair.step (b.pair.pollEvent b.side.other 1)
  have hnext : b.next = ⟨q, b.side.other, (b.pair.peer b.side.other).sent.length, true⟩ := by
    rw [next, if_neg hnot, event, if_neg hnot]
  have hother : q.peer b.side = b.pair.peer b.side := by
    have h := b.pair.pollEvent_other b.side.other 1
    rwa [Side.other_other] at h
  obtain ⟨hidle, hempty⟩ := hb.endless.poll_peer b.side.other Nat.one_pos
  rw [hnext]
  refine ⟨hb.endless.pollEvent _ Nat.one_pos, fun x => ?_, ?_, fun _ => ⟨?_, ?_⟩, fun h => by cases h⟩
  · by_cases hx : x = b.side.other
    · rw [hx]
      exact hidle
    · have hx' : x = b.side := by
        revert hx
        cases x <;> cases b.side <;> decide
      rw [hx']
      dsimp only
      rw [hother]
      exact hb.idle _
  · dsimp only
    rw [hempty, hqueue]
    rfl
  · dsimp only
    rw [Side.other_other, hother]
    exact hb.empty
  · obtain ⟨ref, href, hend⟩ := poll_answers_end (hb.endless.running b.side.other) (hb.endless.going _)
      (hb.endless.recv _) (hb.endless.send _) (b.pair.pollEvent_quiet b.side.other Nat.one_pos).2
      (hb.endless.steady.firewall _) (hb.idle _) rfl hqueue htype
    have hremote : (q.peer b.side.other).inner.remoteId = (b.pair.peer b.side.other).inner.remoteId := by
      change ((b.pair.step _).peer _).inner.remoteId = _
      rw [pollEvent, Pair.step, peer_set, if_pos rfl]
      exact UdxStream.step_remoteId _ (.call _)
    dsimp only
    refine ⟨ref, ?_, hremote ▸ hend⟩
    rw [show q.peer b.side.other = _ from pollEvent_peer (hb.endless.running _) 1]
    exact href

theorem InPlay.next {b : Ball} (hb : b.InPlay) : b.next.InPlay := by
  cases hflying : b.flying with
  | true => exact hb.lands hflying
  | false => exact hb.returns hflying

/-- The packet that is on its way after so many events. -/
def after (b : Ball) (n : Nat) : Ball := Ball.next^[n] b

theorem after_succ (b : Ball) (n : Nat) : b.after (n + 1) = (b.after n).next :=
  Function.iterate_succ_apply' _ _ _

theorem InPlay.after {b : Ball} (hb : b.InPlay) (n : Nat) : (b.after n).InPlay := by
  induction n with
  | zero => exact hb
  | succ n ih => rw [after_succ]; exact ih.next

theorem next_pair (b : Ball) : b.next.pair = b.pair.step b.event := by
  unfold next
  split <;> rfl

theorem next_flying (b : Ball) : b.next.flying = !b.flying := by
  unfold next
  split
  · rename_i h
    rw [h]
    rfl
  · rename_i h
    rw [Bool.eq_false_iff.mpr h]
    rfl

theorem states_eq (b : Ball) (n : Nat) :
    Runs.states step b.pair (fun i => (b.after i).event) n = (b.after n).pair := by
  induction n with
  | zero => rfl
  | succ n ih => rw [Runs.states, ih, after_succ, next_pair]

theorem event_deliver {b : Ball} {x : Side} {n : Nat} (h : b.event = .deliver x n) :
    b.flying = true ∧ b.side = x ∧ b.index = n := by
  unfold event at h
  split at h
  · rename_i hflying
    injection h with hside hindex
    exact ⟨hflying, hside, hindex⟩
  · cases h

theorem InPlay.index_lt {b : Ball} (hb : b.InPlay) (hflying : b.flying = true) :
    b.index < (b.pair.peer b.side).sent.length := by
  obtain ⟨-, ref, href, -⟩ := hb.air hflying
  exact (List.getElem?_eq_some_iff.mp href).1

/-- A packet that takes off is the last one of its side. -/
theorem next_index {b : Ball} (hflying : b.next.flying = true) :
    b.next.index = (b.pair.peer b.next.side).sent.length := by
  have hground : ¬b.flying = true := by
    intro h
    rw [next_flying, h] at hflying
    cases hflying
  rw [next, if_neg hground]

theorem InPlay.sent_mono {b : Ball} (hb : b.InPlay) (x : Side) :
    Monotone fun n => ((b.after n).pair.peer x).sent.length := by
  refine monotone_nat_of_le_succ fun n => ?_
  rw [after_succ, next_pair]
  exact (step_turn (hb.after n).quiet x).sent_grows.length_le

/-- No packet is delivered twice: the index of each later one of the side is greater. -/
theorem InPlay.index_mono {b : Ball} (hb : b.InPlay) {i j : Nat} (hij : i < j) (hi : (b.after i).flying = true)
    (hj : (b.after j).flying = true) (hside : (b.after i).side = (b.after j).side) :
    (b.after i).index < (b.after j).index := by
  obtain ⟨k, rfl⟩ := Nat.exists_eq_add_one_of_ne_zero (Nat.ne_zero_of_lt hij)
  have hlt := (hb.after i).index_lt hi
  have hle := hb.sent_mono (b.after i).side (Nat.le_of_lt_succ hij)
  rw [after_succ] at hj hside ⊢
  rw [next_index hj, ← hside]
  exact hlt.trans_le hle

/-- The packets that go to and fro make up a run. -/
theorem InPlay.exchange {b : Ball} (hb : b.InPlay) : b.pair.Exchange fun i => (b.after i).event where
  quiet := by
    intro i
    rw [states_eq]
    exact (hb.after i).quiet
  once := by
    intro i j x n hi hj
    obtain ⟨hflying, hside, hindex⟩ := event_deliver hi
    obtain ⟨hflying', hside', hindex'⟩ := event_deliver hj
    rcases Nat.lt_trichotomy i j with hlt | rfl | hlt
    · have hless := hb.index_mono hlt hflying hflying' (hside.trans hside'.symm)
      omega
    · rfl
    · have hless := hb.index_mono hlt hflying' hflying (hside'.trans hside.symm)
      omega

theorem InPlay.delivers {b : Ball} (hb : b.InPlay) (hflying : b.flying = true) : b.pair.Delivers b.event := by
  obtain ⟨packet, hpacket, -⟩ := hb.datagram hflying
  refine ⟨b.side.other, Option.isSome_iff_exists.mpr ⟨packet, arrival_eq_some.mpr ⟨b.index, ?_, ?_⟩⟩⟩
  · rw [event, if_pos hflying, Side.other_other]
  · rw [Side.other_other, hpacket]

/-- In that run packets are delivered again and again. -/
theorem InPlay.not_echoFree {b : Ball} (hb : b.InPlay) : ¬b.pair.EchoFree := by
  intro hfree
  refine Set.infinite_of_forall_exists_gt (fun n => ?_) (hfree _ hb.exchange)
  have hdelivers : ∀ m, (b.after m).flying = true →
      (Runs.states step b.pair (fun i => (b.after i).event) m).Delivers (b.after m).event := by
    intro m hm
    rw [states_eq]
    exact (hb.after m).delivers hm
  cases hflying : (b.after (n + 1)).flying with
  | true => exact ⟨n + 1, hdelivers _ hflying, by omega⟩
  | false =>
      refine ⟨n + 2, hdelivers _ ?_, by omega⟩
      rw [after_succ, next_flying, hflying]
      rfl

end Ball

/-- A poll does not lead to an endless run. -/
theorem EchoFree.poll {p : Pair} (hp : p.EchoFree) (x : Side) {budget : Nat} (hbudget : 0 < budget) :
    (p.step (p.pollEvent x budget)).EchoFree := by
  intro events hrun
  have hlonger : p.Exchange (Runs.cons (p.pollEvent x budget) events) := by
    refine ⟨fun i => ?_, fun i j y n hi hj => ?_⟩
    · cases i with
      | zero => exact p.pollEvent_quiet x hbudget
      | succ i => rw [Runs.states_cons]; exact hrun.quiet i
    · cases i with
      | zero => cases hi
      | succ i =>
          cases j with
          | zero => cases hj
          | succ j => exact congrArg (· + 1) (hrun.once i j y n hi hj)
  refine ((hp _ hlonger).preimage Nat.succ_injective.injOn).subset fun i hi => ?_
  change (Runs.states step p _ (i + 1)).Delivers (events i)
  rw [Runs.states_cons]
  exact hi

theorem Steady.endless {p : Pair} (hp : Steady p p) (h : ∀ x, Sustains (p.peer x) (p.peer x.other)) : Endless p where
  steady := hp
  running := fun x => (h x).running
  recv := fun x => (h x).recv
  send := fun x => (h x).send
  lacks := by
    intro x
    obtain ⟨k, hack, hk, hincoming, hqueue⟩ := (h x).missing
    refine ⟨k, hk, fun hmem => hincoming ?_, hqueue⟩
    have hreassembled := (hp.agreed x).flow.receives.reassembled
    exact (hreassembled.keys_iff k).mpr ⟨hmem, UInt32.le_trans hreassembled.cursor_le hack⟩

/-- Two streams that keep answering, with empty channels: the END of one of them is delivered first. -/
theorem Endless.inPlay {q : Pair} (hq : Endless q) (hidle : ∀ x, (q.peer x).inner.sendQueue = [])
    (hempty : ∀ x, (q.peer x).inner.recvRx.queue = []) : ∃ b : Ball, b.pair = q ∧ b.InPlay := by
  obtain ⟨ref, href, hend⟩ := announced_reachable (hq.steady.reachable.peer .a) (hq.steady.terminated .a) (hq.send .a)
  rw [hidle, or_iff_left List.not_mem_nil] at href
  obtain ⟨n, hn⟩ := List.getElem?_of_mem href
  exact ⟨⟨q, .a, n, true⟩, rfl, hq, hidle, hempty .a, fun _ => ⟨hempty _, ref, hn, hend⟩, fun h => by cases h⟩

/-- **An echo.** When both sides keep answering, there is a run in which packets are delivered without end. -/
theorem not_echoFree {p : Pair} (hp : Steady p p) (h : ∀ x, Sustains (p.peer x) (p.peer x.other)) : ¬p.EchoFree := by
  intro hfree
  -- first both drivers handle what is in their channels
  let q := p.step (p.pollEvent .a ((p.peer .a).inner.recvRx.queue.length + 1))
  let r := q.step (q.pollEvent .b ((q.peer .b).inner.recvRx.queue.length + 1))
  have hq : Endless q := (hp.endless h).pollEvent .a (Nat.succ_pos _)
  have hr : Endless r := hq.pollEvent .b (Nat.succ_pos _)
  obtain ⟨hidle, hempty⟩ := (hp.endless h).poll_peer .a (Nat.succ_pos (p.peer .a).inner.recvRx.queue.length)
  obtain ⟨hidle', hempty'⟩ := hq.poll_peer .b (Nat.succ_pos (q.peer .b).inner.recvRx.queue.length)
  rw [List.drop_of_length_le (Nat.le_succ _)] at hempty hempty'
  obtain ⟨b, hb, hplay⟩ := hr.inPlay (fun x => by cases x; exacts [hidle, hidle'])
    fun x => by cases x; exacts [hempty, hempty']
  exact hplay.not_echoFree (hb ▸ (hfree.poll .a (Nat.succ_pos _)).poll .b (Nat.succ_pos _))

/-- **No END echo.** Two terminated streams stop talking, however packets are delivered and drivers polled without
timeouts, exactly if one of them does not keep answering. -/
theorem echoFree_iff {p : Pair} (hp : p.Reachable) (hfew : ∀ x, FewCreated (p.peer x).inner)
    (hterminated : ∀ x, (p.peer x).inner.error.isSome = true) :
    p.EchoFree ↔ ∃ x, ¬Sustains (p.peer x) (p.peer x.other) := by
  have hsteady : Steady p p := ⟨hp, hterminated, fun _ => rfl, hfew⟩
  constructor
  · intro hfree
    by_contra hall
    exact not_echoFree hsteady (fun x => Classical.not_not.mp (not_exists.mp hall x)) hfree
  · rintro ⟨x, hx⟩
    exact echoFree_of_not_sustains hsteady hx

/-- Both sides write and `close`, and the data packet of one of them arrives. -/
def halfHeardRun : List PairEvent :=
  [.call .a (.write 0 [1]), .call .b (.write 0 [2]), .call .a .close, .call .b .close, .call .a (.poll 0 0 10 1),
    .deliver .a 0]

theorem echoFree_halfHeardRun :
    let p := Runs.run step (.connect 0 0 ⟨.v4 0, 1⟩ ⟨.v4 0, 2⟩ 1 2) halfHeardRun
    0 ∈ p.a.inner.outgoing ∧ 0 ∈ p.b.inner.outgoing ∧ p.EchoFree := by
  refine ⟨by decide, by decide, ?_⟩
  refine (echoFree_iff ⟨0, 0, ⟨.v4 0, 1⟩, ⟨.v4 0, 2⟩, 1, 2, halfHeardRun, rfl⟩ (fun x => by cases x <;> decide)
    fun x => by cases x <;> decide).mpr ⟨.a, ?_⟩
  rintro ⟨-, -, -, k, -, hk, -, hqueue⟩
  obtain ⟨packet, hpacket, htype, hseq⟩ : ∃ packet ∈
      (Runs.run step (.connect 0 0 ⟨.v4 0, 1⟩ ⟨.v4 0, 2⟩ 1 2) halfHeardRun).b.inner.recvRx.queue,
      packet.hasType udxHeaderData = true ∧ packet.seq = 0 := by decide
  have hzero : k = 0 := by
    have hlt : k < 1 := hk
    exact UInt32.lt_one_iff.mp hlt
  exact hqueue packet hpacket htype (hseq.trans hzero.symm)

/-- Both sides write and `close`, and nothing has arrived yet. -/
def unheardRun : List PairEvent :=
  [.call .a (.write 0 [1]), .call .b (.write 0 [2]), .call .a .close, .call .b .close]

/-- When the data packets are lost, the two streams answer END by END for ever. -/
theorem unheardRun_echoes :
    let p := Runs.run step (.connect 0 0 ⟨.v4 0, 1⟩ ⟨.v4 0, 2⟩ 1 2) unheardRun
    (∀ x, (p.peer x).inner.error.isSome = true) ∧ ¬p.EchoFree := by
  have hterminated : ∀ x,
      ((Runs.run step (.connect 0 0 ⟨.v4 0, 1⟩ ⟨.v4 0, 2⟩ 1 2) unheardRun).peer x).inner.error.isSome = true := by
    intro x
    cases x <;> decide
  refine ⟨hterminated, not_echoFree ⟨⟨0, 0, ⟨.v4 0, 1⟩, ⟨.v4 0, 2⟩, 1, 2, unheardRun, rfl⟩, hterminated,
    fun _ => rfl, fun x => by cases x <;> decide⟩ fun x => ?_⟩
  cases x <;> exact ⟨by decide, by decide, by decide, 0, by decide, by decide, by decide, by decide⟩

end Pair

end AsyncUdx
