import AsyncUdx.CloseFuture
import AsyncUdx.PairDelivery
import AsyncUdx.SendWindow

/-! Agreement on acknowledgements. Every packet a stream has ever put on its way carries an acknowledgement
the stream had reached then, and `ack` only grows, so no stale copy acknowledges too much. A sender that takes
packets out of `outgoing` only on such acknowledgements never forgets one that its peer has not received. -/

namespace AsyncUdx

open Relation UdxStreamInner Reassembly

variable {now : Nat}

/-! ### The acknowledgements a stream sends -/

/-- The fields of a stream that concern the acknowledgements it sends. -/
structure AckSide where
  ack : UInt32
  outgoing : SeqMap Packet
  sendQueue : List PacketRef
  events : List EventOutgoing

def UdxStreamInner.ackSide (s : UdxStreamInner) : AckSide where
  ack := s.ack
  outgoing := s.outgoing
  sendQueue := s.sendQueue
  events := s.sendTx.events

/-- Every packet of a stream, sent or not yet sent, carries an acknowledgement the stream has reached. -/
structure AcksReached (v : AckSide) : Prop where
  outgoing : ∀ k packet, v.outgoing.lookup k = some packet → packet.header.ack ≤ v.ack
  queued : ∀ ref ∈ v.sendQueue, ref.deref.header.ack ≤ v.ack
  sent : ∀ ref ∈ transmitted v.events, ref.deref.header.ack ≤ v.ack

namespace AcksReached

variable {v : AckSide} (hv : AcksReached v)

include hv

theorem mono {ack : UInt32} (hle : v.ack ≤ ack) : AcksReached { v with ack := ack } where
  outgoing := fun k packet h => UInt32.le_trans (hv.outgoing k packet h) hle
  queued := fun ref h => UInt32.le_trans (hv.queued ref h) hle
  sent := fun ref h => UInt32.le_trans (hv.sent ref h) hle

theorem queue {ref : PacketRef} (href : ref.deref.header.ack ≤ v.ack) :
    AcksReached { v with sendQueue := v.sendQueue ++ [ref] } where
  outgoing := hv.outgoing
  queued := by
    intro other hother
    rcases List.mem_append.mp hother with h | h
    · exact hv.queued other h
    · rw [List.mem_singleton] at h
      exact h ▸ href
  sent := hv.sent

theorem put (i : UInt32) {packet : Packet} (hpacket : packet.header.ack ≤ v.ack) :
    AcksReached { v with outgoing := v.outgoing.insert i packet } where
  outgoing := by
    intro k p hp
    rcases AList.lookup_insert_eq_some hp with ⟨-, rfl⟩ | ⟨-, hp⟩
    · exact hpacket
    · exact hv.outgoing k p hp
  queued := hv.queued
  sent := hv.sent

end AcksReached

theorem ackPacket_acksReached {s : UdxStreamInner} (i : UInt32) (hs : AcksReached s.ackSide) :
    AcksReached (s.ackPacket now i).ackSide := by
  unfold ackPacket
  split
  · exact ⟨fun k packet h => hs.outgoing k packet (AList.lookup_erase_eq_some h).2, hs.queued, hs.sent⟩
  · exact hs

/-- With a peer that sends what it has created, `ack` only grows. -/
theorem Micro.ack_le {created : List Packet} (hfew : created.length < 2 ^ 32) {s t : UdxStreamInner}
    (h : Micro (FromPeer created) now s t) (hs : Receives created s.recvSide) : s.ack ≤ t.ack := by
  have ht := h.receives hfew hs
  cases h with
  | ackNext packet hok hlt =>
      rw [UdxStreamInner.ackNext, ackPacket_ack]
      exact UInt32.le_refl _
  | sack packet i hok htype =>
      rw [ackPacket_ack]
      exact UInt32.le_refl _
  | data packet hok htype =>
      -- the new least missing number was missing before
      exact hs.reassembled.least.le_of_notMem fun hmem => ht.reassembled.least.1 (List.mem_append_left _ hmem)
  | _ => exact UInt32.le_refl _

theorem Micro.acksReached {created : List Packet} (hfew : created.length < 2 ^ 32) {s t : UdxStreamInner}
    (h : Micro (FromPeer created) now s t) (hr : Receives created s.recvSide) (hs : AcksReached s.ackSide) :
    AcksReached t.ackSide := by
  have hle := h.ack_le hfew hr
  cases h with
  | ackNext packet hok hlt => exact ackPacket_acksReached _ ⟨hs.outgoing, hs.queued, hs.sent⟩
  | sack packet i hok htype => exact ackPacket_acksReached i hs
  | park i packet hlookup hwaiting hmax hdue => exact hs.put i (hs.outgoing i packet hlookup)
  | requeue i packet hlookup hwaiting hroom =>
      let again : Packet := { packet with waiting := false, queuedAt := now :: packet.queuedAt }
      have hagain : (PacketRef.shared again).deref.header.ack ≤ s.ack := hs.outgoing i packet hlookup
      exact (hs.put i hagain).queue hagain
  | mark i packet sent hlookup => exact hs.put i (hs.outgoing i packet hlookup)
  | finish packet hok htype => exact hs.queue (UInt32.le_refl _)
  | data packet hok htype => exact (hs.mono hle).queue (UInt32.le_refl _)
  | transmit rest sets hrest hsets =>
      refine ⟨hs.outgoing, fun ref href => hs.queued ref (hrest ref href), fun ref href => ?_⟩
      rcases mem_transmitted_append href with h | ⟨set, hset, hmem⟩
      · exact hs.sent ref h
      · exact hs.queued ref (hsets set hset ref hmem)
  | _ => exact hs

theorem Move.acks {created : List Packet} (hfew : created.length < 2 ^ 32) {s t : UdxStreamInner}
    (h : Move (FromPeer created) now s t) (hr : Receives created s.recvSide) (hs : AcksReached s.ackSide) :
    s.ack ≤ t.ack ∧ AcksReached t.ackSide := by
  cases h with
  | micro h => exact ⟨h.ack_le hfew hr, h.acksReached hfew hr hs⟩
  | send body herror hbody hlen hroom =>
      refine ⟨UInt32.le_refl _, ?_⟩
      exact (hs.put _ (UInt32.le_refl _)).queue (UInt32.le_refl _)
  | terminate error => exact ⟨UInt32.le_refl _, hs.queue (UInt32.le_refl _)⟩
  | complete hdone =>
      refine ⟨UInt32.le_refl _, hs.outgoing, hs.queued, fun ref href => hs.sent ref ?_⟩
      exact complete_transmitted s ▸ href
  | _ => exact ⟨UInt32.le_refl _, hs⟩

theorem Advance.acks {created : List Packet} (hfew : created.length < 2 ^ 32) {s t : UdxStreamInner}
    (h : Advance (FromPeer created) now s t) (hr : Receives created s.recvSide) (hs : AcksReached s.ackSide) :
    s.ack ≤ t.ack ∧ AcksReached t.ackSide := by
  have hall := h.invariant
    (fun r => Receives created r.recvSide ∧ s.ack ≤ r.ack ∧ AcksReached r.ackSide)
    (fun r r' hmove hr => by
      have hnext := hmove.acks hfew hr.1 hr.2.2
      exact ⟨(receives_invariant hfew).move _ _ _ hmove hr.1 trivial, UInt32.le_trans hr.2.1 hnext.1, hnext.2⟩)
    (fun _ _ h => h) ⟨hr, UInt32.le_refl _, hs⟩
  exact hall.2

/-! ### What a sender takes as acknowledged -/

/-- A packet that acknowledges nothing from `top` on. -/
structure AcksBelow (top : UInt32) (packet : IncomingPacket) : Prop where
  plain : packet.hasType udxHeaderSack = false
  ack_le : packet.ack ≤ top

/-- A sender takes nothing from `top` on as acknowledged. -/
structure Unforgotten (top : UInt32) (v : SendSide) : Prop where
  remoteAcked_le : v.remoteAcked ≤ top
  lt_of_notMem : ∀ k < v.seq, k ∉ v.outgoing → k < top

theorem Unforgotten.mono {top top' : UInt32} (hle : top ≤ top') {v : SendSide} (hv : Unforgotten top v) :
    Unforgotten top' v where
  remoteAcked_le := UInt32.le_trans hv.remoteAcked_le hle
  lt_of_notMem := fun k hk hnot => UInt32.lt_of_lt_of_le (hv.lt_of_notMem k hk hnot) hle

theorem Unforgotten.put {top : UInt32} {v : SendSide} (hv : Unforgotten top v) (i : UInt32) (packet : Packet) :
    ∀ k < v.seq, k ∉ v.outgoing.insert i packet → k < top :=
  fun k hk hnot => hv.lt_of_notMem k hk fun hmem => hnot ((AList.mem_insert _).mpr (Or.inr hmem))

theorem mem_ackPacket {s : UdxStreamInner} {i k : UInt32} (hk : k ∈ s.outgoing) (hne : k ≠ i) :
    k ∈ (s.ackPacket now i).outgoing := by
  unfold ackPacket
  split
  · exact AList.mem_erase.mpr ⟨hne, hk⟩
  · exact hk

/-- One round of the acknowledgement loop takes out the packet below the new `remote_acked`. -/
theorem ackNext_unforgotten {top : UInt32} {s : UdxStreamInner} (hs : Unforgotten top s.sendSide)
    (hlt : s.remoteAcked < top) : Unforgotten top (s.ackNext now).sendSide where
  remoteAcked_le := by
    change (s.ackNext now).remoteAcked ≤ top
    rw [ackNext_remoteAcked, UInt32.le_iff_toNat_le, Counter.toNat_succ_of_lt hlt]
    exact UInt32.lt_iff_toNat_lt.mp hlt
  lt_of_notMem := by
    intro k hk hnot
    change k < (s.ackNext now).seq at hk
    rw [UdxStreamInner.ackNext, ackPacket_seq] at hk
    by_cases hkey : k = s.remoteAcked
    · rw [hkey]
      exact hlt
    · refine hs.lt_of_notMem k hk fun hmem => hnot (mem_ackPacket hmem ?_)
      rw [Counter.succ_sub_one]
      exact hkey

theorem Micro.unforgotten {top : UInt32} {s t : UdxStreamInner} (h : Micro (AcksBelow top) now s t)
    (hs : Unforgotten top s.sendSide) : Unforgotten top t.sendSide := by
  cases h with
  | ackNext packet hok hlt => exact ackNext_unforgotten hs (UInt32.lt_of_lt_of_le hlt hok.ack_le)
  | sack packet i hok htype => exact absurd htype (by rw [hok.plain]; decide)
  | park i packet hlookup hwaiting hmax hdue => exact ⟨hs.remoteAcked_le, hs.put i _⟩
  | requeue i packet hlookup hwaiting hroom => exact ⟨hs.remoteAcked_le, hs.put i _⟩
  | mark i packet sent hlookup => exact ⟨hs.remoteAcked_le, hs.put i _⟩
  | _ => exact ⟨hs.remoteAcked_le, hs.lt_of_notMem⟩

theorem Move.unforgotten {top : UInt32} {s t : UdxStreamInner} (h : Move (AcksBelow top) now s t)
    (hs : Unforgotten top s.sendSide) : Unforgotten top t.sendSide := by
  cases h with
  | micro h => exact h.unforgotten hs
  | send body herror hbody hlen hroom =>
      refine ⟨hs.remoteAcked_le, fun k hk hnot => ?_⟩
      change k < s.seq + 1 at hk
      change k ∉ s.outgoing.insert s.seq _ at hnot
      rw [AList.mem_insert, not_or] at hnot
      refine hs.lt_of_notMem k ?_ hnot.2
      have hne : k.toNat ≠ s.seq.toNat := fun heq => hnot.1 (UInt32.toNat.inj heq)
      rw [UInt32.lt_iff_toNat_lt, UInt32.toNat_add] at hk
      have hmod := Nat.mod_le (s.seq.toNat + (1 : UInt32).toNat) (2 ^ 32)
      have hone : (1 : UInt32).toNat = 1 := rfl
      change k < s.seq
      rw [UInt32.lt_iff_toNat_lt]
      omega
  | _ => exact hs

/-! ### Both directions -/

/-- A stream and its peer, with the acknowledgements on their way to the stream. -/
structure Agreed (u v : UdxStream) : Prop where
  flow : Flow u v
  back : Flow v u
  acks : AcksReached v.inner.ackSide
  channel : ∀ packet ∈ u.inner.recvRx.queue, packet.ack ≤ v.inner.ack
  unforgotten : Unforgotten v.inner.ack u.inner.sendSide
  completed : u.driver = .completed → Drained u.inner

/-- A step of the sender. -/
theorem Agreed.near {u v : UdxStream} (h : Agreed u v) (e : Event)
    (harrive : ∀ header buf source, e = .recv header buf source →
      FromPeer v.inner.ghost.created ⟨header, buf, 0, source⟩ ∧ header.ack ≤ v.inner.ack)
    (hfew : FewCreated (u.step e).inner) (hfew' : FewCreated v.inner) : Agreed (u.step e) v := by
  have hqueue : ∀ packet ∈ u.inner.recvRx.queue, AcksBelow v.inner.ack packet := fun packet hpacket =>
    ⟨(h.back.channel packet hpacket).plain, h.channel packet hpacket⟩
  have hadvance : Advance (AcksBelow v.inner.ack) u.clock u.inner (u.step e).inner :=
    u.step_advance e hqueue fun header buf source heq =>
      ⟨(harrive header buf source heq).1.plain, (harrive header buf source heq).2⟩
  constructor
  · exact h.flow.near e hfew
  · exact h.back.far e (fun header buf source heq => (harrive header buf source heq).1) hfew'
  · exact h.acks
  · exact fun packet hpacket => (hadvance.queue hqueue packet hpacket).ack_le
  · exact hadvance.invariant (fun s => Unforgotten v.inner.ack s.sendSide) (fun _ _ h => h.unforgotten)
      (fun _ _ => id) h.unforgotten
  · intro hdone
    rcases step_completed hdone with hbefore | hdrained
    · exact step_drained e (h.completed hbefore)
    · exact step_drained e (closedAndDrained_spec hdrained)

/-- A step of the peer. -/
theorem Agreed.far {u v : UdxStream} (h : Agreed u v) (e : Event)
    (harrive : ∀ header buf source, e = .recv header buf source →
      FromPeer u.inner.ghost.created ⟨header, buf, 0, source⟩)
    (hfew : FewCreated u.inner) (hfew' : FewCreated (v.step e).inner) : Agreed u (v.step e) := by
  have hadvance : Advance (FromPeer u.inner.ghost.created) v.clock v.inner (v.step e).inner :=
    v.step_advance e h.flow.channel harrive
  obtain ⟨hle, hacks⟩ := hadvance.acks hfew h.flow.receives h.acks
  exact ⟨h.flow.far e harrive hfew, h.back.near e hfew', hacks,
    fun packet hpacket => UInt32.le_trans (h.channel packet hpacket) hle, h.unforgotten.mono hle, h.completed⟩

theorem Link.agreed {u v u' v' : UdxStream} (hlink : Link u v u' v') (h : Agreed u v)
    (hfew : FewCreated u'.inner ∧ FewCreated v'.inner) : Agreed u' v' := by
  cases hlink with
  | stay => exact h
  | near c => exact h.near _ (fun _ _ _ heq => by cases heq) hfew.1 hfew.2
  | far c => exact h.far _ (fun _ _ _ heq => by cases heq) hfew.1 hfew.2
  | there packet harrives =>
      have hpacket := h.flow.arrives harrives
      refine h.far _ (fun header buf source heq => ?_) hfew.1 hfew.2
      cases heq
      exact ⟨rfl, hpacket.plain, hpacket.data⟩
  | back packet harrives =>
      have hpacket := h.back.arrives harrives
      obtain ⟨ref, href, hdecode⟩ := harrives
      have hheader := (h.back.emits.fromPeer (h.back.emits.sent ref href) hdecode).2
      refine h.near _ (fun header buf source heq => ?_) hfew.1 hfew.2
      cases heq
      exact ⟨⟨rfl, hpacket.plain, hpacket.data⟩, hheader ▸ h.acks.sent ref href⟩

theorem Link.fewCreated_both {u v u' v' : UdxStream} (hlink : Link u v u' v')
    (hfew : FewCreated u'.inner ∧ FewCreated v'.inner) : FewCreated u.inner ∧ FewCreated v.inner :=
  ⟨hlink.fewCreated hfew.1, hlink.symm.fewCreated hfew.2⟩

theorem connect_agreed (start : Nat) (dest : SocketAddr) (remoteId localId : UInt32) (start' : Nat)
    (dest' : SocketAddr) (remoteId' localId' : UInt32) :
    Agreed (.connect start dest remoteId localId) (.connect start' dest' remoteId' localId') where
  flow := connect_flow _ _ _ _ _ _ _ _
  back := connect_flow _ _ _ _ _ _ _ _
  acks :=
    { outgoing := fun k _ h => absurd (AList.mem_of_lookup h) (AList.notMem_empty k)
      queued := fun _ h => absurd h List.not_mem_nil
      sent := fun _ h => absurd h List.not_mem_nil }
  channel := fun _ h => absurd h List.not_mem_nil
  unforgotten := ⟨UInt32.le_refl _, fun _ h => absurd h UInt32.not_lt_zero⟩
  completed := fun h => by cases h

theorem Pair.Reachable.agreed {p : Pair} (hp : p.Reachable) (x : Side) (hfew : FewCreated (p.peer x).inner)
    (hfew' : FewCreated (p.peer x.other).inner) : Agreed (p.peer x) (p.peer x.other) :=
  hp.invariant x Agreed (fun u v => FewCreated u.inner ∧ FewCreated v.inner) connect_agreed
    (fun _ _ _ _ => Link.fewCreated_both) (fun _ _ _ _ => Link.agreed) ⟨hfew, hfew'⟩

/-- A sender with nothing outstanding has been heard to the end. -/
theorem Agreed.ack_eq {u v : UdxStream} (h : Agreed u v) (hempty : ∀ k, k ∉ u.inner.outgoing) :
    v.inner.ack = u.inner.seq := by
  by_contra hne
  have hlt : v.inner.ack < u.inner.seq := Std.lt_of_le_of_ne h.flow.ack_le_seq hne
  exact UInt32.lt_irrefl _ (h.unforgotten.lt_of_notMem _ hlt (hempty _))

/-- A peer acknowledges nothing that was not sent. -/
theorem Agreed.ackInBounds {u v : UdxStream} (h : Agreed u v) (e : Event) : AckInBounds u e := by
  cases e with
  | recv header buf source => trivial
  | call c =>
      cases c with
      | poll waker timerLag budget maxGsoSegments =>
          intro _ _
          unfold appliedAck
          split
          · exact UInt32.zero_le
          · exact largestAck_le UInt32.zero_le fun packet hpacket =>
              UInt32.le_trans (h.channel packet (List.mem_of_mem_take hpacket)) h.flow.ack_le_seq
      | _ => trivial

/-- Between two streams the send window is right. -/
theorem Pair.Reachable.inWindow {p : Pair} (hp : p.Reachable) (x : Side) (hfew : FewCreated (p.peer x).inner)
    (hfew' : FewCreated (p.peer x.other).inner) : InWindow (p.peer x).inner := by
  let Inv (u v : UdxStream) : Prop := Agreed u v ∧ Accounted u.inner.sendSide ∧ InWindow u.inner
  have hstep : ∀ (u : UdxStream) (e : Event), Accounted u.inner.sendSide ∧ InWindow u.inner → AckInBounds u e →
      FewCreated (u.step e).inner → Accounted (u.step e).inner.sendSide ∧ InWindow (u.step e).inner :=
    fun u e hu he hfew => ⟨accounted_invariant.advance (u.step_advance_any e) hu.1 hfew,
      (step_inWindow_iff u e hu.1 hu.2 hfew).mpr he⟩
  have hall : Inv (p.peer x) (p.peer x.other) := by
    refine hp.invariant x Inv (fun u v => FewCreated u.inner ∧ FewCreated v.inner) ?_
      (fun _ _ _ _ => Link.fewCreated_both) ?_ ⟨hfew, hfew'⟩
    · exact fun _ _ _ _ _ _ _ _ =>
        ⟨connect_agreed _ _ _ _ _ _ _ _, accounted_invariant.connect _ _ _ _, connect_inWindow _ _ _ _⟩
    · intro u v u' v' hlink h hfew
      refine ⟨hlink.agreed h.1 hfew, ?_⟩
      cases hlink with
      | near c => exact hstep u _ h.2 (h.1.ackInBounds _) hfew.1
      | back packet harrives => exact hstep u _ h.2 (h.1.ackInBounds _) hfew.1
      | _ => exact h.2
  exact hall.2.2

/-- **Agreement on acknowledgements.** What one side counts as acknowledged the other has received: the two
counters bracket each other, a number that has left `outgoing` is below `ack` of the peer, and a stream that is
closed and drained, or whose driver has completed, has been heard to the end. -/
theorem ack_agreement {p : Pair} (hp : p.Reachable) (x : Side) (hfew : FewCreated (p.peer x).inner)
    (hfew' : FewCreated (p.peer x.other).inner) :
    (p.peer x).inner.remoteAcked ≤ (p.peer x.other).inner.ack ∧
    (p.peer x.other).inner.ack ≤ (p.peer x).inner.seq ∧
    (∀ k < (p.peer x).inner.seq, k ∉ (p.peer x).inner.outgoing →
      k < (p.peer x.other).inner.ack ∧ k ∈ (p.peer x.other).inner.ghost.received) ∧
    ((p.peer x).inner.closedAndDrained = true ∨ (p.peer x).driver = .completed →
      (p.peer x.other).inner.ack = (p.peer x).inner.seq) := by
  have h := hp.agreed x hfew hfew'
  refine ⟨h.unforgotten.remoteAcked_le, h.flow.ack_le_seq, fun k hk hnot => ?_, ?_⟩
  · have hlt := h.unforgotten.lt_of_notMem k hk hnot
    exact ⟨hlt, h.flow.receives.reassembled.least.2 k hlt⟩
  · rintro (hdrained | hcompleted)
    · exact h.ack_eq (closedAndDrained_spec hdrained).2
    · exact h.ack_eq (h.completed hcompleted).2

/-- A write and a `close`, acknowledged, up to the completion of the driver. -/
def closedRun : List PairEvent :=
  [.call .a (.write 0 [1, 2, 3]), .call .a .close, .call .a (.poll 0 0 10 1), .deliver .a 0,
    .call .b (.poll 0 0 10 1), .deliver .b 0, .call .a (.poll 0 0 10 1), .call .a (.poll 0 0 10 1)]

theorem ack_agreement_closedRun :
    let p := Runs.run Pair.step (.connect 0 0 ⟨.v4 0, 1⟩ ⟨.v4 0, 2⟩ 1 2) closedRun
    FewCreated p.a.inner ∧ FewCreated p.b.inner ∧ p.a.inner.seq = 1 ∧ p.b.inner.ack = p.a.inner.seq := by
  refine ⟨by decide, by decide, by decide, ?_⟩
  exact (ack_agreement ⟨0, 0, ⟨.v4 0, 1⟩, ⟨.v4 0, 2⟩, 1, 2, closedRun, rfl⟩ .a (by decide) (by decide)).2.2.2
    (Or.inr (by decide))

end AsyncUdx
