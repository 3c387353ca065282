import AsyncUdx.LongRun
import AsyncUdx.PairEnd
import AsyncUdx.PairPipe
import AsyncUdx.Retransmission
import AsyncUdx.StreamPackets

/-! Two streams after a loss. The packets outstanding at a sender are exactly those from `remote_acked` to `seq`, so
none is forgotten; a receiver that is open answers every packet with data by what it then acknowledges, and a read
takes everything that has arrived in order. What may happen when the network has lost all it had is a run of its own:
time passes, drivers are polled, users read, and only packets transmitted later arrive. -/

namespace AsyncUdx

open Relation UdxStreamInner

variable {now : Nat}

/-! ### The packets outstanding -/

/-- The packets outstanding are those from `remote_acked` to `seq`, each under its number. -/
structure Lined (v : SendSide) : Prop where
  seq_eq : ∀ k packet, v.outgoing.lookup k = some packet → packet.header.seq = k
  mem : ∀ k, v.remoteAcked ≤ k → k < v.seq → k ∈ v.outgoing

/-- A packet without selective acknowledgements. -/
abbrev plainPacket : IncomingPacket → Prop := fun packet => packet.hasType udxHeaderSack = false

theorem Lined.replace {v : SendSide} (hv : Lined v) {i : UInt32} {packet : Packet}
    (hlookup : v.outgoing.lookup i = some packet) (packet' : Packet) (hheader : packet'.header = packet.header) :
    Lined { v with outgoing := v.outgoing.insert i packet' } where
  seq_eq := by
    intro k other hother
    rcases AList.lookup_insert_eq_some hother with ⟨rfl, rfl⟩ | ⟨-, hold⟩
    · rw [hheader]
      exact hv.seq_eq k packet hlookup
    · exact hv.seq_eq k other hold
  mem := fun k hlow hhigh => (AList.mem_insert _).mpr (Or.inr (hv.mem k hlow hhigh))

theorem ackNext_lined {s : UdxStreamInner} (hs : Lined s.sendSide) {ack : UInt32} (hlt : s.remoteAcked < ack) :
    Lined (s.ackNext now).sendSide where
  seq_eq := by
    intro k packet hlookup
    change (s.ackNext now).outgoing.lookup k = some packet at hlookup
    rw [ackNext_lookup] at hlookup
    split_ifs at hlookup
    exact hs.seq_eq k packet hlookup
  mem := by
    intro k hlow hhigh
    change (s.ackNext now).remoteAcked ≤ k at hlow
    change k < (s.ackNext now).seq at hhigh
    rw [ackNext_remoteAcked, UInt32.le_iff_toNat_le, Counter.toNat_succ_of_lt hlt] at hlow
    rw [UdxStreamInner.ackNext, ackPacket_seq] at hhigh
    have hle : s.remoteAcked ≤ k := UInt32.le_iff_toNat_le.mpr (by omega)
    have hne : k ≠ s.remoteAcked + 1 - 1 := by
      rw [Counter.succ_sub_one]
      rintro rfl
      omega
    exact mem_ackPacket (hs.mem k hle hhigh) hne

theorem Micro.lined {s t : UdxStreamInner} (h : Micro plainPacket now s t) (hs : Lined s.sendSide) :
    Lined t.sendSide := by
  cases h with
  | ackNext packet hok hlt => exact ackNext_lined hs hlt
  | sack packet i hok htype => exact absurd htype (by rw [hok]; decide)
  | park i packet hlookup hwaiting hmax hdue =>
      have h := hs.replace hlookup { packet with transmits := packet.transmits + 1, waiting := true } rfl
      exact ⟨h.seq_eq, h.mem⟩
  | requeue i packet hlookup hwaiting hroom =>
      have h := hs.replace hlookup { packet with waiting := false, queuedAt := now :: packet.queuedAt } rfl
      exact ⟨h.seq_eq, h.mem⟩
  | mark i packet sent hlookup =>
      have h := hs.replace hlookup { packet with timeSent := some sent } rfl
      exact ⟨h.seq_eq, h.mem⟩
  | _ => exact ⟨hs.seq_eq, hs.mem⟩

theorem Move.lined {s t : UdxStreamInner} (h : Move plainPacket now s t) (hs : Lined s.sendSide) :
    Lined t.sendSide := by
  cases h with
  | micro h => exact h.lined hs
  | send body herror hbody hlen hroom =>
      refine ⟨fun k packet hlookup => ?_, fun k hlow hhigh => ?_⟩
      · rcases AList.lookup_insert_eq_some hlookup with ⟨rfl, rfl⟩ | ⟨-, hold⟩
        · rfl
        · exact hs.seq_eq k packet hold
      · change k < s.seq + 1 at hhigh
        change k ∈ s.outgoing.insert s.seq _
        rw [AList.mem_insert]
        by_cases hkey : k = s.seq
        · exact Or.inl hkey
        · refine Or.inr (hs.mem k hlow ?_)
          have hne : k.toNat ≠ s.seq.toNat := fun heq => hkey (UInt32.toNat.inj heq)
          rw [UInt32.lt_iff_toNat_lt, UInt32.toNat_add] at hhigh
          have hmod := Nat.mod_le (s.seq.toNat + (1 : UInt32).toNat) (2 ^ 32)
          have hone : (1 : UInt32).toNat = 1 := rfl
          exact UInt32.lt_iff_toNat_lt.mpr (show k.toNat < s.seq.toNat by omega)
  | _ => exact hs

theorem Link.lined {u v u' v' : UdxStream} (hlink : Link u v u' v') (hflow : Flow v u) (h : Lined u.inner.sendSide) :
    Lined u'.inner.sendSide := by
  have hstep : ∀ e : Event, (∀ header buf source, e = .recv header buf source →
      plainPacket ⟨header, buf, 0, source⟩) → Lined (u.step e).inner.sendSide := fun e harrive =>
    (u.step_advance e (fun packet hpacket => (hflow.channel packet hpacket).plain) harrive).invariant
      (fun s => Lined s.sendSide) (fun _ _ h => h.lined) (fun _ _ h => ⟨h.seq_eq, h.mem⟩) h
  cases hlink with
  | near c => exact hstep (.call c) fun _ _ _ h => by cases h
  | back packet harrives =>
      refine hstep _ fun header buf source heq => ?_
      cases heq
      exact (hflow.arrives harrives).plain
  | _ => exact h

theorem Pair.Reachable.lined {p : Pair} (hp : p.Reachable) (x : Side) (hfew : FewCreated (p.peer x.other).inner) :
    Lined (p.peer x).inner.sendSide := by
  refine (hp.invariant x (fun u v => Flow v u ∧ Lined u.inner.sendSide) (fun _ v => FewCreated v.inner) ?_ ?_ ?_ hfew).2
  · intro start dest remoteId localId start' dest' remoteId' localId'
    exact ⟨connect_flow _ _ _ _ _ _ _ _, fun k _ h => absurd (AList.mem_of_lookup h) (AList.notMem_empty k),
      fun k _ hlt => absurd hlt UInt32.not_lt_zero⟩
  · intro u v u' v' hlink hfew
    exact hlink.symm.fewCreated hfew
  · rintro u v u' v' hlink ⟨hflow, hlined⟩ hfew
    exact ⟨hlink.symm.flow hflow hfew, hlink.lined hflow hlined⟩

/-! ### The receiver -/

/-- A stream that was not terminated, and that finds no END in its channel. -/
structure Heeds (u : UdxStream) : Prop where
  error : u.inner.error = none
  channel : ∀ packet ∈ u.inner.recvRx.queue, packet.hasType udxHeaderEnd = false

theorem Heeds.going {u : UdxStream} (h : Heeds u) : u.inner.closedAndDrained = false := by
  rw [closedAndDrained, h.error]
  rfl

/-- A poll that does not fail terminates a stream only for an END. -/
theorem Heeds.poll {u : UdxStream} {cx : Context} (h : Heeds u) (honline : Online u)
    (hcheck : (u.checked cx).2 = .ok ()) : Heeds (u.poll cx) := by
  let idle : UdxStreamInner := { u.inner with driveWaker := none }
  obtain ⟨-, events, hpoll, -⟩ := poll_checked honline h.going hcheck
  have hchain : Chain (fun packet => packet.hasType udxHeaderEnd = false) cx.now idle
      ((u.checked cx).1.flushWaitingPackets cx.now) :=
    ((incomingLoop_chain _ _ idle (Or.inl rfl) h.channel).trans (pollCheckTimeouts_chain _ cx)).trans
      (flushLoop_chain _ _)
  constructor
  · rw [hpoll]
    exact (congrArg Prod.fst (hchain.errorSide_eq fun _ hpacket => hpacket)).trans h.error
  · rw [UdxStream.poll_recvRx cx h.going]
    exact fun packet hpacket => h.channel packet (List.mem_of_mem_drop hpacket)

theorem Heeds.arrive {u : UdxStream} (h : Heeds u) {header : Header} (buf : List UInt8) (source : SocketAddr)
    (hend : header.typ = 0 ∨ header.typ = udxHeaderData) : Heeds (u.step (.recv header buf source)) where
  error := h.error
  channel := by
    intro packet hpacket
    rcases List.mem_append.mp hpacket with hbefore | hnew
    · exact h.channel packet hbefore
    · rw [List.mem_singleton.mp hnew, IncomingPacket.hasType]
      rcases hend with htyp | htyp <;> rw [htyp] <;> decide

/-- Data is answered with a state packet, which has no flag while the stream is open. -/
theorem handleIncoming_dataAnswer (now : Nat) {s : UdxStreamInner} {packet : IncomingPacket}
    (hfirewall : s.onFirewall = none) (herror : s.error = none) (htyp : packet.header.typ = udxHeaderData) :
    ∃ state : Packet, (s.handleIncoming now packet).sendQueue = s.sendQueue ++ [.owned state] ∧
      state.header.typ = 0 ∧ state.header.ack = (s.handleIncoming now packet).ack := by
  have hsack : packet.hasType udxHeaderSack = false := by rw [IncomingPacket.hasType, htyp]; decide
  have hend : packet.hasType udxHeaderEnd = false := by rw [IncomingPacket.hasType, htyp]; decide
  have hdata : packet.hasType udxHeaderData = true := by rw [IncomingPacket.hasType, htyp]; decide
  let counted : UdxStreamInner := { s with stats := { s.stats with rxPackets := s.stats.rxPackets + 1 } }
  have hhandled : s.handleIncoming now packet =
      (counted.handleIncomingData packet).congestionControl packet.header := by
    rw [handleIncoming, firewallPass_of_none hfirewall, hsack, hend, hdata]
    rfl
  rw [hhandled]
  refine ⟨_, rfl, ?_, rfl⟩
  change (if s.state.isLocalClosed then (if s.error.isSome then 0 ||| udxHeaderEnd else 0) &&& udxHeaderEnd
    else if s.error.isSome then 0 ||| udxHeaderEnd else 0) = 0
  rw [herror]
  cases s.state.isLocalClosed <;> rfl

theorem handleAll_chain {ok : IncomingPacket → Prop} {packets : List IncomingPacket} (s : UdxStreamInner)
    (hok : ∀ packet ∈ packets, ok packet) : Chain ok now s (s.handleAll now packets) :=
  List.foldlRecOn (motive := fun t => Chain ok now s t) packets _ .refl fun t ht packet hpacket =>
    ht.trans (handleIncoming_chain (hok packet hpacket) t)

/-- The queue of a stream and what it has received. -/
def UdxStreamInner.answerSide (s : UdxStreamInner) : List PacketRef × UInt32 × List UInt32 :=
  (s.sendQueue, s.ack, s.ghost.received)

theorem ackPacket_answerSide (s : UdxStreamInner) (i : UInt32) : (s.ackPacket now i).answerSide = s.answerSide := by
  unfold ackPacket
  split <;> rfl

/-- The answers of a poll are those to the packets it has handled. -/
theorem checked_answerSide (u : UdxStream) (cx : Context) : (u.checked cx).1.answerSide =
    (UdxStreamInner.handled { u.inner with driveWaker := none } cx).answerSide := by
  refine (pollCheckTimeouts_frame answerSide (fun _ _ => rfl) (fun _ _ _ _ => rfl) _ cx).trans ?_
  rw [pollIncoming_state]
  exact handleIncomingMaxRemoteAck_frame answerSide ackPacket_answerSide (fun _ _ => rfl) (fun _ _ => rfl)
    (fun _ _ => rfl) _ _

/-- A poll that takes all packets of the channel handles the last of them after the others. -/
theorem handled_last {s : UdxStreamInner} {cx : Context} {rest : List IncomingPacket} {packet : IncomingPacket}
    (hqueue : s.recvRx.queue = rest ++ [packet]) (hbudget : s.recvRx.queue.length ≤ cx.budget) :
    s.handled cx = ((s.drained cx.budget).handleAll cx.now rest).handleIncoming cx.now packet := by
  have htake : s.consumes cx.budget = rest ++ [packet] := by
    rw [consumes, List.take_of_length_le hbudget]
    exact hqueue
  rw [handled, htake, handleAll, List.foldl_append]
  rfl

/-- A poll that takes all packets of the channel, the last of them with data, transmits what it then acknowledges. -/
theorem Heeds.answers {u : UdxStream} {cx : Context} (h : Heeds u) (hu : u.Reachable) (honline : Online u)
    (hcheck : (u.checked cx).2 = .ok ()) {rest : List IncomingPacket} {packet : IncomingPacket}
    (hqueue : u.inner.recvRx.queue = rest ++ [packet]) (hbudget : u.inner.recvRx.queue.length ≤ cx.budget)
    (htyp : packet.header.typ = udxHeaderData) :
    packet.seq ∈ (u.poll cx).inner.ghost.received ∧ ∃ n ref, u.sent.length ≤ n ∧ (u.poll cx).sent[n]? = some ref ∧
      ref.deref.header.typ = 0 ∧ ref.deref.header.ack = (u.poll cx).inner.ack := by
  let idle : UdxStreamInner := { u.inner with driveWaker := none }
  let before : UdxStreamInner := (idle.drained cx.budget).handleAll cx.now rest
  have hhandled : idle.handled cx = before.handleIncoming cx.now packet := handled_last (s := idle) hqueue hbudget
  have hchain : Chain (fun packet => packet.hasType udxHeaderEnd = false) cx.now (idle.drained cx.budget) before :=
    handleAll_chain _ fun packet hpacket => h.channel packet (hqueue ▸ List.mem_append_left _ hpacket)
  have hfirewall : before.onFirewall = none :=
    (chain_value onFirewall (fun _ _ h => (Move.micro h).onFirewall_eq) hchain).trans hu.onFirewall
  have herror : before.error = none :=
    (congrArg Prod.fst (hchain.errorSide_eq fun _ hpacket => hpacket)).trans h.error
  obtain ⟨state, hstate, hflags, hack⟩ := handleIncoming_dataAnswer cx.now hfirewall herror htyp
  have hside := checked_answerSide u cx
  rw [show UdxStreamInner.handled { u.inner with driveWaker := none } cx = _ from hhandled] at hside
  let s := (u.checked cx).1.flushWaitingPackets cx.now
  have hack' : s.ack = state.header.ack :=
    (flushLoop_frame UdxStreamInner.ack (fun _ _ _ _ => rfl) _ _).trans
      ((congrArg (fun side => side.2.1) hside).trans hack.symm)
  have hreceived : s.ghost.received = (before.handleIncoming cx.now packet).ghost.received :=
    (flushLoop_frame (fun s => s.ghost.received) (fun _ _ _ _ => rfl) _ _).trans
      (congrArg (fun side => side.2.2) hside)
  have hqueued : PacketRef.owned state ∈ s.sendQueue := by
    have hbefore : (u.checked cx).1.sendQueue = _ := (congrArg Prod.fst hside).trans hstate
    refine (flushLoop_sendQueue _ _ _).subset ?_
    rw [hbefore]
    exact List.mem_append_right _ (List.mem_singleton_self _)
  obtain ⟨-, events, hpoll, hevents⟩ := poll_checked honline h.going hcheck
  obtain ⟨n, hn⟩ := List.mem_iff_getElem?.mp hqueued
  rw [hpoll]
  refine ⟨?_, u.sent.length + n, .owned state, Nat.le_add_right _ _, ?_, hflags, hack'.symm⟩
  · change packet.seq ∈ s.ghost.received
    rw [hreceived, handleIncoming_received hfirewall, IncomingPacket.hasType, htyp]
    exact List.mem_append_right _ (List.mem_singleton_self _)
  · rw [UdxStream.sent, hevents, List.getElem?_append_right (Nat.le_add_right _ _), Nat.add_sub_cancel_left]
    exact hn

/-! ### Reading to the end -/

/-- Some buffer takes everything that is there in order. -/
theorem exists_readNext_all {created : List Packet} (hfew : created.length < 2 ^ 32) {s : UdxStreamInner}
    (hs : Receives created s.recvSide) :
    ∃ capacity, (s.readNext capacity).1.readCursor = (s.readNext capacity).1.ack := by
  induction hn : s.ack.toNat - s.readCursor.toNat generalizing s with
  | zero =>
      have hle := UInt32.le_iff_toNat_le.mp hs.reassembled.cursor_le
      change s.readCursor.toNat ≤ s.ack.toNat at hle
      have hsame : s.readCursor = s.ack := UInt32.toNat.inj (by omega)
      have hmissing : s.readCursor ∉ s.incoming := by
        intro hmem
        refine hs.reassembled.least.1 ?_
        change s.ack ∈ s.recvSide.received
        rw [← hsame]
        exact ((hs.reassembled.keys_iff s.readCursor).mp hmem).1
      refine ⟨0, ?_⟩
      rw [readNext_none (AList.lookup_eq_none.mpr hmissing)]
      exact hsame
  | succ n ih =>
      have hlt : s.readCursor < s.ack := UInt32.lt_iff_toNat_lt.mpr (by omega)
      have hmem : s.readCursor ∈ s.incoming :=
        (hs.reassembled.keys_iff s.readCursor).mpr ⟨hs.reassembled.least.2 _ hlt, UInt32.le_refl _⟩
      obtain ⟨packet, hlookup⟩ := AList.exists_lookup_of_mem hmem
      have hmove : Move (FromPeer created) 0 s (s.readWhole packet) := .readWhole s packet hlookup
      have hnext : Receives created (s.readWhole packet).recvSide := hmove.receives hfew hs
      obtain ⟨capacity, hall⟩ := ih hnext (by
        change s.ack.toNat - (s.readCursor + 1).toNat = n
        rw [Counter.toNat_succ_of_lt hlt]
        omega)
      refine ⟨usizeSub packet.buf.length packet.readOffset + capacity, ?_⟩
      rw [readNext_fits hlookup (Nat.le_add_right _ _), Nat.add_sub_cancel_left]
      exact hall

/-! ### What happens after a loss -/

/-- What a stream sees of time, its own driver, its reader and the network. -/
def Mild : Event → Prop
  | .call (.tick _) | .call (.poll ..) | .call (.read ..) | .recv .. => True
  | _ => False

theorem Mild.setting_eq {e : Event} (he : Mild e) (u : UdxStream) : (u.step e).inner.setting = u.inner.setting := by
  cases e with
  | recv header buf source => rfl
  | call c =>
      refine UdxStream.call_frame setting u c (fun _ _ _ h => h.setting_eq) (fun _ _ => rfl) (fun _ _ _ => rfl) ?_
        (fun _ _ _ => ⟨fun _ _ _ => rfl, fun _ _ => rfl⟩) (fun _ _ => rfl) ?_
      · rintro waker buf rfl
        exact he.elim
      · rintro recvClosed sendClosed rfl
        exact he.elim

theorem UdxStream.poll_handles (u : UdxStream) (cx : Context) : (u.poll cx).handles = u.handles := by
  have hdrop : ∀ (u : UdxStream) (driver : Driver), (u.dropDriver driver).handles = u.handles := by
    intro u driver
    unfold UdxStream.dropDriver UdxStream.release UdxStream.onDrop
    split_ifs <;> rfl
  unfold UdxStream.poll
  split
  · exact hdrop _ _
  · rfl
  · exact hdrop _ _

theorem Mild.handles_eq {e : Event} (he : Mild e) (u : UdxStream) : (u.step e).handles = u.handles := by
  cases e with
  | recv header buf source => rfl
  | call c =>
      cases c with
      | poll waker timerLag budget maxGsoSegments =>
          rw [UdxStream.step, UdxStream.call]
          split
          · exact u.poll_handles _
          · rfl
      | read waker remaining =>
          rw [UdxStream.step, UdxStream.call]
          split <;> rfl
      | tick elapsed => rfl
      | _ => exact he.elim

namespace Pair

/-- Time passes, drivers are polled and users read; and of the packets on the network only those arrive that were
transmitted since a side had transmitted so many. -/
def Fresh (mark : Side → Nat) : PairEvent → Prop
  | .call _ (.tick _) => True
  | .call _ (.poll _ timerLag budget _) => timerLag = 0 ∧ 0 < budget
  | .call _ (.read _ _) => True
  | .call _ _ => False
  | .deliver x n => mark x ≤ n

theorem Fresh.peer {mark : Side → Nat} {e : PairEvent} (he : Fresh mark e) (p : Pair) (x : Side) :
    (p.step e).peer x = p.peer x ∨ ∃ e', Mild e' ∧ (p.step e).peer x = (p.peer x).step e' := by
  cases e with
  | call y c =>
      rw [step, peer_set]
      split_ifs with hxy
      · subst hxy
        refine Or.inr ⟨.call c, ?_, rfl⟩
        cases c <;> trivial
      · exact Or.inl rfl
  | deliver y n =>
      rw [step]
      split
      · exact Or.inl rfl
      · rename_i packet hpacket
        rw [peer_set]
        split_ifs with hxy
        · subst hxy
          exact Or.inr ⟨.recv packet.header packet.buf packet.source, trivial, rfl⟩
        · exact Or.inl rfl

theorem Fresh.taken {mark : Side → Nat} {e : PairEvent} (he : Fresh mark e) (p : Pair) (x : Side) :
    p.taken x e = [] := by
  cases e with
  | call y c =>
      rw [Pair.taken]
      split_ifs
      · cases c <;> first | rfl | exact he.elim
      · rfl
  | deliver y n => rfl

/-- A pair may get from one state to another by such events. -/
abbrev Resumes (mark : Side → Nat) : Pair → Pair → Prop := Runs.Reaches step (Fresh mark)

section Resumes

variable {mark : Side → Nat} {p q : Pair} (h : Resumes mark p q)

include h

theorem Resumes.peer_invariant (Inv : UdxStream → Prop) (hstep : ∀ u e, Mild e → Inv u → Inv (u.step e)) (x : Side)
    (hx : Inv (p.peer x)) : Inv (q.peer x) := by
  refine h.invariant (fun q => Inv (q.peer x)) (fun r e he hr => ?_) hx
  rcases he.peer r x with hsame | ⟨e', he', hnext⟩
  · rw [hsame]
    exact hr
  · rw [hnext]
    exact hstep _ _ he' hr

theorem Resumes.setting_eq (x : Side) : (q.peer x).inner.setting = (p.peer x).inner.setting :=
  h.peer_invariant (fun u => u.inner.setting = (p.peer x).inner.setting)
    (fun u _ he hu => (he.setting_eq u).trans hu) x rfl

theorem Resumes.handles_eq (x : Side) : (q.peer x).handles = (p.peer x).handles :=
  h.peer_invariant (fun u => u.handles = (p.peer x).handles) (fun u _ he hu => (he.handles_eq u).trans hu) x rfl

theorem Resumes.sent_grows (x : Side) : (p.peer x).sent <+: (q.peer x).sent :=
  h.peer_invariant (fun u => (p.peer x).sent <+: u.sent) (fun u e _ hu => hu.trans (u.step_sent_grows e)) x
    List.prefix_rfl

theorem Resumes.terminated {x : Side} (hx : (p.peer x).inner.error.isSome = true) :
    (q.peer x).inner.error.isSome = true :=
  h.peer_invariant (fun u => u.inner.error.isSome = true) (fun _ e _ => step_terminated e) x hx

theorem Resumes.reachable (hp : p.Reachable) : q.Reachable :=
  h.invariant Reachable (fun _ e _ hq => hq.step e) hp

theorem Resumes.few {x : Side} (hfew : FewCreated (p.peer x).inner) : FewCreated (q.peer x).inner := by
  unfold FewCreated
  rw [show (q.peer x).inner.ghost.created = _ from congrArg Setting.created (h.setting_eq x)]
  exact hfew

theorem Resumes.accepted_eq (x : Side) : (q.peer x).accepted = (p.peer x).accepted :=
  h.invariant (fun q => (q.peer x).accepted = (p.peer x).accepted)
    (fun r e he hr => by rw [step_taken, he.taken, List.append_nil, hr]) rfl

end Resumes

end Pair

end AsyncUdx
