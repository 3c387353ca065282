import AsyncUdx.BaseCount
import AsyncUdx.PacketLoad
import AsyncUdx.PairAck

/-! Two terminated streams after the last call of their users: packets are delivered, each at most once, and drivers
are polled before their timers expire. What a side transmits is paid for by what arrives at it, and what arrives is
paid for by what the other side has transmitted. So as soon as one side transmits only finitely many packets,
finitely many are delivered; here it is a side whose driver is done or whose channels are closed. -/

namespace AsyncUdx

open Relation UdxStreamInner Reassembly

theorem Side.other_other (x : Side) : x.other.other = x := by
  cases x <;> rfl

/-- A stream that keeps answering its peer: its driver is running, the socket is there, and the peer has neither kept
nor in its channel some data packet of the stream. -/
structure Sustains (u v : UdxStream) : Prop where
  running : u.driver = .running
  recv : u.inner.recvRx.closed = false
  send : u.inner.sendTx.closed = false
  missing : ∃ k, v.inner.ack ≤ k ∧ k < u.inner.seq ∧ k ∉ v.inner.incoming ∧
    ∀ packet ∈ v.inner.recvRx.queue, packet.hasType udxHeaderData = true → packet.seq ≠ k

namespace Pair

/-- An event of a run without calls of the users and without timeouts: a packet arrives in an open channel, or a
driver is polled that may take a packet and does not find its timer expired with packets outstanding. -/
def Quiet (p : Pair) : PairEvent → Prop
  | .call x (.poll waker timerLag budget maxGsoSegments) =>
      0 < budget ∧ (p.peer x).Unexpired ⟨waker, (p.peer x).clock, timerLag, budget, maxGsoSegments⟩
  | .call _ _ => False
  | .deliver x _ => (p.peer x.other).inner.recvRx.closed = false

/-- The packet that an event hands to a side. -/
def arrival (p : Pair) (x : Side) : PairEvent → Option IncomingPacket
  | .call _ _ => none
  | .deliver y n => if y = x.other then p.datagram y n else none

/-- An event hands a packet to a side, one with an acknowledgement of some kind. -/
def Hands (p : Pair) (x : Side) (P : UInt32 → Bool) (e : PairEvent) : Prop :=
  ∃ packet, p.arrival x e = some packet ∧ P packet.header.ack = true

/-- A packet is delivered. -/
def Delivers (p : Pair) (e : PairEvent) : Prop := ∃ x, (p.arrival x e).isSome = true

/-- An infinite run without calls of the users and without timeouts, in which every packet is delivered at most
once. -/
structure Exchange (p : Pair) (events : Nat → PairEvent) : Prop where
  quiet : ∀ i, (Runs.states step p events i).Quiet (events i)
  once : ∀ i j x n, events i = .deliver x n → events j = .deliver x n → i = j

/-- Only finitely many packets are delivered, however the run goes on. -/
def EchoFree (p : Pair) : Prop :=
  ∀ events, p.Exchange events → {i | (Runs.states step p events i).Delivers (events i)}.Finite

/-! ### One side of a run -/

/-- What an event without timeouts does to a side: a running driver is polled, or a packet arrives, or nothing. -/
inductive Turn (p : Pair) (x : Side) : PairEvent → UdxStream → Prop
  | idle (e : PairEvent) (h : p.arrival x e = none) : Turn p x e (p.peer x)
  | poll (waker : Waker) (timerLag budget maxGsoSegments : Nat) (hrunning : (p.peer x).driver = .running)
      (hbudget : 0 < budget)
      (hquiet : (p.peer x).Unexpired ⟨waker, (p.peer x).clock, timerLag, budget, maxGsoSegments⟩) :
      Turn p x (.call x (.poll waker timerLag budget maxGsoSegments))
        ((p.peer x).poll ⟨waker, (p.peer x).clock, timerLag, budget, maxGsoSegments⟩)
  | arrive (n : Nat) (packet : IncomingPacket) (hpacket : p.datagram x.other n = some packet)
      (hopen : (p.peer x).inner.recvRx.closed = false) :
      Turn p x (.deliver x.other n) ((p.peer x).step (.recv packet.header packet.buf packet.source))

theorem peer_set (p : Pair) (x y : Side) (u : UdxStream) :
    (p.set x u).peer y = if y = x then u else p.peer y := by
  cases x <;> cases y <;> rfl

theorem step_turn {p : Pair} {e : PairEvent} (h : p.Quiet e) (x : Side) : Turn p x e ((p.step e).peer x) := by
  cases e with
  | call y c =>
      cases c with
      | poll waker timerLag budget maxGsoSegments =>
          rw [step, peer_set]
          by_cases hxy : x = y
          · subst hxy
            rw [if_pos rfl, UdxStream.step, UdxStream.call]
            split
            · exact .poll waker timerLag budget maxGsoSegments ‹_› h.1 h.2
            · exact .idle _ rfl
          · rw [if_neg hxy]
            exact .idle _ rfl
      | _ => exact h.elim
  | deliver y n =>
      rw [step]
      cases hpacket : p.datagram y n with
      | none => exact .idle _ (by rw [arrival, hpacket, ite_self])
      | some packet =>
          dsimp only
          rw [peer_set]
          by_cases hxy : x = y.other
          · subst hxy
            rw [if_pos rfl]
            cases y <;> exact .arrive n packet hpacket h
          · rw [if_neg hxy]
            refine .idle _ (if_neg fun h => hxy ?_)
            rw [h, Side.other_other]

theorem Reachable.step {p : Pair} (hp : p.Reachable) (e : PairEvent) : (p.step e).Reachable := by
  obtain ⟨startA, startB, addrA, addrB, idA, idB, events, rfl⟩ := hp
  exact ⟨startA, startB, addrA, addrB, idA, idB, events ++ [e], List.foldl_append⟩

/-- Each side of a pair runs as a stream on its own. -/
theorem Reachable.peer {p : Pair} (hp : p.Reachable) (x : Side) : (p.peer x).Reachable := by
  refine hp.invariant x (fun u _ => u.Reachable) (fun _ _ => True) ?_ (fun _ _ _ _ _ _ => trivial) ?_ trivial
  · exact fun start dest remoteId localId _ _ _ _ => ⟨start, dest, remoteId, localId, [], rfl⟩
  · intro u v u' v' hlink hu _
    cases hlink with
    | near c => exact hu.step _
    | back packet harrives => exact hu.step _
    | _ => exact hu

end Pair

/-- The fields of a stream that neither a poll nor an arriving packet changes. -/
structure Setting where
  seq : UInt32
  created : List Packet
  recvClosed : Bool
  sendClosed : Bool

def UdxStreamInner.setting (s : UdxStreamInner) : Setting where
  seq := s.seq
  created := s.ghost.created
  recvClosed := s.recvRx.closed
  sendClosed := s.sendTx.closed

theorem ackPacket_setting {now : Nat} (s : UdxStreamInner) (i : UInt32) :
    (s.ackPacket now i).setting = s.setting := by
  unfold ackPacket
  split <;> rfl

theorem Micro.setting_eq {ok : IncomingPacket → Prop} {now : Nat} {s t : UdxStreamInner} (h : Micro ok now s t) :
    t.setting = s.setting := by
  cases h with
  | ackNext packet hok hlt => exact ackPacket_setting _ _
  | sack packet i hok htype => exact ackPacket_setting _ _
  | _ => rfl

namespace Pair

theorem Turn.setting_eq {p : Pair} {x : Side} {e : PairEvent} {u : UdxStream} (h : Turn p x e u) :
    u.inner.setting = (p.peer x).inner.setting := by
  cases h with
  | idle _ h => rfl
  | poll waker timerLag budget maxGsoSegments hrunning hbudget hquiet =>
      rw [← UdxStream.call_poll hrunning]
      exact UdxStream.call_frame setting _ _ (fun _ _ _ h => h.setting_eq) (fun _ _ => rfl) (fun _ _ _ => rfl)
        (fun _ _ h => by cases h) (fun _ _ h => by cases h) (fun _ _ => rfl) fun _ _ h => by cases h
  | arrive n packet hpacket hopen => rfl

/-- What no event of a stream undoes, a turn does not undo. -/
theorem Turn.invariant {p : Pair} {x : Side} {e : PairEvent} {u : UdxStream} (h : Turn p x e u)
    (Inv : UdxStream → Prop) (hstep : ∀ u e, Inv u → Inv (u.step e)) (hx : Inv (p.peer x)) : Inv u := by
  cases h with
  | idle _ h => exact hx
  | poll waker timerLag budget maxGsoSegments hrunning hbudget hquiet =>
      rw [← UdxStream.call_poll hrunning]
      exact hstep _ (.call (.poll waker timerLag budget maxGsoSegments)) hx
  | arrive n packet hpacket hopen => exact hstep _ _ hx

theorem Turn.error_isSome {p : Pair} {x : Side} {e : PairEvent} {u : UdxStream} (h : Turn p x e u)
    (hx : (p.peer x).inner.error.isSome = true) : u.inner.error.isSome = true :=
  h.invariant (fun u => u.inner.error.isSome = true) (fun _ e => step_terminated e) hx

theorem Turn.sent_grows {p : Pair} {x : Side} {e : PairEvent} {u : UdxStream} (h : Turn p x e u) :
    (p.peer x).sent <+: u.sent :=
  h.invariant (fun u => (p.peer x).sent <+: u.sent) (fun u e hu => hu.trans (u.step_sent_grows e)) List.prefix_rfl

theorem arrival_eq_some {p : Pair} {x : Side} {e : PairEvent} {packet : IncomingPacket} :
    p.arrival x e = some packet ↔ ∃ n, e = .deliver x.other n ∧ p.datagram x.other n = some packet := by
  cases e with
  | call y c => exact ⟨fun h => (by cases h), fun ⟨_, h, _⟩ => by cases h⟩
  | deliver y n =>
      rw [arrival]
      by_cases hy : y = x.other
      · subst hy
        rw [if_pos rfl]
        exact ⟨fun h => ⟨n, rfl, h⟩, fun ⟨m, hm, h⟩ => by cases hm; exact h⟩
      · rw [if_neg hy]
        exact ⟨fun h => (by cases h), fun ⟨m, hm, _⟩ => absurd (by cases hm; rfl) hy⟩

theorem datagram_sent {p : Pair} {x : Side} {n : Nat} {packet : IncomingPacket} (h : p.datagram x n = some packet) :
    ∃ ref, (p.peer x).sent[n]? = some ref ∧
      IncomingPacket.ofDatagram (p.peer x.other).inner.remoteAddr ref.deref.buf.asSlice = .ok packet := by
  unfold datagram at h
  split at h
  · cases h
  · rename_i ref href
    refine ⟨ref, href, ?_⟩
    split at h
    · cases h
    · rename_i packet' hdecode
      split at h
      · cases h
        exact hdecode
      · cases h

/-- What holds in all states of a run that starts in a state where both streams are terminated. -/
structure Steady (p q : Pair) : Prop where
  reachable : q.Reachable
  terminated : ∀ x, (q.peer x).inner.error.isSome = true
  setting : ∀ x, (q.peer x).inner.setting = (p.peer x).inner.setting
  few : ∀ x, FewCreated (q.peer x).inner

theorem Steady.step {p q : Pair} (hq : Steady p q) {e : PairEvent} (he : q.Quiet e) : Steady p (q.step e) where
  reachable := hq.reachable.step e
  terminated := fun x => (step_turn he x).error_isSome (hq.terminated x)
  setting := fun x => (step_turn he x).setting_eq.trans (hq.setting x)
  few := by
    intro x
    have hcreated : ((q.step e).peer x).inner.ghost.created = (q.peer x).inner.ghost.created :=
      congrArg Setting.created (step_turn he x).setting_eq
    rw [FewCreated, hcreated]
    exact hq.few x

theorem Steady.self {p q : Pair} (hq : Steady p q) : Steady q q :=
  ⟨hq.reachable, hq.terminated, fun _ => rfl, hq.few⟩

theorem Steady.agreed {p q : Pair} (hq : Steady p q) (x : Side) : Agreed (q.peer x) (q.peer x.other) :=
  hq.reachable.agreed x (hq.few x) (hq.few x.other)

theorem Steady.firewall {p q : Pair} (hq : Steady p q) (x : Side) : (q.peer x).inner.onFirewall = none :=
  (hq.reachable.peer x).onFirewall

/-! ### Deliveries are paid for -/

theorem Steady.hands {p q : Pair} (hq : Steady p q) {x : Side} {P : UInt32 → Bool} {e : PairEvent} (h : q.Hands x P e) :
    ∃ n ref, e = .deliver x.other n ∧ (q.peer x.other).sent[n]? = some ref ∧ P ref.deref.header.ack = true := by
  obtain ⟨packet, hpacket, hP⟩ := h
  obtain ⟨n, rfl, hdatagram⟩ := arrival_eq_some.mp hpacket
  obtain ⟨ref, href, hdecode⟩ := datagram_sent hdatagram
  have hemits := (hq.agreed x.other).flow.emits
  have hheader := (hemits.fromPeer (hemits.sent ref (List.mem_of_getElem? href)) hdecode).2
  exact ⟨n, ref, rfl, href, hheader ▸ hP⟩

theorem sent_countP_le (u : UdxStream) (P : UInt32 → Bool) :
    (u.sent.countP fun ref => P ref.deref.header.ack) ≤ u.load P := by
  rw [UdxStream.load, UdxStreamInner.load, UdxStream.sent]
  omega

theorem sent_length_le (u : UdxStream) : u.sent.length ≤ u.load fun _ => true := by
  have h := sent_countP_le u fun _ => true
  rwa [List.countP_true] at h

/-! ### Sides that fall silent -/

/-- The driver is done, or will be at its next poll. -/
def Finished (u : UdxStream) : Prop := u.driver ≠ .running ∨ u.inner.closedAndDrained = true

theorem Turn.finished {p : Pair} {x : Side} {e : PairEvent} {u : UdxStream} (h : Turn p x e u)
    (hdone : Finished (p.peer x)) : Finished u ∧ u.sent = (p.peer x).sent := by
  cases h with
  | idle _ h => exact ⟨hdone, rfl⟩
  | poll waker timerLag budget maxGsoSegments hrunning hbudget hquiet =>
      have hdrained := hdone.resolve_left (absurd hrunning)
      refine ⟨Or.inl ?_, UdxStream.poll_sent_drained _ hdrained⟩
      rw [(poll_drained _ hdrained).1]
      decide
  | arrive n packet hpacket hopen => exact ⟨hdone, rfl⟩

/-- Without the socket a stream transmits nothing. -/
theorem Turn.sent_eq {p : Pair} {x : Side} {e : PairEvent} {u : UdxStream} (h : Turn p x e u)
    (hclosed : (p.peer x).inner.sendTx.closed = true) : u.sent = (p.peer x).sent := by
  cases h with
  | idle _ h => rfl
  | poll waker timerLag budget maxGsoSegments hrunning hbudget hquiet => exact UdxStream.poll_sent_closed _ hclosed
  | arrive n packet hpacket hopen => rfl

/-- A stream whose channel is closed transmits only while there are packets left in it. -/
theorem Turn.descent {p : Pair} {x : Side} {e : PairEvent} {u : UdxStream} (h : Turn p x e u)
    (hclosed : (p.peer x).inner.recvRx.closed = true) :
    u.inner.recvRx.queue.length ≤ (p.peer x).inner.recvRx.queue.length ∧
      (u.sent = (p.peer x).sent ∨ u.inner.recvRx.queue.length < (p.peer x).inner.recvRx.queue.length) := by
  cases h with
  | idle _ h => exact ⟨Nat.le_refl _, Or.inl rfl⟩
  | poll waker timerLag budget maxGsoSegments hrunning hbudget hquiet =>
      cases hdone : (p.peer x).inner.closedAndDrained with
      | true =>
          rw [UdxStream.poll_drained_recvRx _ hdone]
          exact ⟨Nat.le_refl _, Or.inl (UdxStream.poll_sent_drained _ hdone)⟩
      | false =>
          rw [UdxStream.poll_recvRx _ hdone]
          dsimp only
          rw [List.length_drop]
          refine ⟨Nat.sub_le _ _, ?_⟩
          by_cases hlen : (p.peer x).inner.recvRx.queue.length < budget
          · exact Or.inl (UdxStream.poll_sent_failed hdone hclosed hlen)
          · exact Or.inr (by omega)
  | arrive n packet hpacket hopen =>
      rw [hclosed] at hopen
      cases hopen

section Counting

open Classical

/-- A packet that arrives pays for its answers. -/
theorem Turn.answers_le {p : Pair} {x : Side} {e : PairEvent} {u : UdxStream} (h : Turn p x e u)
    (hrecv : (p.peer x).inner.recvRx.closed = false) (P : UInt32 → Bool) :
    u.load P + 2 * u.inner.recvRx.queue.length ≤ (p.peer x).load P + 2 * (p.peer x).inner.recvRx.queue.length +
      if p.Hands x (fun _ => true) e then 2 else 0 := by
  cases h with
  | idle _ h => exact Nat.le_add_right _ _
  | poll waker timerLag budget maxGsoSegments hrunning hbudget hquiet =>
      exact Nat.le_add_right_of_le (UdxStream.poll_answers_le P hrunning hrecv hquiet)
  | arrive n packet hpacket hopen =>
      have hhands : p.Hands x (fun _ => true) (.deliver x.other n) :=
        ⟨packet, arrival_eq_some.mpr ⟨n, rfl, hpacket⟩, rfl⟩
      rw [if_pos hhands]
      change (p.peer x).load P + 2 * ((p.peer x).inner.recvRx.queue ++ [_]).length ≤ _
      rw [List.length_append, List.length_singleton]
      omega

variable {p : Pair} {events : Nat → PairEvent} (hrun : p.Exchange events)

include hrun

theorem Exchange.steady (hp : Steady p p) (i : Nat) : Steady p (Runs.states step p events i) :=
  Runs.states_invariant (Steady p) (fun _ _ hq he => hq.step he) hp hrun.quiet i

theorem Exchange.sent_grows (x : Side) (i : Nat) :
    ((Runs.states step p events i).peer x).sent <+: ((Runs.states step p events (i + 1)).peer x).sent :=
  (step_turn (hrun.quiet i) x).sent_grows

/-- What has arrived at a side was transmitted by the other side. -/
theorem Exchange.arrivals_le (hp : Steady p p) (x : Side) (P : UInt32 → Bool) (n : Nat) :
    Nat.count (fun i => (Runs.states step p events i).Hands x P (events i)) n ≤
      ((Runs.states step p events n).peer x.other).sent.countP fun ref => P ref.deref.header.ack := by
  let position (i : Nat) : Nat := match events i with
    | .deliver _ n => n
    | .call _ _ => 0
  refine Counting.count_le_countP (l := fun i => ((Runs.states step p events i).peer x.other).sent)
    (hrun.sent_grows x.other) _ position ?_ ?_ n
  · intro i j hi hj hij
    obtain ⟨m, -, hm, -⟩ := (hrun.steady hp i).hands hi
    obtain ⟨m', -, hm', -⟩ := (hrun.steady hp j).hands hj
    dsimp only [position] at hij
    rw [hm, hm'] at hij
    change m = m' at hij
    exact hrun.once i j x.other m hm (hij ▸ hm')
  · intro i hi
    obtain ⟨m, ref, hm, href, hP⟩ := (hrun.steady hp i).hands hi
    dsimp only [position]
    rw [hm]
    exact ⟨ref, href, hP⟩

/-- A side with an open channel transmits no more than a fixed number of packets and two for each arrival. -/
theorem Exchange.sent_le (hp : Steady p p) (x : Side) (hrecv : (p.peer x).inner.recvRx.closed = false) (n : Nat) :
    ((Runs.states step p events n).peer x).sent.length ≤
      (p.peer x).load (fun _ => true) + 2 * (p.peer x).inner.recvRx.queue.length +
        2 * Nat.count (fun i => (Runs.states step p events i).Hands x (fun _ => true) (events i)) n := by
  have hstep : ∀ i, _ ≤ _ := fun i => (step_turn (hrun.quiet i) x).answers_le
    ((congrArg Setting.recvClosed ((hrun.steady hp i).setting x)).trans hrecv) fun _ => true
  have hle := Counting.le_add_count (f := fun i => ((Runs.states step p events i).peer x).load (fun _ => true) +
    2 * ((Runs.states step p events i).peer x).inner.recvRx.queue.length) hstep n
  exact (sent_length_le _).trans ((Nat.le_add_right _ _).trans hle)

/-- A side is heard no more often than the other one transmits. -/
theorem Exchange.count_le (hp : Steady p p) (x : Side) (n : Nat) :
    Nat.count (fun i => (Runs.states step p events i).Hands x (fun _ => true) (events i)) n ≤
      ((Runs.states step p events n).peer x.other).sent.length := by
  have h := hrun.arrivals_le hp x (fun _ => true) n
  rwa [List.countP_true] at h

/-- From a state on in which a side transmits nothing more, what it has transmitted is bounded. -/
theorem Exchange.limited (x : Side) (m : Nat)
    (h : ∀ n, m ≤ n → ((Runs.states step p events (n + 1)).peer x).sent = ((Runs.states step p events n).peer x).sent) :
    ∃ bound, ∀ n, ((Runs.states step p events n).peer x).sent.length ≤ bound := by
  have hmono : Monotone fun n => ((Runs.states step p events n).peer x).sent.length :=
    monotone_nat_of_le_succ fun n => (hrun.sent_grows x n).length_le
  refine ⟨((Runs.states step p events m).peer x).sent.length, fun n => ?_⟩
  rcases Nat.le_total n m with hle | hle
  · exact hmono hle
  · induction n, hle using Nat.le_induction with
    | base => exact Nat.le_refl _
    | succ n hle ih => rw [h n hle]; exact ih

theorem Exchange.limited_of_finished {x : Side} {m : Nat} (h : Finished ((Runs.states step p events m).peer x)) :
    ∃ bound, ∀ n, ((Runs.states step p events n).peer x).sent.length ≤ bound := by
  have hdone : ∀ n, m ≤ n → Finished ((Runs.states step p events n).peer x) := by
    intro n hle
    induction n, hle using Nat.le_induction with
    | base => exact h
    | succ n hle ih => exact ((step_turn (hrun.quiet n) x).finished ih).1
  exact hrun.limited x m fun n hle => ((step_turn (hrun.quiet n) x).finished (hdone n hle)).2

theorem Exchange.limited_of_send (hp : Steady p p) {x : Side} (hclosed : (p.peer x).inner.sendTx.closed = true) :
    ∃ bound, ∀ n, ((Runs.states step p events n).peer x).sent.length ≤ bound :=
  hrun.limited x 0 fun n _ => (step_turn (hrun.quiet n) x).sent_eq
    ((congrArg Setting.sendClosed ((hrun.steady hp n).setting x)).trans hclosed)

theorem Exchange.limited_of_recv (hp : Steady p p) {x : Side} (hclosed : (p.peer x).inner.recvRx.closed = true) :
    ∃ bound, ∀ n, ((Runs.states step p events n).peer x).sent.length ≤ bound := by
  have hturn := fun n => (step_turn (hrun.quiet n) x).descent
    ((congrArg Setting.recvClosed ((hrun.steady hp n).setting x)).trans hclosed)
  exact Counting.bounded_of_descent
    (g := fun n => ((Runs.states step p events n).peer x).inner.recvRx.queue.length)
    (monotone_nat_of_le_succ fun n => (hrun.sent_grows x n).length_le)
    (antitone_nat_of_succ_le fun n => (hturn n).1) fun n => (hturn n).2.imp (congrArg List.length) id

/-- **Both sides.** If one side transmits finitely many packets, finitely many are delivered. -/
theorem Exchange.finite_of_limited (hp : Steady p p) {x : Side}
    (h : ∃ bound, ∀ n, ((Runs.states step p events n).peer x).sent.length ≤ bound) :
    {i | (Runs.states step p events i).Delivers (events i)}.Finite := by
  obtain ⟨bound, hbound⟩ := h
  have hthere : ∀ n, Nat.count
      (fun i => (Runs.states step p events i).Hands x.other (fun _ => true) (events i)) n ≤ bound := by
    intro n
    have hle := hrun.count_le hp x.other n
    rw [Side.other_other] at hle
    exact hle.trans (hbound n)
  -- the other side answers finitely many packets, or transmits nothing for want of a channel
  obtain ⟨bound', hbound'⟩ : ∃ bound, ∀ n, ((Runs.states step p events n).peer x.other).sent.length ≤ bound := by
    cases hrecv : (p.peer x.other).inner.recvRx.closed with
    | true => exact hrun.limited_of_recv hp hrecv
    | false =>
        exact ⟨_ + 2 * bound, fun n => (hrun.sent_le hp x.other hrecv n).trans
          (Nat.add_le_add_left (Nat.mul_le_mul_left 2 (hthere n)) _)⟩
  have hback := fun n => (hrun.count_le hp x n).trans (hbound' n)
  refine ((Counting.finite_of_count_le hback).union (Counting.finite_of_count_le hthere)).subset ?_
  rintro i ⟨y, hy⟩
  obtain ⟨packet, hpacket⟩ := Option.isSome_iff_exists.mp hy
  have hy' : y = x ∨ y = x.other := by cases x <;> cases y <;> decide
  rcases hy' with rfl | rfl
  · exact Or.inl ⟨packet, hpacket, rfl⟩
  · exact Or.inr ⟨packet, hpacket, rfl⟩

end Counting

end Pair

end AsyncUdx
