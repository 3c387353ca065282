import AsyncUdx.PairExchange

/-! A terminated stream whose data packets have all been heard falls silent. Once the peer has them all, all it
transmits acknowledges them all, and the first such packet that the stream handles drains it; before that the packets
that acknowledge less are limited in number. -/

namespace AsyncUdx

open Relation UdxStreamInner Reassembly

/-! ### A side that has been heard -/

/-- A stream has every packet below `top`, at the latest when it has handled the first `n` packets of its channel. -/
def Holds (top : UInt32) (n : Nat) (s : UdxStreamInner) : Prop :=
  ∀ k < top, k ∈ s.ghost.received ∨
    ∃ packet ∈ s.recvRx.queue.take n, packet.hasType udxHeaderData = true ∧ packet.seq = k

/-- The acknowledgements below `top`. -/
def short (top : UInt32) (ack : UInt32) : Bool := decide (ack < top)

/-- A stream that has everything below `top` acknowledges it. -/
theorem Holds.not_short {top : UInt32} {s : UdxStreamInner} (h : Holds top 0 s) (hs : Reassembled s.recvSide) :
    short top s.ack = false := by
  rw [short, decide_eq_false_iff_not]
  intro hlt
  rcases h s.ack hlt with hmem | ⟨packet, hpacket, -⟩
  · exact hs.least.1 hmem
  · exact List.not_mem_nil hpacket

/-- Handling the first packet of the channel brings a stream one packet closer. -/
theorem Holds.pop {now : Nat} {top : UInt32} {n : Nat} {s : UdxStreamInner} (h : Holds top n s)
    (hfirewall : s.onFirewall = none) {packet : IncomingPacket} {rest : List IncomingPacket}
    (hcons : s.recvRx.queue = packet :: rest) :
    Holds top (n - 1) (handleIncoming { s with recvRx := { s.recvRx with queue := rest } } now packet) := by
  intro k hk
  let popped : UdxStreamInner := { s with recvRx := { s.recvRx with queue := rest } }
  rw [handleIncoming_received (s := popped) hfirewall, handleIncoming_recvRx]
  change k ∈ s.ghost.received ++ _ ∨ ∃ packet ∈ rest.take (n - 1), _
  rcases h k hk with hmem | ⟨other, hother, htype, hseq⟩
  · exact Or.inl (List.mem_append_left _ hmem)
  · cases n with
    | zero => exact absurd hother List.not_mem_nil
    | succ n =>
        rw [hcons, List.take_succ_cons] at hother
        rcases List.mem_cons.mp hother with rfl | hother
        · left
          rw [if_pos htype, hseq]
          exact List.mem_append_right _ (List.mem_singleton.mpr rfl)
        · exact Or.inr ⟨other, hother, htype, hseq⟩

theorem Holds.of_eq {top : UInt32} {n : Nat} {s t : UdxStreamInner} (h : Holds top n s)
    (hreceived : t.ghost.received = s.ghost.received) (hrecv : t.recvRx = s.recvRx) : Holds top n t := by
  intro k hk
  rw [hreceived, hrecv]
  exact h k hk

/-- While a stream is on its way to having everything below `top`, its answers are paid for by the packets on which it
waits; after that they acknowledge everything. -/
structure Progress (created : List Packet) (top : UInt32) (bound : Nat) (s : UdxStreamInner) : Prop where
  firewall : s.onFirewall = none
  receives : Receives created s.recvSide
  channel : ∀ packet ∈ s.recvRx.queue, FromPeer created packet
  paid : ∃ n, Holds top n s ∧ s.load (short top) + 2 * n ≤ bound

theorem Progress.handle {now : Nat} {created : List Packet} (hfew : created.length < 2 ^ 32) {top : UInt32}
    {bound : Nat} {s : UdxStreamInner} (hs : Progress created top bound s) {packet : IncomingPacket}
    {rest : List IncomingPacket} (hcons : s.recvRx.queue = packet :: rest) :
    Progress created top bound (handleIncoming { s with recvRx := { s.recvRx with queue := rest } } now packet) := by
  let popped : UdxStreamInner := { s with recvRx := { s.recvRx with queue := rest } }
  have hpacket : FromPeer created packet := hs.channel packet (by rw [hcons]; exact List.mem_cons_self)
  have hchain : Chain (FromPeer created) now popped (popped.handleIncoming now packet) :=
    handleIncoming_chain hpacket popped
  have hnext : Receives created (popped.handleIncoming now packet).recvSide :=
    chain_invariant (fun s => Receives created s.recvSide) (fun _ _ h => h.receives hfew) hchain hs.receives
  obtain ⟨n, hholds, hload⟩ := hs.paid
  have hheld : Holds top (n - 1) (popped.handleIncoming now packet) := hholds.pop hs.firewall hcons
  have hle : (popped.handleIncoming now packet).load (short top) ≤ s.load (short top) +
    (if short top s.ack then 1 else 0) + if short top (popped.handleIncoming now packet).ack then 1 else 0 :=
    handleIncoming_load_le (short top) popped packet
  refine ⟨(handleIncoming_onFirewall popped packet).trans hs.firewall, hnext, ?_, n - 1, hheld, ?_⟩
  · intro other hother
    rw [handleIncoming_recvRx] at hother
    exact hs.channel other (by rw [hcons]; exact List.mem_cons_of_mem _ hother)
  · cases n with
    | zero =>
        rw [hholds.not_short hs.receives.reassembled, Holds.not_short hheld hnext.reassembled] at hle
        exact hle.trans hload
    | succ n =>
        change (popped.handleIncoming now packet).load (short top) + 2 * n ≤ _
        split_ifs at hle <;> omega

theorem Progress.acknowledge {now : Nat} {created : List Packet} {top : UInt32} {bound : Nat} {s : UdxStreamInner}
    (hs : Progress created top bound s) (ack : UInt32) :
    Progress created top bound (s.handleIncomingMaxRemoteAck now ack) := by
  have hside : (s.handleIncomingMaxRemoteAck now ack).recvSide = s.recvSide :=
    handleIncomingMaxRemoteAck_frame recvSide ackPacket_recvSide (fun _ _ => rfl) (fun _ _ => rfl) (fun _ _ => rfl) s
      ack
  obtain ⟨n, hholds, hload⟩ := hs.paid
  refine ⟨?_, by rw [hside]; exact hs.receives, by rw [handleIncomingMaxRemoteAck_recvRx]; exact hs.channel, n,
    hholds.of_eq (congrArg RecvSide.received hside) (handleIncomingMaxRemoteAck_recvRx s ack), ?_⟩
  · exact (handleIncomingMaxRemoteAck_frame onFirewall ackPacket_onFirewall (fun _ _ => rfl) (fun _ _ => rfl)
      (fun _ _ => rfl) s ack).trans hs.firewall
  · exact (Nat.add_le_add_right (handleIncomingMaxRemoteAck_load_le (short top) s ack) _).trans hload

theorem pollIncoming_progress {created : List Packet} (hfew : created.length < 2 ^ 32) {top : UInt32} {bound : Nat}
    {s : UdxStreamInner} (cx : Context) (hs : Progress created top bound s) :
    Progress created top bound (s.pollIncoming cx).1 :=
  incomingLoop_invariant (Progress created top bound) (fun _ _ _ hcons hs => hs.handle hfew hcons)
    (fun _ ack hs => hs.acknowledge ack) _ _ hs

/-! ### When one side has been heard to the end -/

/-- A stream that is on its way to everything below `top` has few packets on their way that acknowledge less. -/
def Hearing (top : UInt32) (bound : Nat) (v : UdxStream) : Prop :=
  ∃ n, Holds top n v.inner ∧ v.load (short top) + 2 * n ≤ bound

theorem poll_hearing {created : List Packet} (hfew : created.length < 2 ^ 32) {top : UInt32} {bound : Nat}
    {v : UdxStream} {cx : Context} (hrunning : v.driver = .running) (hrecv : v.inner.recvRx.closed = false)
    (hquiet : v.Unexpired cx) (hfirewall : v.inner.onFirewall = none) (hreceives : Receives created v.inner.recvSide)
    (hqueue : ∀ packet ∈ v.inner.recvRx.queue, FromPeer created packet) (hv : Hearing top bound v) :
    Hearing top bound (v.poll cx) := by
  obtain ⟨n, hholds, hload⟩ := hv
  rw [UdxStream.load, if_pos hrunning] at hload
  cases hdone : v.inner.closedAndDrained with
  | true =>
      have hreceived : (v.poll cx).inner.ghost.received = v.inner.ghost.received := by
        rw [UdxStream.poll_frame (fun s => s.ghost.received) (fun _ _ => rfl) (fun _ _ _ => rfl),
          pollDriver_complete _ _ hdone]
        rfl
      have hle := UdxStream.poll_drained_load_le (short top) cx hdone
      exact ⟨n, hholds.of_eq hreceived (UdxStream.poll_drained_recvRx cx hdone), by omega⟩
  | false =>
      let idle : UdxStreamInner := { v.inner with driveWaker := none }
      have hprogress : Progress created top (idle.load (short top) + 2 * n) idle :=
        ⟨hfirewall, hreceives, hqueue, n, hholds, Nat.le_refl _⟩
      obtain ⟨m, hheld, hle⟩ := (pollIncoming_progress hfew cx hprogress).paid
      have hreceived : (v.poll cx).inner.ghost.received = (idle.pollIncoming cx).1.ghost.received :=
        UdxStream.poll_received cx hdone
      have hqueue' : (v.poll cx).inner.recvRx = (idle.pollIncoming cx).1.recvRx := by
        rw [UdxStream.poll_recvRx cx hdone]
        exact (pollIncoming_recvRx idle cx).symm
      have hafter := UdxStream.poll_driven_load_le (short top) hdone hrecv (hquiet hrunning hdone)
      refine ⟨m, hheld.of_eq hreceived hqueue', ?_⟩
      change idle.load (short top) + 1 + 2 * n ≤ bound at hload
      change _ ≤ (idle.pollIncoming cx).1.load (short top) + 1 at hafter
      omega

theorem Holds.arrive {top : UInt32} {n : Nat} {s : UdxStreamInner} (h : Holds top n s) (packet : IncomingPacket) :
    Holds top n { s with recvRx := { s.recvRx with queue := s.recvRx.queue ++ [packet] } } := by
  intro k hk
  refine (h k hk).imp id fun ⟨other, hother, hdata⟩ => ⟨other, ?_, hdata⟩
  exact ((List.prefix_append _ [packet]).take n).subset hother

namespace Pair

theorem Turn.hearing {p q : Pair} (hq : Steady p q) {x : Side} {e : PairEvent} {v : UdxStream} (h : Turn q x e v)
    (hrecv : (q.peer x).inner.recvRx.closed = false) {top : UInt32} {bound : Nat}
    (hheard : Hearing top bound (q.peer x)) : Hearing top bound v := by
  cases h with
  | idle _ h => exact hheard
  | poll waker timerLag budget maxGsoSegments hrunning hbudget hquiet =>
      have hflow := (hq.agreed x).back
      exact poll_hearing (hq.few x.other) hrunning hrecv hquiet (hq.firewall x) hflow.receives hflow.channel hheard
  | arrive n packet hpacket hopen =>
      obtain ⟨m, hholds, hload⟩ := hheard
      exact ⟨m, hholds.arrive _, hload⟩

/-- A poll that does not finish the stream takes only packets that acknowledge less than everything. -/
theorem Steady.take_short {p q : Pair} (hq : Steady p q) {x : Side} {cx : Context}
    (hrecv : (q.peer x).inner.recvRx.closed = false) (hsend : (q.peer x).inner.sendTx.closed = false)
    (hgoing : ¬Finished (q.peer x)) (hgoing' : ¬Finished ((q.peer x).poll cx)) :
    ∀ packet ∈ (q.peer x).inner.recvRx.queue.take cx.budget,
      short (q.peer x).inner.seq packet.header.ack = true := by
  obtain ⟨hrunning, hopen⟩ := not_or.mp hgoing
  intro packet hpacket
  by_contra hfull
  rw [short, decide_eq_true_eq, UInt32.not_lt] at hfull
  have hwindow := hq.reachable.inWindow x (hq.few x) (hq.few x.other)
  have hacked : ∀ k ∈ (q.peer x).inner.outgoing, Acknowledged (q.peer x).inner cx.budget k := by
    intro k hk
    obtain ⟨hlow, hhigh⟩ := Counter.mem_range.mp (hwindow.2 k hk)
    refine Or.inr ⟨hlow, UInt32.lt_of_lt_of_le hhigh (UInt32.le_trans hfull ?_)⟩
    rw [appliedAck, hrecv]
    exact le_largestAck hpacket
  exact hgoing' (Or.inr (pollDriver_drains (Classical.not_not.mp hrunning) (hq.firewall x) (hq.terminated x)
    (Bool.eq_false_iff.mpr hopen) hrecv hsend hacked).2)

section Heard

open Classical

/-- A side that is not finished is only held up by packets that acknowledge less than everything. -/
theorem Turn.unheard_le {p q : Pair} (hq : Steady p q) {x : Side} {e : PairEvent} {u : UdxStream} (h : Turn q x e u)
    (hrecv : (q.peer x).inner.recvRx.closed = false) (hsend : (q.peer x).inner.sendTx.closed = false)
    (hgoing : ¬Finished (q.peer x)) (hgoing' : ¬Finished u) {top : UInt32} (htop : (q.peer x).inner.seq = top) :
    u.load (fun _ => true) + 2 * u.inner.recvRx.queue.countP (fun packet => short top packet.header.ack) ≤
      (q.peer x).load (fun _ => true) +
        2 * (q.peer x).inner.recvRx.queue.countP (fun packet => short top packet.header.ack) +
        if q.Hands x (short top) e then 2 else 0 := by
  cases h with
  | idle _ h => exact Nat.le_add_right _ _
  | poll waker timerLag budget maxGsoSegments hrunning hbudget hquiet =>
      refine Nat.le_add_right_of_le ?_
      have hshort := hq.take_short hrecv hsend hgoing hgoing'
      have hanswers := UdxStream.poll_answers_le (fun _ => true) hrunning hrecv hquiet
      rw [UdxStream.poll_recvRx _ (Bool.eq_false_iff.mpr (not_or.mp hgoing).2)] at hanswers ⊢
      dsimp only at hanswers hshort ⊢
      have hsplit := List.take_append_drop budget (q.peer x).inner.recvRx.queue
      have hlen : (q.peer x).inner.recvRx.queue.length = ((q.peer x).inner.recvRx.queue.take budget).length +
          ((q.peer x).inner.recvRx.queue.drop budget).length := by
        rw [← List.length_append, hsplit]
      have hcount : (q.peer x).inner.recvRx.queue.countP (fun packet => short top packet.header.ack) =
          ((q.peer x).inner.recvRx.queue.take budget).length +
            ((q.peer x).inner.recvRx.queue.drop budget).countP fun packet => short top packet.header.ack := by
        rw [← List.countP_eq_length.mpr (htop ▸ hshort), ← List.countP_append, hsplit]
      omega
  | arrive n packet hpacket hopen =>
      change (q.peer x).load (fun _ => true) + 2 * ((q.peer x).inner.recvRx.queue ++ [_]).countP _ ≤ _
      rw [List.countP_append, List.countP_singleton]
      by_cases hshort : short top packet.header.ack = true
      · have hhands : q.Hands x (short top) (.deliver x.other n) :=
          ⟨packet, arrival_eq_some.mpr ⟨n, rfl, hpacket⟩, hshort⟩
        rw [if_pos hshort, if_pos hhands]
        omega
      · rw [if_neg hshort]
        omega

variable {p : Pair} {events : Nat → PairEvent} (hrun : p.Exchange events) (hp : Steady p p)

include hrun hp

/-- The other side hands over only so many packets that acknowledge less than everything. -/
theorem Exchange.short_le (x : Side) (hrecv : (p.peer x.other).inner.recvRx.closed = false) {top : UInt32}
    (hholds : ∃ n, Holds top n (p.peer x.other).inner) :
    ∃ bound, ∀ n, Nat.count (fun i => (Runs.states step p events i).Hands x (short top) (events i)) n ≤ bound := by
  obtain ⟨m, hholds⟩ := hholds
  let bound := (p.peer x.other).load (short top) + 2 * m
  have hheard : ∀ n, Hearing top bound ((Runs.states step p events n).peer x.other) := by
    intro n
    induction n with
    | zero => exact ⟨m, hholds, Nat.le_refl _⟩
    | succ n ih =>
        exact (step_turn (hrun.quiet n) x.other).hearing (hrun.steady hp n)
          ((congrArg Setting.recvClosed ((hrun.steady hp n).setting x.other)).trans hrecv) ih
  refine ⟨bound, fun n => (hrun.arrivals_le hp x (short top) n).trans ?_⟩
  obtain ⟨k, -, hload⟩ := hheard n
  exact (sent_countP_le _ _).trans ((Nat.le_add_right _ _).trans hload)

/-- **Heard to the end.** A side whose packets the other side has, or has in its channel, transmits finitely many
packets: it goes on only as long as it gets packets that acknowledge less. -/
theorem Exchange.limited_of_heard (x : Side) (hrecv : (p.peer x).inner.recvRx.closed = false)
    (hsend : (p.peer x).inner.sendTx.closed = false) (hrecv' : (p.peer x.other).inner.recvRx.closed = false)
    (hholds : ∃ n, Holds (p.peer x).inner.seq n (p.peer x.other).inner) :
    ∃ bound, ∀ n, ((Runs.states step p events n).peer x).sent.length ≤ bound := by
  by_cases hdone : ∃ m, Finished ((Runs.states step p events m).peer x)
  · obtain ⟨m, hm⟩ := hdone
    exact hrun.limited_of_finished hm
  · rw [not_exists] at hdone
    obtain ⟨bound, hbound⟩ := hrun.short_le hp x hrecv' hholds
    have hstep : ∀ i, _ ≤ _ := fun i => by
      have hsteady := (hrun.steady hp i).setting x
      exact (step_turn (hrun.quiet i) x).unheard_le (hrun.steady hp i)
        ((congrArg Setting.recvClosed hsteady).trans hrecv) ((congrArg Setting.sendClosed hsteady).trans hsend)
        (hdone i) (hdone (i + 1)) (congrArg Setting.seq hsteady)
    have hle := Counting.le_add_count (f := fun i => ((Runs.states step p events i).peer x).load (fun _ => true) +
      2 * ((Runs.states step p events i).peer x).inner.recvRx.queue.countP fun packet =>
        short (p.peer x).inner.seq packet.header.ack) hstep
    exact ⟨_ + 2 * bound, fun n => (sent_length_le _).trans ((Nat.le_add_right _ _).trans
      ((hle n).trans (Nat.add_le_add_left (Nat.mul_le_mul_left 2 (hbound n)) _)))⟩

end Heard

/-- A side whose peer misses none of its packets has been heard. -/
theorem Steady.holds {p q : Pair} (hq : Steady p q) {x : Side}
    (h : ¬∃ k, (q.peer x.other).inner.ack ≤ k ∧ k < (q.peer x).inner.seq ∧ k ∉ (q.peer x.other).inner.incoming ∧
      ∀ packet ∈ (q.peer x.other).inner.recvRx.queue, packet.hasType udxHeaderData = true → packet.seq ≠ k) :
    ∃ n, Holds (q.peer x).inner.seq n (q.peer x.other).inner := by
  have hreassembled := (hq.agreed x).flow.receives.reassembled
  refine ⟨(q.peer x.other).inner.recvRx.queue.length, fun k hk => ?_⟩
  rw [List.take_length]
  by_contra hnot
  obtain ⟨hreceived, hqueue⟩ := not_or.mp hnot
  refine h ⟨k, hreassembled.least.le_of_notMem hreceived, hk, fun hmem => ?_, fun packet hpacket htype hseq => ?_⟩
  · exact hreceived ((hreassembled.keys_iff k).mp hmem).1
  · exact hqueue ⟨packet, hpacket, htype, hseq⟩

/-- **No echo.** When a side does not keep answering, finitely many packets are delivered. -/
theorem echoFree_of_not_sustains {p : Pair} (hp : Steady p p) {x : Side}
    (h : ¬Sustains (p.peer x) (p.peer x.other)) : p.EchoFree := by
  intro events hrun
  by_cases hrunning : (p.peer x).driver = .running
  swap
  · exact hrun.finite_of_limited hp (hrun.limited_of_finished (x := x) (m := 0) (Or.inl hrunning))
  cases hrecv : (p.peer x).inner.recvRx.closed with
  | true => exact hrun.finite_of_limited hp (hrun.limited_of_recv hp hrecv)
  | false =>
      cases hsend : (p.peer x).inner.sendTx.closed with
      | true => exact hrun.finite_of_limited hp (hrun.limited_of_send hp hsend)
      | false =>
          cases hrecv' : (p.peer x.other).inner.recvRx.closed with
          | true => exact hrun.finite_of_limited hp (hrun.limited_of_recv hp hrecv')
          | false =>
              have hholds := hp.holds (x := x) fun hmissing => h ⟨hrunning, hrecv, hsend, hmissing⟩
              exact hrun.finite_of_limited hp (hrun.limited_of_heard hp x hrecv hsend hrecv' hholds)

end Pair

end AsyncUdx
