import Mathlib.Algebra.Group.Prod
import AsyncUdx.Host
import AsyncUdx.Demultiplexing

/-! What a host hands to the kernel over whole runs. Every transmit that is made waits in the queue until the UDP socket
is done with it, and it is counted then; the kernel gets the transmits in the order in which they were made, none of
them twice, and misses only those that it has refused. -/

namespace AsyncUdx

open Udp

/-! ### Counters -/

/-- The counters of what was sent: transmits, datagrams and bytes. -/
def SocketStats.sent (stats : SocketStats) : Nat × Nat × Nat := (stats.txTransmits, stats.txDgrams, stats.txBytes)

/-- What the counters should be for a list of transmits. -/
def totals (transmits : List Transmit) : Nat × Nat × Nat :=
  (transmits.length, (transmits.map Transmit.numSegments).sum,
    (transmits.map fun transmit => transmit.contents.length).sum)

theorem totals_append (transmits transmits' : List Transmit) :
    totals (transmits ++ transmits') = totals transmits + totals transmits' := by
  unfold totals
  rw [List.length_append, List.map_append, List.map_append, List.sum_append, List.sum_append]
  rfl

theorem trackTx_sent (transmits : List Transmit) (stats : SocketStats) :
    (transmits.foldl SocketStats.trackTx stats).sent = stats.sent + totals transmits := by
  induction transmits generalizing stats with
  | nil => rfl
  | cons transmit rest ih =>
      have hone : (stats.trackTx transmit).sent = stats.sent + totals [transmit] := by
        simp [SocketStats.sent, SocketStats.trackTx, totals]
      calc ((transmit :: rest).foldl SocketStats.trackTx stats).sent
          = (stats.trackTx transmit).sent + totals rest := ih (stats.trackTx transmit)
        _ = stats.sent + (totals [transmit] + totals rest) := by rw [hone, add_assoc]
        _ = stats.sent + totals (transmit :: rest) := by rw [← totals_append]; rfl

/-! ### The sending side of a socket -/

namespace UdxSocket

/-- The transmits that wait, the counters and the timer that holds back sending. -/
def txSide (h : UdxSocket) : List Transmit × (Nat × Nat × Nat) × Option Nat :=
  (h.inner.outgoingTransmits, h.inner.stats.sent, h.inner.sendOverflowTimer)

theorem receive_txSide (h : UdxSocket) (arrival : Arrival) : (h.receive arrival).txSide = h.txSide := by
  rw [receive_eq]
  split
  · rfl
  · unfold onRecvDgram
    split <;> rfl
  · rw [remove_eq]
    rfl
  · rfl

theorem pollRecv_txSide (h : UdxSocket) (cx : SocketContext) : (h.pollRecv cx).1.txSide = h.txSide := by
  rw [pollRecv, recvLoop_eq]
  refine List.foldlRecOn (motive := fun t => t.txSide = h.txSide) _ receive rfl ?_
  exact fun t ht arrival _ => (t.receive_txSide arrival).trans ht

theorem step_txSide (h : UdxSocket) {e : SocketEvent} (he : ∀ cx, e ≠ .poll cx) : (h.step e).txSide = h.txSide := by
  cases e with
  | poll cx => exact absurd rfl (he cx)
  | tick elapsed => rfl
  | stream n c =>
      rw [step, callStream]
      split
      · split <;> rfl
      · rfl
  | connect dest localId remoteId =>
      rw [step]
      split
      · rfl
      · unfold connect dropHandle
        dsimp only
        split <;> rfl
  | send dest buf =>
      rw [step]
      split <;> rfl
  | recv waker =>
      rw [step, recv]
      split
      · rfl
      · split <;> rfl
  | clone =>
      rw [step]
      split <;> rfl
  | drop =>
      rw [step]
      split
      · rfl
      · unfold release onDrop
        split_ifs <;> rfl

/-- Taking events only adds transmits to the queue. -/
theorem takeEvents_txSide (h : UdxSocket) (budget : Nat) : ∃ new,
    (h.takeEvents budget).1.txSide =
      (h.inner.outgoingTransmits ++ new, h.inner.stats.sent, h.inner.sendOverflowTimer) := by
  refine takeEvents_invariant (fun t => ∃ new,
    t.txSide = (h.inner.outgoingTransmits ++ new, h.inner.stats.sent, h.inner.sendOverflowTimer)) ?_ budget
    ⟨[], by rw [List.append_nil]; rfl⟩
  rintro t ⟨origin, event⟩ rest - ⟨new, hnew⟩
  obtain ⟨hqueue, hrest⟩ := Prod.ext_iff.mp hnew
  cases event with
  | streamDropped localId =>
      refine ⟨new, ?_⟩
      dsimp only [handleEvent]
      rw [remove_eq]
      exact hnew
  | transmitDgram dgram =>
      refine ⟨new ++ [dgram.intoTransmit], Prod.ext ?_ hrest⟩
      rw [← List.append_assoc]
      exact congrArg (· ++ [dgram.intoTransmit]) hqueue
  | transmit set =>
      refine ⟨new ++ [set.toTransmit (t.skip origin)], Prod.ext ?_ hrest⟩
      rw [← List.append_assoc]
      exact congrArg (· ++ [set.toTransmit (t.skip origin)]) hqueue

/-- What `poll_transmit` does on the sending side: transmits join the queue, and as many as the UDP socket is done with
leave it and are counted. -/
structure Transmits (h : UdxSocket) (cx : SocketContext) (new : List Transmit) (t : UdxSocket) : Prop where
  queue : t.inner.outgoingTransmits = (h.inner.outgoingTransmits ++ new).drop cx.sendOutcome.count
  sent : t.inner.stats.sent =
    h.inner.stats.sent + totals ((h.inner.outgoingTransmits ++ new).take cx.sendOutcome.count)
  timer : cx.sendOutcome ≠ .interrupted → t.inner.sendOverflowTimer = h.inner.sendOverflowTimer

theorem pollTransmit_transmits (h : UdxSocket) (cx : SocketContext) : ∃ new,
    (h.takeEvents cx.budget).1.inner.outgoingTransmits = h.inner.outgoingTransmits ++ new ∧
      Transmits h cx new (h.pollTransmit cx).1 := by
  obtain ⟨new, hnew⟩ := h.takeEvents_txSide cx.budget
  refine ⟨new, congrArg Prod.fst hnew, ?_⟩
  unfold pollTransmit
  generalize h.takeEvents cx.budget = taken at *
  obtain ⟨t, stopped⟩ := taken
  have hqueue : t.inner.outgoingTransmits = h.inner.outgoingTransmits ++ new := congrArg Prod.fst hnew
  have hsent : t.inner.stats.sent = h.inner.stats.sent := congrArg (fun side => side.2.1) hnew
  have htimer : t.inner.sendOverflowTimer = h.inner.sendOverflowTimer := congrArg (fun side => side.2.2) hnew
  have hidle : cx.sendOutcome.count = 0 → Transmits h cx new t := by
    intro hzero
    refine ⟨?_, ?_, fun _ => htimer⟩
    · rw [hzero]
      exact hqueue
    · rw [hzero]
      exact hsent
  dsimp only
  split
  · rename_i hempty
    refine ⟨?_, ?_, fun _ => htimer⟩
    · rw [← hqueue, List.isEmpty_iff.mp hempty, List.drop_nil]
    · rw [← hqueue, List.isEmpty_iff.mp hempty, List.take_nil]
      exact hsent
  · cases houtcome : cx.sendOutcome with
    | pending => exact hidle (congrArg SendOutcome.count houtcome)
    | failed err => exact hidle (congrArg SendOutcome.count houtcome)
    | interrupted =>
        have hsame := hidle (congrArg SendOutcome.count houtcome)
        exact ⟨hsame.queue, hsame.sent, fun hne => absurd houtcome hne⟩
    | sent n =>
        dsimp only
        rw [drain_eq]
        refine ⟨?_, ?_, fun _ => htimer⟩
        · rw [houtcome, ← hqueue]
          rfl
        · rw [houtcome, ← hqueue, ← hsent]
          exact trackTx_sent _ _

theorem txSide_inj {h t : UdxSocket} (hsame : h.txSide = t.txSide) :
    h.inner.outgoingTransmits = t.inner.outgoingTransmits ∧ h.inner.stats.sent = t.inner.stats.sent ∧
      h.inner.sendOverflowTimer = t.inner.sendOverflowTimer :=
  ⟨congrArg Prod.fst hsame, congrArg (fun side => side.2.1) hsame, congrArg (fun side => side.2.2) hsame⟩

theorem Transmits.congr {h h' t t' : UdxSocket} {cx : SocketContext} {new : List Transmit}
    (htransmits : Transmits h cx new t) (hbefore : h.txSide = h'.txSide) (hafter : t'.txSide = t.txSide) :
    Transmits h' cx new t' := by
  obtain ⟨hqueue, hsent, htimer⟩ := txSide_inj hbefore
  obtain ⟨hqueue', hsent', htimer'⟩ := txSide_inj hafter
  refine ⟨?_, ?_, fun hne => ?_⟩
  · rw [hqueue', ← hqueue]
    exact htransmits.queue
  · rw [hsent', ← hqueue, ← hsent]
    exact htransmits.sent
  · rw [htimer', ← htimer]
    exact htransmits.timer hne

/-- What a poll does on the sending side: nothing if it does not get to `poll_transmit`, except that a timer that has
fired is cleared, and otherwise what `poll_transmit` does. -/
theorem poll_transmits (h : UdxSocket) (cx : SocketContext) :
    (h.transmitting cx = none ∧ (h.poll cx).inner.outgoingTransmits = h.inner.outgoingTransmits ∧
      (h.poll cx).inner.stats.sent = h.inner.stats.sent ∧
      (h.inner.sendOverflowTimer = none → (h.poll cx).inner.sendOverflowTimer = none)) ∨
    ∃ t new, h.transmitting cx = some t ∧ t.inner.outgoingTransmits = h.inner.outgoingTransmits ∧
      (t.takeEvents cx.budget).1.inner.outgoingTransmits = h.inner.outgoingTransmits ++ new ∧
      Transmits h cx new (h.poll cx) := by
  have hrecv := h.pollRecv_txSide cx
  have hfinish := finish_frame txSide fun _ _ _ _ _ _ => rfl
  have hsettle := settle_frame txSide fun _ _ _ _ _ _ => rfl
  have hidle : ∀ t : UdxSocket, t.txSide = h.txSide → t.inner.outgoingTransmits = h.inner.outgoingTransmits ∧
      t.inner.stats.sent = h.inner.stats.sent ∧
      (h.inner.sendOverflowTimer = none → t.inner.sendOverflowTimer = none) := by
    intro t ht
    obtain ⟨hqueue, hsent, htimer⟩ := txSide_inj ht
    exact ⟨hqueue, hsent, htimer.trans⟩
  have hsends : ∀ t, t.txSide = ((h.pollRecv cx).1.pollTransmit cx).1.txSide → ∃ new,
      ((h.pollRecv cx).1.takeEvents cx.budget).1.inner.outgoingTransmits = h.inner.outgoingTransmits ++ new ∧
        Transmits h cx new t := by
    intro t ht
    obtain ⟨new, hnew, htransmits⟩ := (h.pollRecv cx).1.pollTransmit_transmits cx
    refine ⟨new, ?_, htransmits.congr hrecv ht⟩
    rw [hnew, (txSide_inj hrecv).1]
  rcases h.poll_cases cx with ⟨hnone, err, hpoll⟩ | ⟨hnone, deadline, shouldContinue, -, -, hpoll⟩ |
    ⟨hnone, hpoll⟩ | ⟨hsome, -, ⟨err, -, hpoll⟩ | ⟨more, shouldContinue, -, hpoll⟩⟩ <;> rw [hpoll]
  · exact Or.inl ⟨hnone, hidle _ ((hfinish _ _).trans hrecv)⟩
  · exact Or.inl ⟨hnone, hidle _ ((hsettle _ _ _).trans hrecv)⟩
  · obtain ⟨hqueue, hsent, -⟩ := txSide_inj hrecv
    obtain ⟨hqueue', hsent', htimer'⟩ := txSide_inj (hsettle { (h.pollRecv cx).1 with
      inner := { (h.pollRecv cx).1.inner with sendOverflowTimer := none } } cx true)
    exact Or.inl ⟨hnone, hqueue'.trans hqueue, hsent'.trans hsent, fun _ => htimer'⟩
  · obtain ⟨new, hnew, htransmits⟩ := hsends _ (hfinish _ (.error err))
    exact Or.inr ⟨_, new, hsome, (txSide_inj hrecv).1, hnew, htransmits⟩
  · obtain ⟨new, hnew, htransmits⟩ := hsends _ (hsettle _ cx (shouldContinue || more))
    exact Or.inr ⟨_, new, hsome, (txSide_inj hrecv).1, hnew, htransmits⟩

end UdxSocket

/-! ### The books of a host -/

namespace Host

variable {p : Platform}

/-- **The books of a host balance.** -/
structure Balanced (h : Host p) : Prop where
  built : h.built = h.handled ++ h.socket.inner.outgoingTransmits
  sent : h.socket.inner.stats.sent = totals h.handled
  wire : Queue.Merges h.wire h.refused h.handled

/-- What a poll makes and offers, next to what it does to the queue. -/
theorem building_eq {h : Host p} {cx : HostContext p} {received : List (Except IoError (List Arrival))}
    {t : UdxSocket} {new : List Transmit}
    (hsome : h.socket.transmitting (cx.lower received .pending) = some t)
    (hqueue : t.inner.outgoingTransmits = h.socket.inner.outgoingTransmits)
    (hnew : (t.takeEvents cx.budget).1.inner.outgoingTransmits = h.socket.inner.outgoingTransmits ++ new) :
    h.building cx received = new ∧
      h.offered cx received = (h.socket.inner.outgoingTransmits ++ new).take (max 1 cx.slice) := by
  unfold building offered
  rw [hsome]
  dsimp only
  rw [hnew, hqueue, List.drop_left]
  exact ⟨rfl, rfl⟩

theorem ofPoll_count_of_not_sent {result : Poll (Except IoError Nat)} (h : ∀ n, result ≠ .ready (.ok n)) :
    (SendOutcome.ofPoll result).count = 0 := by
  unfold SendOutcome.ofPoll
  split
  · rfl
  · split <;> rfl
  · exact absurd rfl (h _)

/-- How many transmits an answer is about, at most as many as were offered, and what the kernel does with them. -/
theorem answers_count {now : Nat} {transmits : List Transmit} {reactor : List IoError} {udp : UdpSocket}
    {answer : Answer} (h : Answers now transmits reactor udp answer) :
    (SendOutcome.ofPoll answer.result).count ≤ transmits.length ∧
      Queue.Merges answer.taken answer.refused (transmits.take (SendOutcome.ofPoll answer.result).count) := by
  by_cases hsent : ∃ n, answer.result = .ready (.ok n)
  · obtain ⟨n, hn⟩ := hsent
    rw [hn]
    exact h.sent n hn
  · obtain ⟨htaken, hrefused⟩ := h.blocked fun n hn => hsent ⟨n, hn⟩
    rw [ofPoll_count_of_not_sent fun n hn => hsent ⟨n, hn⟩, htaken, hrefused]
    exact ⟨Nat.zero_le _, .nil⟩

theorem Polled.balanced {h after : Host p} {cx : HostContext p} (hpolled : Polled h cx after) (hs : h.Balanced) :
    after.Balanced := by
  cases hpolled with
  | stuck => exact hs
  | silent received hreceived hnone =>
      rcases h.socket.poll_transmits (cx.lower received .pending) with
        ⟨hidle, hqueue, hsent, -⟩ | ⟨t, new, hsome, hbefore, hnew, htransmits⟩
      · refine ⟨?_, hsent.trans hs.sent, hs.wire⟩
        have hnothing : h.building cx received = [] := by
          unfold building
          rw [hidle]
        rw [hnothing, List.append_nil, hs.built]
        exact congrArg _ hqueue.symm
      · obtain ⟨hbuilding, -⟩ := building_eq hsome hbefore hnew
        refine ⟨?_, htransmits.sent.trans hs.sent, hs.wire⟩
        rw [hbuilding, hs.built, List.append_assoc]
        exact congrArg _ htransmits.queue.symm
  | sends received answer hreceived hoffered hanswer =>
      obtain ⟨hcount, htaken⟩ := answers_count (p.answers _ _ _ _ _ hanswer)
      rcases h.socket.poll_transmits (cx.lower received (.ofPoll answer.result)) with
        ⟨hidle, -⟩ | ⟨t, new, hsome, hbefore, hnew, htransmits⟩
      · have hnothing : h.offered cx received = [] := by
          unfold offered
          rw [show h.socket.transmitting (cx.lower received .pending) = none from hidle]
        exact absurd hnothing hoffered
      · obtain ⟨hbuilding, htake⟩ := building_eq hsome hbefore hnew
        generalize hcx : cx.lower received (.ofPoll answer.result) = cx' at *
        generalize hn : (SendOutcome.ofPoll answer.result).count = n at *
        have hcount' : cx'.sendOutcome.count = n := by
          rw [← hcx]
          exact hn
        have hfirst : (h.offered cx received).take n = (h.socket.inner.outgoingTransmits ++ new).take n := by
          rw [htake, List.length_take] at hcount
          rw [htake, List.take_take, Nat.min_eq_left (hcount.trans (Nat.min_le_left _ _))]
        refine ⟨?_, ?_, hs.wire.append htaken⟩
        · rw [htransmits.queue, hfirst, hbuilding, hs.built, hcount', List.append_assoc, List.append_assoc,
            List.take_append_drop]
        · rw [htransmits.sent, hfirst, totals_append, hs.sent, hcount']

theorem step_balanced {h : Host p} (hs : h.Balanced) (e : HostEvent p) : (h.step e).Balanced := by
  have hstepped := h.step_stepped e
  generalize h.step e = after at hstepped ⊢
  cases hstepped with
  | same => exact hs
  | quiet e' he' =>
      obtain ⟨hqueue, hsent, -⟩ := UdxSocket.txSide_inj (h.socket.step_txSide he')
      refine ⟨?_, hsent.trans hs.sent, hs.wire⟩
      rw [hqueue]
      exact hs.built
  | polls cx he hrunning hpolled => exact hpolled.balanced hs

/-- When the kernel refuses nothing, it takes what the UDP socket is done with. -/
theorem step_whole {h : Host p} (hs : h.wire = h.handled) (e : HostEvent p)
    (haccepting : ∀ cx, e = .poll cx → p.accepting cx.writable) : (h.step e).wire = (h.step e).handled := by
  have hstepped := h.step_stepped e
  generalize h.step e = after at hstepped ⊢
  cases hstepped with
  | same => exact hs
  | quiet e' he' => exact hs
  | polls cx he hrunning hpolled =>
      cases hpolled with
      | stuck => exact hs
      | silent received hreceived hnone => exact hs
      | sends received answer hreceived hoffered hanswer =>
          refine congrArg₂ _ hs ?_
          by_cases hsent : ∃ n, answer.result = .ready (.ok n)
          · obtain ⟨n, hn⟩ := hsent
            rw [hn]
            exact p.takes _ _ _ _ _ n (haccepting cx he) hanswer hn
          · obtain ⟨htaken, -⟩ := (p.answers _ _ _ _ _ hanswer).blocked fun n hn => hsent ⟨n, hn⟩
            rw [htaken, ofPoll_count_of_not_sent fun n hn => hsent ⟨n, hn⟩]
            rfl

/-- **Nothing is lost or sent twice on the way to the kernel.** In every run of a host, the transmits made so far are,
in their order, those the UDP socket is done with and those that still wait; the counters of the socket are about the
former; and what is on the wire and what the kernel has refused make them up, each in the order in which they were
made. -/
theorem transmits_conserved (now maxGsoSegments : Nat) (earlier : Option Int) (events : List (HostEvent p)) :
    let h := Runs.run step (Host.bind now maxGsoSegments earlier) events
    h.built = h.handled ++ h.socket.inner.outgoingTransmits ∧ Queue.Merges h.wire h.refused h.handled ∧
      ((∀ cx, .poll cx ∈ events → p.accepting cx.writable) → h.wire = h.handled) ∧
      h.socket.inner.stats.txTransmits = h.handled.length ∧
      h.socket.inner.stats.txDgrams = (h.handled.map Transmit.numSegments).sum ∧
      h.socket.inner.stats.txBytes = (h.handled.map fun transmit => transmit.contents.length).sum := by
  have hbalanced : (Runs.run step (Host.bind now maxGsoSegments earlier) events : Host p).Balanced :=
    Runs.run_invariant Balanced (fun _ e hs => step_balanced hs e) ⟨rfl, rfl, .nil⟩ events
  refine ⟨hbalanced.built, hbalanced.wire, fun haccepting => ?_, congrArg Prod.fst hbalanced.sent,
    congrArg (fun sent => sent.2.1) hbalanced.sent, congrArg (fun sent => sent.2.2) hbalanced.sent⟩
  refine List.foldlRecOn (motive := fun h : Host p => h.wire = h.handled) events step rfl ?_
  exact fun h hs e he => step_whole hs e fun cx hcx => haccepting cx (hcx ▸ he)

end Host

end AsyncUdx
