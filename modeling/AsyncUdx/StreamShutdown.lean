import AsyncUdx.CloseFuture
import AsyncUdx.PacketLife
import AsyncUdx.StreamChannel

/-! How a stream ends, and when it does not. The driver completes in the poll that finds the stream terminated,
with nothing outstanding and nothing queued. Only an acknowledgement takes a packet out of `outgoing`, and only
a poll that gets as far as the transmission empties the queue: a stream whose socket is gone never does the second,
and one whose peer is silent never gets the first. -/

namespace AsyncUdx

open Relation UdxStreamInner

/-! ### A poll that drains the stream -/

/-- With nothing outstanding the timer finds nothing to declare lost. -/
theorem pollCheckTimeouts_empty {s : UdxStreamInner} (cx : Context) (hempty : s.outgoing.entries = []) :
    (s.pollCheckTimeouts cx).2 = .ok () ∧ (s.pollCheckTimeouts cx).1.outgoing.entries = [] := by
  have hnone := AList.lookup_of_entries_nil hempty
  unfold pollCheckTimeouts
  split_ifs
  · exact ⟨rfl, hempty⟩
  · exact ⟨rfl, hempty⟩
  · obtain ⟨hok, hlookup⟩ := timeoutLoop_lookup cx.now
      (Counter.range (s.backOff cx.now).remoteAcked (s.backOff cx.now).seq) (s.backOff cx.now)
      fun i packet h => by rw [show (s.backOff cx.now).outgoing.lookup i = none from hnone i] at h; cases h
    refine ⟨hok, AList.entries_eq_nil fun k => ?_⟩
    rw [hlookup, show (s.backOff cx.now).outgoing.lookup k = none from hnone k]
    exact ite_self _

/-- **Draining.** When the packets in the channel acknowledge everything that is outstanding, and the socket is
there, a poll leaves nothing outstanding and nothing queued. -/
theorem pollDrive_drains {s : UdxStreamInner} {cx : Context} (hfirewall : s.onFirewall = none)
    (hrecv : s.recvRx.closed = false) (hsend : s.sendTx.closed = false)
    (hacked : ∀ k ∈ s.outgoing, Acknowledged s cx.budget k) :
    (s.pollDrive cx).2 = .ok false ∧ (s.pollDrive cx).1.outgoing.entries = [] ∧
      (s.pollDrive cx).1.sendQueue = [] := by
  let handled := (s.pollIncoming cx).1
  let checked := (handled.pollCheckTimeouts cx).1
  have hin : (s.pollIncoming cx).2 = .ok () := pollIncoming_open hrecv cx
  have hempty : handled.outgoing.entries = [] := by
    refine AList.entries_eq_nil fun k => ?_
    rw [pollIncoming_lookup hfirewall]
    split_ifs with h
    · rfl
    · exact AList.lookup_eq_none.mpr fun hk => h (hacked k hk)
  obtain ⟨hcheck, hchecked⟩ := pollCheckTimeouts_empty cx hempty
  have hflush : checked.flushWaitingPackets cx.now = checked := flushLoop_empty _ hchecked
  have hends : checked.closedEnds = s.closedEnds := by
    have hincoming : Chain UdxStream.anyPacket cx.now s handled :=
      incomingLoop_chain _ _ s (Or.inl rfl) fun _ _ => trivial
    exact chain_value closedEnds (fun _ _ h => h.closedEnds_eq) (hincoming.trans (pollCheckTimeouts_chain handled cx))
  have htransmit : (checked.pollTransmit cx).2 = .ok () :=
    transmitLoop_ok _ _ _ _ _ ((congrArg Prod.snd hends).trans hsend)
  rw [pollDrive_eq hin hcheck (by rw [hflush]; exact htransmit), hflush]
  refine ⟨rfl, ?_, transmitLoop_sendQueue _ _ _ _ _ rfl htransmit⟩
  exact (pollTransmit_frame (fun s => s.outgoing.entries) (fun _ _ _ => rfl) checked cx).trans hchecked

/-! ### When the socket side is gone -/

/-- A poll that finds the channel closed terminates the stream again. -/
theorem pollDriver_orphaned {s : UdxStreamInner} {cx : Context} (hclosed : s.recvRx.closed = true)
    (hbudget : s.recvRx.queue.length < cx.budget) (hopen : s.closedAndDrained = false) :
    ∃ woken, s.pollDriver cx = ({ ({ s with driveWaker := none }.pollIncoming cx).1.terminate
      (UdxError.ofIo ⟨.brokenPipe, "Socket driver future was dropped"⟩) with
        ghost := { (({ s with driveWaker := none }.pollIncoming cx).1.terminate
          (UdxError.ofIo ⟨.brokenPipe, "Socket driver future was dropped"⟩)).ghost with woken := woken } },
      .pending) := by
  have hin : ({ s with driveWaker := none }.pollIncoming cx).2 =
      .error (.io ⟨.brokenPipe, "Socket driver future was dropped"⟩) := pollIncoming_orphaned hclosed hbudget
  have hdrive : { s with driveWaker := none }.pollDrive cx =
      (({ s with driveWaker := none }.pollIncoming cx).1,
        .error (.io ⟨.brokenPipe, "Socket driver future was dropped"⟩)) := by
    rw [pollDrive, show pollIncoming _ cx = (_, .error _) from Prod.ext rfl hin]
  rcases pollDriver_cases s cx hopen with ⟨flag, waker, woken, h, -⟩ | ⟨err, woken, h, hpoll⟩ | ⟨message, h, -⟩ <;>
    rw [hdrive] at h
  · cases h
  · cases h
    rw [hdrive] at hpoll
    exact ⟨woken, hpoll⟩
  · cases h

/-- A stream that is not closed and drained when its socket goes never is: each poll queues one more packet and
sends none. -/
theorem poll_orphaned (u : UdxStream) (cx : Context) (hclosed : u.inner.recvRx.closed = true)
    (hbudget : u.inner.recvRx.queue.length < cx.budget) (hopen : u.inner.closedAndDrained = false) :
    (u.poll cx).driver = u.driver ∧ (u.poll cx).inner.recvRx = { queue := [], closed := true } ∧
      (u.poll cx).inner.closedAndDrained = false ∧ (u.poll cx).inner.sendQueue.length =
        ({ u.inner with driveWaker := none }.pollIncoming cx).1.sendQueue.length + 1 := by
  obtain ⟨woken, hpoll⟩ := pollDriver_orphaned hclosed hbudget hopen
  have hrecv : ({ u.inner with driveWaker := none }.pollIncoming cx).1.recvRx =
      { u.inner.recvRx with queue := u.inner.recvRx.queue.drop cx.budget } := pollIncoming_recvRx _ cx
  unfold UdxStream.poll
  rw [hpoll]
  refine ⟨rfl, ?_, ?_, List.length_append⟩
  · refine hrecv.trans ?_
    change ({ queue := u.inner.recvRx.queue.drop cx.budget, closed := u.inner.recvRx.closed } : RecvChannel) = _
    rw [List.drop_of_length_le hbudget.le, hclosed]
  · rw [Bool.eq_false_iff, Ne, closedAndDrained_iff]
    exact fun h => List.append_ne_nil_of_right_ne_nil _ (List.cons_ne_nil _ _) h.2.1

/-- A poll of the driver by the runtime, which lets it take at least one packet. -/
def Polls : Event → Prop
  | .call (.poll _ _ budget _) => 0 < budget
  | _ => False

/-- Enough polls complete the driver, and the send queue is bounded however many there are. -/
def ShutsDown (u : UdxStream) : Prop :=
  (∃ n, ∀ polls : List Event, (∀ e ∈ polls, Polls e) → n ≤ polls.length → (u.run polls).driver = .completed) ∧
  ∃ bound, ∀ polls : List Event, (∀ e ∈ polls, Polls e) → (u.run polls).inner.sendQueue.length ≤ bound

theorem run_orphaned {u : UdxStream} (hrunning : u.driver = .running)
    (hrecv : u.inner.recvRx = { queue := [], closed := true }) (hopen : u.inner.closedAndDrained = false)
    (polls : List Event) (hpolls : ∀ e ∈ polls, Polls e) :
    (u.run polls).driver = .running ∧
      (u.run polls).inner.sendQueue.length = u.inner.sendQueue.length + polls.length := by
  induction polls generalizing u with
  | nil => exact ⟨hrunning, rfl⟩
  | cons e rest ih =>
      rw [List.forall_mem_cons] at hpolls
      match e, hpolls.1 with
      | .call (.poll waker timerLag budget maxGsoSegments), hbudget =>
          obtain ⟨hdriver, hrecv', hopen', hlen⟩ := poll_orphaned u
            ⟨waker, u.clock, timerLag, budget, maxGsoSegments⟩ (by rw [hrecv]) (by rw [hrecv]; exact hbudget) hopen
          have hcall : u.step (.call (.poll waker timerLag budget maxGsoSegments)) = u.poll _ :=
            UdxStream.call_poll hrunning
          rw [UdxStream.run, Runs.run, List.foldl_cons, hcall]
          obtain ⟨hrest, hqueue⟩ := ih (hdriver.trans hrunning) hrecv' hopen' hpolls.2
          refine ⟨hrest, hqueue.trans ?_⟩
          have hin : ({ u.inner with driveWaker := none }.pollIncoming
              ⟨waker, u.clock, timerLag, budget, maxGsoSegments⟩).1.sendQueue = u.inner.sendQueue := by
            rw [pollIncoming_nil (s := { u.inner with driveWaker := none }) (by rw [hrecv])]
          rw [hlen, hin, List.length_cons]
          omega

theorem run_stopped {u : UdxStream} (hstopped : u.driver ≠ .running) (polls : List Event)
    (hpolls : ∀ e ∈ polls, Polls e) : u.run polls = u := by
  induction polls with
  | nil => rfl
  | cons e rest ih =>
      rw [List.forall_mem_cons] at hpolls
      match e, hpolls.1 with
      | .call (.poll waker timerLag budget maxGsoSegments), _ =>
          have hcall : u.step (.call (.poll waker timerLag budget maxGsoSegments)) = u := if_neg hstopped
          rw [UdxStream.run, Runs.run, List.foldl_cons, hcall]
          exact ih hpolls.2

/-- The end of the driver queues at most one more packet. -/
theorem poll_drained {u : UdxStream} (cx : Context) (hdone : u.inner.closedAndDrained = true) :
    (u.poll cx).driver = .completed ∧ (u.poll cx).inner.sendQueue.length ≤ 1 := by
  have hqueue := ((closedAndDrained_iff _).mp hdone).2.1
  constructor
  · rw [UdxStream.poll_eq, pollDriver_complete _ _ hdone]
  · rw [UdxStream.poll, pollDriver_complete _ _ hdone]
    change (UdxStream.dropDriver { u with inner := complete { u.inner with driveWaker := none } }
      .completed).inner.sendQueue.length ≤ 1
    rw [UdxStream.dropDriver, UdxStream.release_frame sendQueue (fun _ _ _ => rfl)]
    unfold UdxStream.onDrop
    split
    · change (u.inner.sendQueue ++ [_]).length ≤ 1
      rw [hqueue]
      exact Nat.le_refl 1
    · change u.inner.sendQueue.length ≤ 1
      rw [hqueue]
      exact Nat.zero_le 1

/-- The poll that finds the stream closed and drained is the last one. -/
theorem run_drained {u : UdxStream} (hrunning : u.driver = .running) (hdone : u.inner.closedAndDrained = true)
    (polls : List Event) (hpolls : ∀ e ∈ polls, Polls e) :
    (u.run polls).inner.sendQueue.length ≤ 1 ∧ (1 ≤ polls.length → (u.run polls).driver = .completed) := by
  cases polls with
  | nil =>
      refine ⟨?_, fun h => absurd h (by decide)⟩
      change u.inner.sendQueue.length ≤ 1
      rw [((closedAndDrained_iff _).mp hdone).2.1]
      exact Nat.zero_le 1
  | cons e rest =>
      rw [List.forall_mem_cons] at hpolls
      match e, hpolls.1 with
      | .call (.poll waker timerLag budget maxGsoSegments), _ =>
          have hcall : u.step (.call (.poll waker timerLag budget maxGsoSegments)) = u.poll _ :=
            UdxStream.call_poll hrunning
          obtain ⟨hdriver, hqueue⟩ := poll_drained ⟨waker, u.clock, timerLag, budget, maxGsoSegments⟩ hdone
          have hstopped : (u.poll ⟨waker, u.clock, timerLag, budget, maxGsoSegments⟩).driver ≠ .running := by
            rw [hdriver]
            decide
          rw [UdxStream.run, Runs.run, List.foldl_cons, hcall]
          rw [show List.foldl UdxStream.step _ rest = _ from run_stopped hstopped rest hpolls.2]
          exact ⟨hqueue, fun _ => hdriver⟩

theorem not_shutsDown {u : UdxStream} (hrunning : u.driver = .running)
    (hrecv : u.inner.recvRx = { queue := [], closed := true }) (hopen : u.inner.closedAndDrained = false) :
    ¬ShutsDown u := by
  rintro ⟨⟨n, hn⟩, -⟩
  have hpolls : ∀ e ∈ List.replicate n (Event.call (.poll 0 0 1 1)), Polls e := by
    intro e he
    rw [List.eq_of_mem_replicate he]
    exact Nat.one_pos
  have hrun := run_orphaned hrunning hrecv hopen _ hpolls
  rw [hn _ hpolls List.length_replicate.ge] at hrun
  cases hrun.1

/-- **Shutdown without a socket.** A driver whose channel is closed and empty, with nothing outstanding, comes to its
end exactly if the stream was terminated and had sent everything before. -/
theorem shutsDown_iff {u : UdxStream} (hrunning : u.driver = .running) (hempty : u.inner.outgoing.entries = [])
    (hrecv : u.inner.recvRx = { queue := [], closed := true }) :
    ShutsDown u ↔ u.inner.error.isSome = true ∧ u.inner.sendQueue = [] := by
  have hdone : u.inner.closedAndDrained = true ↔ u.inner.error.isSome = true ∧ u.inner.sendQueue = [] := by
    rw [closedAndDrained_iff, and_iff_left hempty]
  rw [← hdone]
  constructor
  · intro hshuts
    by_contra hopen
    exact not_shutsDown hrunning hrecv (Bool.eq_false_iff.mpr hopen) hshuts
  · intro hdone
    exact ⟨⟨1, fun polls hpolls => (run_drained hrunning hdone polls hpolls).2⟩,
      1, fun polls hpolls => (run_drained hrunning hdone polls hpolls).1⟩

/-- A stream that was closed and has sent its END before its socket goes. -/
theorem shutsDown_closed :
    ShutsDown ((UdxStream.connect 0 ⟨.v4 0, 2⟩ 2 1).run
      [.call .close, .call (.poll 0 0 10 1), .call (.socketGone true true)]) :=
  (shutsDown_iff rfl rfl rfl).mpr ⟨rfl, rfl⟩

/-- A fresh stream whose socket goes polls forever and queues a packet each time. -/
theorem orphaned_never_shutsDown :
    let u := (UdxStream.connect 0 ⟨.v4 0, 2⟩ 2 1).run [.call (.socketGone true true)]
    u.driver = .running ∧ u.inner.outgoing.entries = [] ∧ u.inner.recvRx = { queue := [], closed := true } ∧
    ¬ShutsDown u := by
  intro u
  exact ⟨rfl, rfl, rfl, not_shutsDown rfl rfl rfl⟩

/-! ### When the peer is silent -/

/-- An elementary change that handles no packet acknowledges nothing. -/
theorem Micro.outgoing_mem {now : Nat} {s t : UdxStreamInner} (h : Micro (fun _ => False) now s t) {k : UInt32}
    (hk : k ∈ s.outgoing) : k ∈ t.outgoing := by
  cases h with
  | ackNext packet hok hlt => exact hok.elim
  | sack packet i hok htype => exact hok.elim
  | finish packet hok htype => exact hok.elim
  | data packet hok htype => exact hok.elim
  | grow packet hok => exact hok.elim
  | park i packet hlookup hwaiting hmax hdue => exact (AList.mem_insert _).mpr (Or.inr hk)
  | requeue i packet hlookup hwaiting hroom => exact (AList.mem_insert _).mpr (Or.inr hk)
  | mark i packet sent hlookup => exact (AList.mem_insert _).mpr (Or.inr hk)
  | _ => exact hk

/-- Whatever a poll does, it keeps what its packets do not acknowledge. -/
theorem pollDrive_outgoing {s : UdxStreamInner} (hfirewall : s.onFirewall = none) (cx : Context) {k : UInt32}
    (hk : k ∈ s.outgoing) (hnot : ¬Acknowledged s cx.budget k) : k ∈ (s.pollDrive cx).1.outgoing := by
  have hchain : ∀ {s t : UdxStreamInner}, Chain (fun _ => False) cx.now s t → k ∈ s.outgoing → k ∈ t.outgoing :=
    fun h => chain_invariant (fun s => k ∈ s.outgoing) (fun _ _ h => h.outgoing_mem) h
  refine pollDrive_stages (fun s => k ∈ s.outgoing) s cx ?_ (fun s => hchain (pollCheckTimeouts_chain s cx))
    (fun s => hchain (flushLoop_chain _ s)) fun s => hchain (pollTransmit_chain s cx)
  rw [← AList.lookup_isSome, pollIncoming_lookup hfirewall, if_neg hnot]
  exact AList.lookup_isSome.mpr hk

/-- What happens while no packet arrives: time passes, and the driver is polled, with the timer firing when it is
due and every packet that is left in the channel, at most `n`, taken. -/
def Silent (n : Nat) : Event → Prop
  | .call (.tick _) => True
  | .call (.poll _ timerLag budget _) => timerLag = 0 ∧ n < budget
  | _ => False

/-- Finitely many polls bring the stream to its end without any further packet. -/
def Ends (u : UdxStream) : Prop :=
  ∃ events : List Event, (∀ e ∈ events, Silent u.inner.recvRx.queue.length e) ∧
    (u.run events).driver = .running ∧ (u.run events).inner.closedAndDrained = true

/-- Packet `k` is outstanding, and none of the at most `n` packets in the channel acknowledges it. -/
structure Unanswered (n : Nat) (k : UInt32) (s : UdxStreamInner) : Prop where
  firewall : s.onFirewall = none
  outgoing : k ∈ s.outgoing
  length : s.recvRx.queue.length ≤ n
  silent : ∀ budget, n < budget → ¬Acknowledged s budget k

theorem unanswered_of_empty {n : Nat} {k : UInt32} {s : UdxStreamInner} (hfirewall : s.onFirewall = none)
    (hk : k ∈ s.outgoing) (hempty : s.recvRx.queue = []) : Unanswered n k s where
  firewall := hfirewall
  outgoing := hk
  length := by
    rw [hempty]
    exact Nat.zero_le n
  silent := by
    rintro budget - (⟨packet, hpacket, -⟩ | ⟨-, hlt⟩)
    · rw [hempty, List.take_nil] at hpacket
      exact List.not_mem_nil hpacket
    · rw [appliedAck, hempty, List.take_nil] at hlt
      exact UInt32.not_lt_zero ((ite_self (0 : UInt32)) ▸ hlt)

theorem pollDrive_unanswered {n : Nat} {k : UInt32} {s : UdxStreamInner} {cx : Context} (hbudget : n < cx.budget)
    (hs : Unanswered n k s) : Unanswered n k (s.pollDrive cx).1 := by
  have hrecv : (s.pollDrive cx).1.recvRx.queue = [] := by
    rw [pollDrive_recvRx]
    exact List.drop_of_length_le (hs.length.trans hbudget.le)
  refine unanswered_of_empty ?_ (pollDrive_outgoing hs.firewall cx hs.outgoing (hs.silent _ hbudget)) hrecv
  have hchain : Chain UdxStream.anyPacket cx.now s (s.pollDrive cx).1 := pollDrive_chain s cx fun _ _ => trivial
  exact (chain_value onFirewall (fun _ _ h => (Move.micro h).onFirewall_eq) hchain).trans hs.firewall

theorem Unanswered.open {n : Nat} {k : UInt32} {s : UdxStreamInner} (hs : Unanswered n k s) :
    s.closedAndDrained = false := by
  rw [Bool.eq_false_iff, Ne, closedAndDrained_iff]
  intro h
  exact AList.notMem_of_isEmpty (List.isEmpty_iff.mpr h.2.2) k hs.outgoing

theorem step_unanswered {n : Nat} {k : UInt32} {u : UdxStream} {e : Event} (he : Silent n e)
    (hu : Unanswered n k u.inner) : Unanswered n k (u.step e).inner := by
  match e, he with
  | .call (.tick elapsed), _ => exact hu
  | .call (.poll waker timerLag budget maxGsoSegments), ⟨_, hbudget⟩ =>
      change Unanswered n k (u.call _).inner
      rw [UdxStream.call]
      split
      · exact UdxStream.poll_invariant (Unanswered n k) (fun _ _ h => ⟨h.1, h.2, h.3, h.4⟩)
          (fun _ _ _ h => ⟨h.1, h.2, h.3, h.4⟩) (fun _ _ _ h => ⟨h.1, h.2, h.3, h.4⟩) hu.open
          (pollDrive_unanswered hbudget ⟨hu.1, hu.2, hu.3, hu.4⟩)
      · exact hu

/-- A stream whose channel is closed, with at most `n` packets left in it, and that is not done. -/
structure Orphaned (n : Nat) (s : UdxStreamInner) : Prop where
  closed : s.recvRx.closed = true
  length : s.recvRx.queue.length ≤ n
  unfinished : s.closedAndDrained = false

theorem step_orphaned {n : Nat} {u : UdxStream} {e : Event} (he : Silent n e) (hu : Orphaned n u.inner) :
    Orphaned n (u.step e).inner := by
  match e, he with
  | .call (.tick elapsed), _ => exact hu
  | .call (.poll waker timerLag budget maxGsoSegments), ⟨_, hbudget⟩ =>
      change Orphaned n (u.call _).inner
      rw [UdxStream.call]
      split
      · obtain ⟨-, hrecv, hopen, -⟩ := poll_orphaned u ⟨waker, u.clock, timerLag, budget, maxGsoSegments⟩
          hu.closed (lt_of_le_of_lt hu.length hbudget) hu.unfinished
        exact ⟨by rw [hrecv], by rw [hrecv]; exact Nat.zero_le n, hopen⟩
      · exact hu

theorem not_ends_of_orphaned {u : UdxStream} (hclosed : u.inner.recvRx.closed = true)
    (hopen : u.inner.closedAndDrained = false) : ¬Ends u := by
  rintro ⟨events, hsilent, -, hdone⟩
  have hrun : Orphaned u.inner.recvRx.queue.length (u.run events).inner :=
    List.foldlRecOn (motive := fun v : UdxStream => Orphaned u.inner.recvRx.queue.length v.inner) events
      UdxStream.step ⟨hclosed, Nat.le_refl _, hopen⟩ fun v hv e he => step_orphaned (hsilent e he) hv
  rw [hrun.unfinished] at hdone
  cases hdone

theorem not_ends_of_unanswered {u : UdxStream} {k : UInt32} (hu : Unanswered u.inner.recvRx.queue.length k u.inner) :
    ¬Ends u := by
  rintro ⟨events, hsilent, -, hdone⟩
  have hrun : Unanswered u.inner.recvRx.queue.length k (u.run events).inner :=
    List.foldlRecOn (motive := fun v : UdxStream => Unanswered u.inner.recvRx.queue.length k v.inner) events
      UdxStream.step hu fun v hv e he => step_unanswered (hsilent e he) hv
  rw [hrun.open] at hdone
  cases hdone

theorem pollDriver_drains {u : UdxStream} {cx : Context} (hrunning : u.driver = .running)
    (hfirewall : u.inner.onFirewall = none) (herror : u.inner.error.isSome = true)
    (hopen : u.inner.closedAndDrained = false) (hrecv : u.inner.recvRx.closed = false)
    (hsend : u.inner.sendTx.closed = false)
    (hacked : ∀ k ∈ u.inner.outgoing, Acknowledged u.inner cx.budget k) :
    (u.poll cx).driver = .running ∧ (u.poll cx).inner.closedAndDrained = true := by
  obtain ⟨hok, hempty, hqueue⟩ :=
    pollDrive_drains (s := { u.inner with driveWaker := none }) hfirewall hrecv hsend hacked
  rcases pollDriver_cases u.inner cx hopen with ⟨flag, waker, woken, h, hpoll⟩ | ⟨err, woken, h, -⟩ | ⟨message, h, -⟩
  · rw [UdxStream.poll, hpoll]
    refine ⟨hrunning, (closedAndDrained_iff _).mpr ⟨?_, hqueue, hempty⟩⟩
    have hchain : Chain UdxStream.anyPacket cx.now { u.inner with driveWaker := none } _ :=
      pollDrive_chain _ cx fun _ _ => trivial
    exact chain_invariant (fun s => s.error.isSome = true) (fun _ _ h => (Move.micro h).error_isSome) hchain herror
  · rw [hok] at h
    cases h
  · rw [hok] at h
    cases h

theorem ends_of_acknowledged {u : UdxStream} (hrunning : u.driver = .running)
    (hfirewall : u.inner.onFirewall = none) (herror : u.inner.error.isSome = true)
    (hrecv : u.inner.recvRx.closed = false) (hsend : u.inner.sendTx.closed = false)
    (hacked : ∀ k ∈ u.inner.outgoing, Acknowledged u.inner (u.inner.recvRx.queue.length + 1) k) : Ends u := by
  cases hdone : u.inner.closedAndDrained with
  | true => exact ⟨[], fun _ h => absurd h List.not_mem_nil, hrunning, hdone⟩
  | false =>
      refine ⟨[.call (.poll 0 0 (u.inner.recvRx.queue.length + 1) 1)], ?_, ?_⟩
      · intro e he
        rw [List.mem_singleton.mp he]
        exact ⟨rfl, Nat.lt_succ_self _⟩
      · have hcall : u.run [.call (.poll 0 0 (u.inner.recvRx.queue.length + 1) 1)] = u.poll _ :=
          UdxStream.call_poll hrunning
        rw [hcall]
        exact pollDriver_drains hrunning hfirewall herror hdone hrecv hsend hacked

/-- **The end of a stream that has timed out.** Without a further packet it comes to its end exactly if it is there
already, or if the packets left in its channel acknowledge all that is outstanding. The two ends of the socket are
dropped together, the one for outgoing events never before the one for incoming packets. -/
theorem timedOut_ends_iff {u : UdxStream} (hu : u.Reachable) (hrunning : u.driver = .running)
    (htimedOut : .timedOut ∈ u.inner.ghost.reasons)
    (hsocket : u.inner.sendTx.closed = true → u.inner.recvRx.closed = true) :
    Ends u ↔ u.inner.closedAndDrained = true ∨ u.inner.recvRx.closed = false ∧
      ∀ k ∈ u.inner.outgoing, Acknowledged u.inner (u.inner.recvRx.queue.length + 1) k := by
  have hfirewall := hu.onFirewall
  have hlast : ErrorLast u.inner := errorLast_invariant.of_reachable hu
  have herror : u.inner.error.isSome = true := (error_isSome_iff hlast).mpr (List.ne_nil_of_mem htimedOut)
  constructor
  · intro hends
    cases hopen : u.inner.closedAndDrained with
    | true => exact Or.inl rfl
    | false =>
        refine Or.inr ⟨?_, fun k hk => ?_⟩
        · by_contra hclosed
          exact not_ends_of_orphaned (Bool.eq_true_of_not_eq_false hclosed) hopen hends
        · by_contra hnot
          refine not_ends_of_unanswered ⟨hfirewall, hk, Nat.le_refl _, fun budget hbudget hacked => hnot ?_⟩ hends
          exact (acknowledged_all hbudget).mp hacked
  · rintro (hdone | ⟨hrecv, hacked⟩)
    · exact ⟨[], fun _ h => absurd h List.not_mem_nil, hrunning, hdone⟩
    · have hsend : u.inner.sendTx.closed = false := by
        rw [Bool.eq_false_iff]
        intro h
        rw [hsocket h] at hrecv
        cases hrecv
      exact ends_of_acknowledged hrunning hfirewall herror hrecv hsend hacked

/-- The packet that was given up is acknowledged after all, and the stream ends. -/
theorem timedOut_ends_acked :
    Ends (((UdxStream.connect 0 ⟨.v4 0, 2⟩ 2 1).run (expiriesRun 7)).step
      (.recv ⟨0, 0, 1, 0xffffffff, 0, 1⟩ [] ⟨.v4 0, 2⟩)) := by
  have hkeys : ((UdxStream.connect 0 ⟨.v4 0, 2⟩ 2 1).run (expiriesRun 7)).inner.outgoing.keys = [0] := by decide
  refine (timedOut_ends_iff ⟨0, ⟨.v4 0, 2⟩, 2, 1,
    expiriesRun 7 ++ [.recv ⟨0, 0, 1, 0xffffffff, 0, 1⟩ [] ⟨.v4 0, 2⟩], List.foldl_append⟩ (by decide) (by decide)
    (by decide)).mpr (Or.inr ⟨by decide, fun k hk => ?_⟩)
  have hzero : k ∈ [0] := hkeys ▸ AList.mem_keys.mp hk
  rw [List.mem_singleton.mp hzero]
  decide

/-- After the timeout the packet that was given up is still outstanding, and without its acknowledgement the stream
never ends. -/
theorem expiriesRun_never_ends :
    let u := (UdxStream.connect 0 ⟨.v4 0, 2⟩ 2 1).run (expiriesRun 7)
    u.driver = .running ∧ .timedOut ∈ u.inner.ghost.reasons ∧ ¬Ends u := by
  intro u
  refine ⟨by decide, by decide, ?_⟩
  exact not_ends_of_unanswered (k := 0) (unanswered_of_empty (by decide) (by decide) (by decide))

end AsyncUdx
