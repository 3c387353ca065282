import AsyncUdx.Retransmission

/-! What a sleeping driver has left to do. A driver goes to sleep when a poll has not asked for another one, and it is
woken by a packet, by its timer and by the calls that give it work. If a call could give it work without waking it,
the work would lie there until something else happens; so a driver may sleep only as long as a poll would find
nothing. -/

namespace AsyncUdx

open Relation UdxStreamInner

variable {now : Nat}

/-! ### Packets that wait for room -/

/-- The length of a packet that waits under a key. -/
def UdxStreamInner.waitingLen (s : UdxStreamInner) (i : UInt32) : Option Nat :=
  (s.outgoing.lookup i).bind fun packet => if packet.waiting then some packet.len else none

/-- The first packet that waits does not fit the window. -/
def HeldBack (s : UdxStreamInner) (keys : List UInt32) : Prop :=
  ∀ len ∈ keys.findSome? s.waitingLen, s.cwnd < s.inflight + len

theorem heldBack_skip {s : UdxStreamInner} {i : UInt32} (hnone : s.waitingLen i = none) (rest : List UInt32) :
    HeldBack s (i :: rest) ↔ HeldBack s rest := by
  rw [HeldBack, List.findSome?_cons, hnone]
  rfl

theorem heldBack_first {s : UdxStreamInner} {i : UInt32} {len : Nat} (hsome : s.waitingLen i = some len)
    (rest : List UInt32) : HeldBack s (i :: rest) ↔ s.cwnd < s.inflight + len := by
  rw [HeldBack, List.findSome?_cons, hsome]
  exact ⟨fun h => h len rfl, fun h other hother => Option.some.inj hother ▸ h⟩

theorem waitingLen_of_lookup {s : UdxStreamInner} {i : UInt32} {packet : Packet}
    (hlookup : s.outgoing.lookup i = some packet) :
    s.waitingLen i = if packet.waiting then some packet.len else none := by
  rw [waitingLen, hlookup, Option.bind_some]

/-- A packet that is stamped or queued has its length, and whether it waits is what decides. -/
theorem waitingLen_insert {s t : UdxStreamInner} {i : UInt32} {packet : Packet}
    (ht : t.outgoing = s.outgoing.insert i packet) (k : UInt32) :
    t.waitingLen k = if k = i then if packet.waiting then some packet.len else none else s.waitingLen k := by
  rw [waitingLen, waitingLen, ht]
  split_ifs with heq hwaiting
  · rw [heq, AList.lookup_insert, Option.bind_some, if_pos hwaiting]
  · rw [heq, AList.lookup_insert, Option.bind_some, if_neg hwaiting]
  · rw [AList.lookup_insert_ne heq]

/-- Queueing packets makes none wait. -/
theorem flushLoop_waitingLen (keys : List UInt32) {s : UdxStreamInner} {k : UInt32} (hnone : s.waitingLen k = none) :
    (flushLoop now keys s).waitingLen k = none := by
  induction keys generalizing s with
  | nil => exact hnone
  | cons i rest ih =>
      rw [flushLoop]
      split
      · exact ih hnone
      · split_ifs
        · exact ih hnone
        · exact hnone
        · apply ih
          rw [waitingLen_insert rfl, hnone]
          exact ite_self _

/-- What is left waiting is held back. -/
theorem flushLoop_heldBack (keys : List UInt32) (s : UdxStreamInner) : HeldBack (flushLoop now keys s) keys := by
  induction keys generalizing s with
  | nil => exact fun _ h => by cases h
  | cons i rest ih =>
      have hskip (t : UdxStreamInner) (hnone : t.waitingLen i = none) :
          HeldBack (flushLoop now rest t) (i :: rest) :=
        (heldBack_skip (flushLoop_waitingLen rest hnone) rest).mpr (ih t)
      rw [flushLoop]
      split
      · rename_i hlookup
        apply hskip
        rw [waitingLen, hlookup, Option.bind_none]
      · rename_i packet hlookup
        have hlen := waitingLen_of_lookup hlookup
        split_ifs with hidle hfull
        · rw [Bool.not_eq_true'] at hidle
          apply hskip
          rw [hlen, hidle]
          rfl
        · rw [Bool.not_eq_true', Bool.not_eq_false] at hidle
          rw [hidle] at hlen
          exact (heldBack_first hlen rest).mpr hfull
        · apply hskip
          rw [waitingLen_insert rfl, if_pos rfl]
          rfl

/-- Nothing is queued while the first packet is held back. -/
theorem flushLoop_of_heldBack (keys : List UInt32) {s : UdxStreamInner} (h : HeldBack s keys) :
    flushLoop now keys s = s := by
  induction keys with
  | nil => rfl
  | cons i rest ih =>
      rw [flushLoop]
      split
      · rename_i hlookup
        apply ih
        refine (heldBack_skip ?_ rest).mp h
        rw [waitingLen, hlookup, Option.bind_none]
      · rename_i packet hlookup
        have hlen := waitingLen_of_lookup hlookup
        split_ifs with hidle hfull
        · rw [Bool.not_eq_true'] at hidle
          apply ih
          refine (heldBack_skip ?_ rest).mp h
          rw [hlen, hidle]
          rfl
        · rfl
        · rw [Bool.not_eq_true', Bool.not_eq_false] at hidle
          rw [hidle] at hlen
          exact absurd ((heldBack_first hlen rest).mp h) hfull

/-! ### A poll that finds nothing -/

/-- Nothing has arrived, nothing is to be handed to the socket, and what waits is held back. -/
structure Handled (s : UdxStreamInner) : Prop where
  received : s.recvRx.queue = []
  handed : s.sendQueue = []
  heldBack : HeldBack s (Counter.range s.remoteAcked s.seq)

/-- A stream on which a poll of the driver finds nothing to do: the socket is there, too, and if the timer has fired
nothing is outstanding. -/
structure Quiet (u : UdxStream) : Prop where
  handled : Handled u.inner
  attached : u.inner.recvRx.closed = false
  early : u.inner.rtoTimeout ≤ u.clock → u.inner.remoteAcked = u.inner.seq

theorem Quiet.poll {u : UdxStream} {cx : Context} (h : Quiet u) (hopen : u.inner.closedAndDrained = false)
    (hnow : cx.now = u.clock) :
    u.poll cx = { u with inner := { u.inner with driveWaker := some cx.waker } } := by
  let idle : UdxStreamInner := { u.inner with driveWaker := none }
  have hin : idle.pollIncoming cx = (idle, .ok ()) :=
    Prod.ext (pollIncoming_nil (s := idle) h.handled.received cx) (pollIncoming_open (s := idle) h.attached cx)
  have hcheck : idle.pollCheckTimeouts cx = (idle, .ok ()) := by
    unfold pollCheckTimeouts
    split_ifs with hearly hacked
    · rfl
    · rfl
    · refine absurd (h.early ?_) hacked
      change ¬cx.now < u.inner.rtoTimeout + cx.timerLag at hearly
      omega
  have hflush : idle.flushWaitingPackets cx.now = idle := flushLoop_of_heldBack _ h.handled.heldBack
  have htransmit : idle.pollTransmit cx = (idle, .ok ()) := by
    unfold pollTransmit
    rw [show idle.sendQueue = [] from h.handled.handed]
    rfl
  have hdrive : idle.pollDrive cx = (idle, .ok false) := by
    unfold pollDrive
    rw [hin]
    dsimp only
    rw [hcheck]
    dsimp only
    rw [hflush, htransmit]
  rw [poll_ok hopen (congrArg Prod.snd hdrive), show _ = _ from hdrive]

/-- A poll that goes to sleep has done everything there was. -/
theorem poll_quiet {u : UdxStream} {cx : Context} (harmed : TimerArmed u.inner.timerSide)
    (hopen : u.inner.closedAndDrained = false) (hnow : cx.now = u.clock) (hlag : cx.timerLag = 0)
    (hbudget : u.inner.recvRx.queue.length < cx.budget)
    (hok : ({ u.inner with driveWaker := none }.pollDrive cx).2 = .ok false) : Quiet (u.poll cx) := by
  let idle : UdxStreamInner := { u.inner with driveWaker := none }
  obtain ⟨hin, -, htransmit, hdrive, -⟩ := pollDrive_ok hok
  let checked := ((idle.pollIncoming cx).1.pollCheckTimeouts cx).1
  let flushed := checked.flushWaitingPackets cx.now
  obtain ⟨rest, sets, hspec, -⟩ := transmitLoop_spec (min cx.maxGsoSegments maxSegments) flushed.sendQueue 0 [] flushed
  have hrest : rest = [] := by
    have h := transmitLoop_sendQueue _ _ _ _ _ rfl htransmit
    rwa [hspec] at h
  have hresult : (idle.pollDrive cx).1 = { flushed with
      sendQueue := [], sendTx := { flushed.sendTx with events := flushed.sendTx.events ++ sets.map .transmit } } := by
    rw [hdrive, ← hrest]
    exact hspec
  have hrecv : flushed.recvRx = { u.inner.recvRx with queue := u.inner.recvRx.queue.drop cx.budget } := by
    refine (flushLoop_frame recvRx (fun _ _ _ _ => rfl) _ _).trans ?_
    exact (pollCheckTimeouts_frame recvRx (fun _ _ => rfl) (fun _ _ _ _ => rfl) _ cx).trans
      (pollIncoming_recvRx idle cx)
  have hrange : Counter.range flushed.remoteAcked flushed.seq = Counter.range checked.remoteAcked checked.seq :=
    flushLoop_frame (fun s => Counter.range s.remoteAcked s.seq) (fun _ _ _ _ => rfl) _ _
  have hacked : (u.poll cx).inner.remoteAcked = Counter.larger u.inner.remoteAcked (appliedAck u.inner cx.budget) :=
    poll_remoteAcked hopen
  rw [poll_ok hopen hok] at hacked
  have hchain : Chain UdxStream.anyPacket cx.now idle (idle.pollDrive cx).1 :=
    pollDrive_chain idle cx fun _ _ => trivial
  have hseq : (idle.pollDrive cx).1.seq = idle.seq := chain_value seq (fun _ _ h => h.seq_eq) hchain
  have hfired := pollDrive_fired_iff hok hlag harmed
  rw [poll_ok hopen hok]
  refine ⟨⟨?_, ?_, ?_⟩, ?_, fun hdue => ?_⟩
  · change (idle.pollDrive cx).1.recvRx.queue = []
    rw [hresult]
    change flushed.recvRx.queue = []
    rw [hrecv]
    exact List.drop_eq_nil_of_le (Nat.le_of_lt hbudget)
  · change (idle.pollDrive cx).1.sendQueue = []
    rw [hresult]
  · change HeldBack (idle.pollDrive cx).1 (Counter.range (idle.pollDrive cx).1.remoteAcked (idle.pollDrive cx).1.seq)
    rw [hresult]
    change HeldBack flushed (Counter.range flushed.remoteAcked flushed.seq)
    rw [hrange]
    exact flushLoop_heldBack _ checked
  · change (idle.pollDrive cx).1.recvRx.closed = false
    rw [hresult]
    change flushed.recvRx.closed = false
    rw [hrecv, Bool.eq_false_iff]
    intro hclosed
    rw [pollIncoming_orphaned (s := idle) hclosed hbudget] at hin
    cases hin
  · change (idle.pollDrive cx).1.remoteAcked = (idle.pollDrive cx).1.seq
    obtain ⟨-, hsame, happlied⟩ := hfired.mp (hnow ▸ hdue)
    exact (hacked.trans (Counter.larger_of_le happlied)).trans (hsame.trans hseq.symm)

namespace DriverTask

/-- A call of a user or of the socket takes the waker of the driver, or gives it nothing to do. -/
theorem call_handled (u : UdxStream) (c : Call) (hidle : ¬u.drives c) (hu : Handled u.inner) :
    (u.call c).inner.driveWaker = none ∨ Handled (u.call c).inner ∧
      (u.inner.remoteAcked = u.inner.seq → (u.call c).inner.remoteAcked = (u.call c).inner.seq) := by
  have hinv : CallInvariant u.clock fun s => s.driveWaker = none ∨ Handled s ∧
      (u.inner.remoteAcked = u.inner.seq → s.remoteAcked = s.seq) := {
    push := fun _ _ _ _ _ _ _ => Or.inl rfl
    blocked := fun _ _ _ _ _ _ hs => hs.imp id fun h => ⟨⟨h.1.received, h.1.handed, h.1.heldBack⟩, h.2⟩
    readPart := fun _ _ _ hs => hs.imp id fun h => ⟨⟨h.1.received, h.1.handed, h.1.heldBack⟩, h.2⟩
    readWhole := fun _ _ hs => hs.imp id fun h => ⟨⟨h.1.received, h.1.handed, h.1.heldBack⟩, h.2⟩
    readWaker := fun _ _ hs => hs.imp id fun h => ⟨⟨h.1.received, h.1.handed, h.1.heldBack⟩, h.2⟩
    terminate := fun _ _ _ => Or.inl rfl
    slot := fun _ _ _ hs => hs.imp id fun h => ⟨⟨h.1.received, h.1.handed, h.1.heldBack⟩, h.2⟩
    complete := fun _ _ => Or.inl rfl
    gone := fun _ _ _ hs => hs.imp id fun h => ⟨⟨h.1.received, h.1.handed, h.1.heldBack⟩, h.2⟩
    mark := by
      intro s i packet sent hlookup hs
      refine hs.imp id fun h => ⟨⟨h.1.received, h.1.handed, ?_⟩, h.2⟩
      let marked : UdxStreamInner :=
        { s with outgoing := s.outgoing.insert i { packet with timeSent := some sent } }
      have hsame : marked.waitingLen = s.waitingLen := by
        funext k
        rw [waitingLen_insert (s := s) rfl]
        split_ifs with heq hwaiting
        · rw [heq, waitingLen_of_lookup hlookup, if_pos hwaiting]
          rfl
        · rw [heq, waitingLen_of_lookup hlookup, if_neg hwaiting]
        · rfl
      change HeldBack marked (Counter.range s.remoteAcked s.seq)
      rw [HeldBack, hsame]
      exact h.1.heldBack }
  exact u.call_invariant c hinv hidle (Or.inr ⟨hu, id⟩)

theorem timely_plain {u : UdxStream} {c : Call}
    (hpoll : ∀ waker timerLag budget maxGsoSegments, c ≠ .poll waker timerLag budget maxGsoSegments)
    (hgone : ∀ recvClosed sendClosed, c ≠ .socketGone recvClosed sendClosed) : timely u (.call c) = .call c := by
  cases c with
  | poll waker timerLag budget maxGsoSegments => exact absurd rfl (hpoll _ _ _ _)
  | socketGone recvClosed sendClosed => exact absurd rfl (hgone _ _)
  | _ => rfl

/-- A task that goes to sleep has nothing to do, and one that sleeps is woken when there is something. -/
theorem step_quiet {d : DriverTask} (hd : d.Sound) (hquiet : d.Parked → Quiet d.stream) (e : Event)
    (hparked : (d.step e).Parked) : Quiet (d.step e).stream := by
  by_cases hdrives : d.Drives e
  · cases e with
    | recv header buf source => exact hdrives.elim
    | call c =>
        cases c with
        | poll waker timerLag budget maxGsoSegments =>
            obtain ⟨hrunning, hopen⟩ := hdrives
            obtain ⟨hok, hbudget⟩ := wakes_poll (v := d.stream) hrunning hparked.2
            rw [if_neg (Nat.not_le.mpr hbudget)] at hok
            have hstep : (d.step (.call (.poll waker timerLag budget maxGsoSegments))).stream =
                d.stream.poll ⟨waker, d.stream.clock, 0, budget, maxGsoSegments⟩ := by
              rw [step, timely, if_neg (Nat.not_le.mpr hbudget)]
              exact UdxStream.call_poll hrunning
            rw [hstep]
            exact poll_quiet (timerArmed_invariant.of_reachable hd.reachable) hopen rfl rfl hbudget hok
        | _ => exact hdrives.elim
  · have hsleeps := step_parked hd hdrives hparked
    have hbefore := hquiet hsleeps.parked
    have hkept (c : Call) (hidle : ¬d.stream.drives c) (hstep : (d.step e).stream = d.stream.call c)
        (hclosed : (d.stream.call c).inner.recvRx.closed = d.stream.inner.recvRx.closed) :
        Quiet (d.step e).stream := by
      rw [hstep] at hsleeps ⊢
      rcases call_handled d.stream c hidle hbefore.handled with hnone | ⟨hhandled, hacked⟩
      · have hwaker := hsleeps.waker
        rw [hnone] at hwaker
        cases hwaker
      · exact ⟨hhandled, hclosed.trans hbefore.attached, fun hdue => hacked (hbefore.early (hsleeps.fired hdue))⟩
    have hends (c : Call) (hc : ∀ recvClosed sendClosed, c ≠ .socketGone recvClosed sendClosed) :
        (d.stream.call c).inner.recvRx.closed = d.stream.inner.recvRx.closed :=
      (Prod.ext_iff.mp (d.stream.call_closedEnds c hc)).1
    cases e with
    | recv header buf source => cases hparked.2
    | call c =>
        have hidle : ¬d.stream.drives c := hdrives
        have hplain (hpoll : ∀ waker timerLag budget maxGsoSegments, c ≠ .poll waker timerLag budget maxGsoSegments)
            (hgone : ∀ recvClosed sendClosed, c ≠ .socketGone recvClosed sendClosed) :
            Quiet (d.step (.call c)).stream :=
          hkept c hidle (congrArg d.stream.step (timely_plain hpoll hgone)) (hends c hgone)
        cases c with
        | socketGone recvClosed sendClosed =>
            refine hkept (.socketGone (recvClosed || sendClosed) sendClosed) id rfl ?_
            have hasleep := (Bool.or_eq_false_iff.mp hparked.2).2
            rw [hbefore.attached, Bool.not_false, Bool.and_true] at hasleep
            exact hasleep.trans hbefore.attached.symm
        | poll waker timerLag budget maxGsoSegments =>
            exact hkept (.poll waker _ budget maxGsoSegments) (by exact hidle) rfl (hends _ fun _ _ => Call.noConfusion)
        | _ => exact hplain (fun _ _ _ _ => Call.noConfusion) fun _ _ => Call.noConfusion

/-- **A sleeping driver has nothing to do.** In every run of a stream and its driver, whatever the calls, the packets
and the polls: while the driver sleeps, and its stream is not closed and drained, a poll would leave everything as it
is and only note the waker again. -/
theorem parked_poll_idle (start : Nat) (dest : SocketAddr) (remoteId localId : UInt32) (events : List Event) :
    let d := Runs.run step (connect start dest remoteId localId) events
    d.Parked → d.stream.inner.closedAndDrained = false → ∀ cx : Context, cx.now = d.stream.clock →
      d.stream.poll cx = { d.stream with inner := { d.stream.inner with driveWaker := some cx.waker } } := by
  intro d hparked hopen cx hnow
  let Inv (d : DriverTask) : Prop := d.Sound ∧ (d.Parked → Quiet d.stream)
  have hinv : Inv d := by
    refine Runs.run_invariant Inv (fun d e h => ⟨step_sound h.1 e, step_quiet h.1 h.2 e⟩) ⟨?_, ?_⟩ events
    · exact ⟨⟨start, dest, remoteId, localId, [], rfl⟩, id, fun h => by cases h.2⟩
    · exact fun h => by cases h.2
  exact (hinv.2 hparked).poll hopen hnow

/-- A stream with a packet under way. -/
def waitingRun : List Event := [.call (.write 0 [1]), .call (.poll 0 0 10 1), .call (.tick (millis 500))]

theorem parked_poll_idle_waiting :
    let u := (Runs.run step (connect 0 ⟨.v4 0, 2⟩ 2 1) waitingRun).stream
    u.poll ⟨7, millis 500, 0, 10, 1⟩ = { u with inner := { u.inner with driveWaker := some 7 } } :=
  parked_poll_idle 0 ⟨.v4 0, 2⟩ 2 1 waitingRun ⟨by decide, by decide⟩ (by decide) ⟨7, millis 500, 0, 10, 1⟩ (by decide)

end DriverTask

end AsyncUdx
