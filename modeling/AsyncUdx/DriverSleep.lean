import AsyncUdx.StreamShutdown
import AsyncUdx.TimerLoss

/-! Whether the driver of a stream is woken when the stream is done. The task of the driver sleeps after a poll that
has not asked for another one, until a packet arrives, its channel is closed, the timer fires, or a call on the
stream wakes it. A poll registers with the timer only when it finds it running: a timer that has fired and is not set
again does not wake the task a second time. -/

namespace AsyncUdx

open Relation UdxStreamInner

/-- Whether a poll of the driver asks for another one right away. -/
def UdxStreamInner.continues (s : UdxStreamInner) (cx : Context) : Bool :=
  match ({ s with driveWaker := none }.pollDrive cx).2 with
  | .ok shouldContinue => shouldContinue
  | .error _ => true

/-- A stream with the task of its driver, and whether the task was woken since its last poll. -/
structure DriverTask where
  stream : UdxStream
  awake : Bool

namespace DriverTask

/-- A task is scheduled when it is spawned. -/
def connect (now : Nat) (dest : SocketAddr) (remoteId localId : UInt32) : DriverTask :=
  ⟨.connect now dest remoteId localId, true⟩

/-- A poll sees the timer as fired from its deadline on, unless it has used up its budget before it gets to the
timer; and the socket drops its end for outgoing events together with the one for incoming packets. -/
def timely (u : UdxStream) : Event → Event
  | .call (.poll waker timerLag budget maxGsoSegments) =>
      .call (.poll waker (if budget ≤ u.inner.recvRx.queue.length then timerLag else 0) budget maxGsoSegments)
  | .call (.socketGone recvClosed sendClosed) => .call (.socketGone (recvClosed || sendClosed) sendClosed)
  | e => e

/-- Whether the task is woken after an event that takes the stream from `u` to `v`. A poll that has used up its budget
is scheduled again by the runtime. -/
def wakes (d : DriverTask) (v : UdxStream) : Event → Bool
  | .call (.poll waker timerLag budget maxGsoSegments) =>
      if d.stream.driver = .running then
        d.stream.inner.continues ⟨waker, d.stream.clock, timerLag, budget, maxGsoSegments⟩ ||
          decide (budget ≤ d.stream.inner.recvRx.queue.length)
      else d.awake
  | .recv .. => true
  | .call (.socketGone ..) => d.awake || (v.inner.recvRx.closed && !d.stream.inner.recvRx.closed)
  | .call (.tick _) =>
      d.awake || (decide (d.stream.clock < d.stream.inner.rtoTimeout) && decide (d.stream.inner.rtoTimeout ≤ v.clock))
  | .call _ => d.awake || (d.stream.inner.driveWaker.isSome && v.inner.driveWaker.isNone)

def step (d : DriverTask) (e : Event) : DriverTask :=
  let e := timely d.stream e
  let v := d.stream.step e
  ⟨v, d.wakes v e⟩

/-- An event that makes the driver work on the stream. -/
def Drives (d : DriverTask) : Event → Prop
  | .call c => d.stream.drives c
  | .recv .. => False

/-- The driver sleeps. -/
def Parked (d : DriverTask) : Prop := d.stream.driver = .running ∧ d.awake = false

/-- The driver sleeps although the stream is closed and drained, and the timer will not wake it. -/
def Stuck (d : DriverTask) : Prop :=
  d.Parked ∧ d.stream.inner.rtoTimeout ≤ d.stream.clock ∧ d.stream.inner.closedAndDrained = true

/-- A poll that takes every packet there is and empties the stream after a termination, finds the timer fired and
leaves it so: it applies no new acknowledgement, and everything was acknowledged before. -/
def EmptiesIdle (d : DriverTask) : Event → Prop
  | .call (.poll _ _ budget _) =>
      let s := d.stream.inner
      d.stream.driver = .running ∧ s.closedAndDrained = false ∧ s.recvRx.closed = false ∧
      s.recvRx.queue.length < budget ∧ s.rtoTimeout ≤ d.stream.clock ∧ s.remoteAcked = s.seq ∧
      appliedAck s budget ≤ s.remoteAcked ∧ (s.error.isSome = true ∨ endReasons (s.recvRx.queue.take budget) ≠ []) ∧
      ∀ k ∈ s.outgoing, Acknowledged s budget k
  | _ => False

end DriverTask

/-! ### What a poll does to the timer -/

theorem pollDrive_rtoTimeout {s : UdxStreamInner} {cx : Context} {flag : Bool} (hok : (s.pollDrive cx).2 = .ok flag) :
    (s.pollDrive cx).1.rtoTimeout = ((s.pollIncoming cx).1.pollCheckTimeouts cx).1.rtoTimeout := by
  obtain ⟨-, -, -, hdrive, -⟩ := pollDrive_ok hok
  rw [hdrive, pollTransmit_frame rtoTimeout (fun _ _ _ => rfl), flushWaitingPackets,
    flushLoop_frame rtoTimeout (fun _ _ _ _ => rfl)]

/-- After a poll the timer has fired exactly if it had before, and nothing was outstanding and no acknowledgement was
new. -/
theorem pollDrive_fired_iff {s : UdxStreamInner} {cx : Context} {flag : Bool} (hok : (s.pollDrive cx).2 = .ok flag)
    (hlag : cx.timerLag = 0) (harmed : TimerArmed s.timerSide) :
    (s.pollDrive cx).1.rtoTimeout ≤ cx.now ↔
      s.rtoTimeout ≤ cx.now ∧ s.remoteAcked = s.seq ∧ appliedAck s cx.budget ≤ s.remoteAcked := by
  have hchain : Chain UdxStream.anyPacket cx.now s (s.pollIncoming cx).1 :=
    incomingLoop_chain _ _ s (Or.inl rfl) fun _ _ => trivial
  have hfloor : millis 1000 ≤ (s.pollIncoming cx).1.rto :=
    (chain_invariant (fun s => TimerArmed s.timerSide) (fun _ _ h => h.timerArmed) hchain harmed).floor
  have hpos : 0 < millis 1000 := by decide
  have hseq : (s.pollIncoming cx).1.seq = s.seq := chain_value seq (fun _ _ h => h.seq_eq) hchain
  have hacked := pollIncoming_remoteAcked s cx
  rw [pollDrive_rtoTimeout hok, pollCheckTimeouts_rtoTimeout, pollIncoming_rtoTimeout, hseq, hlag, Nat.add_zero]
  by_cases hack : appliedAck s cx.budget ≤ s.remoteAcked
  · rw [pollIncoming_remoteAcked, Counter.larger_of_le hack, if_pos hack]
    by_cases hsame : s.remoteAcked = s.seq
    · rw [if_pos (Or.inr hsame)]
      exact ⟨fun h => ⟨h, hsame, hack⟩, fun h => h.1⟩
    · by_cases hearly : cx.now < s.rtoTimeout
      · rw [if_pos (Or.inl hearly)]
        exact ⟨fun h => absurd h (Nat.not_le.mpr hearly), fun h => h.1⟩
      · rw [if_neg (not_or.mpr ⟨hearly, hsame⟩)]
        exact ⟨fun h => absurd h (by omega), fun h => absurd h.2.1 hsame⟩
  · rw [if_neg hack, if_pos (Or.inl (by omega))]
    exact ⟨fun h => absurd h (by omega), fun h => absurd h.2.2 hack⟩

/-- A poll that ends well leaves the waker of the driver. -/
theorem poll_ok {u : UdxStream} {cx : Context} (hopen : u.inner.closedAndDrained = false)
    (hok : ({ u.inner with driveWaker := none }.pollDrive cx).2 = .ok false) :
    u.poll cx = { u with
      inner := { ({ u.inner with driveWaker := none }.pollDrive cx).1 with driveWaker := some cx.waker } } := by
  have hnot : ¬closedAndDrained { u.inner with driveWaker := none } = true := by
    rw [show closedAndDrained { u.inner with driveWaker := none } = false from hopen]
    decide
  have hdrive : { u.inner with driveWaker := none }.pollDrive cx =
      (({ u.inner with driveWaker := none }.pollDrive cx).1, .ok false) := Prod.ext rfl hok
  rw [UdxStream.poll, pollDriver]
  dsimp only
  rw [if_neg hnot, hdrive]
  rfl

/-- A poll that takes every packet ends well with the stream done and the timer fired, exactly if it empties an idle
stream. -/
theorem pollDrive_idle_iff {s : UdxStreamInner} (cx : Context) (hfirewall : s.onFirewall = none) (hlast : ErrorLast s)
    (harmed : TimerArmed s.timerSide) (hsocket : s.sendTx.closed = true → s.recvRx.closed = true)
    (hlag : cx.timerLag = 0) (hbudget : s.recvRx.queue.length < cx.budget) :
    (s.pollDrive cx).2 = .ok false ∧ (s.pollDrive cx).1.rtoTimeout ≤ cx.now ∧
      (s.pollDrive cx).1.closedAndDrained = true ↔
    s.recvRx.closed = false ∧ s.rtoTimeout ≤ cx.now ∧ s.remoteAcked = s.seq ∧
      appliedAck s cx.budget ≤ s.remoteAcked ∧
      (s.error.isSome = true ∨ endReasons (s.recvRx.queue.take cx.budget) ≠ []) ∧
      ∀ k ∈ s.outgoing, Acknowledged s cx.budget k := by
  have herror : (s.pollDrive cx).1.error.isSome = true ↔
      s.error.isSome = true ∨ endReasons (s.recvRx.queue.take cx.budget) ≠ [] := by
    have hchain : Chain UdxStream.anyPacket cx.now s (s.pollDrive cx).1 := pollDrive_chain s cx fun _ _ => trivial
    rw [error_isSome_iff (chain_invariant ErrorLast (fun _ _ h => (Move.micro h).errorLast) hchain hlast),
      error_isSome_iff hlast, pollDrive_reasons hfirewall, Ne, List.append_eq_nil_iff, not_and_or]
  constructor
  · rintro ⟨hok, hfired, hdone⟩
    obtain ⟨hsome, -, hempty⟩ := (closedAndDrained_iff _).mp hdone
    obtain ⟨hbefore, hsame, hack⟩ := (pollDrive_fired_iff hok hlag harmed).mp hfired
    refine ⟨?_, hbefore, hsame, hack, herror.mp hsome, fun k hk => ?_⟩
    · have hin := (pollDrive_ok hok).1
      by_contra hclosed
      rw [pollIncoming_orphaned (Bool.eq_true_of_not_eq_false hclosed) hbudget] at hin
      cases hin
    · by_contra hnot
      exact AList.notMem_of_isEmpty (List.isEmpty_iff.mpr hempty) k (pollDrive_outgoing hfirewall cx hk hnot)
  · rintro ⟨hrecv, hfired, hsame, hack, hsome, hacked⟩
    have hsend : s.sendTx.closed = false := by
      rw [Bool.eq_false_iff]
      intro h
      rw [hsocket h] at hrecv
      cases hrecv
    obtain ⟨hok, hempty, hqueue⟩ := pollDrive_drains hfirewall hrecv hsend hacked
    exact ⟨hok, (pollDrive_fired_iff hok hlag harmed).mpr ⟨hfired, hsame, hack⟩,
      (closedAndDrained_iff _).mpr ⟨herror.mpr hsome, hqueue, hempty⟩⟩

namespace DriverTask

/-! ### Polls -/

theorem wakes_poll {d : DriverTask} {v : UdxStream} {waker : Waker} {timerLag budget maxGsoSegments : Nat}
    (hrunning : d.stream.driver = .running)
    (hasleep : d.wakes v (.call (.poll waker timerLag budget maxGsoSegments)) = false) :
    ({ d.stream.inner with driveWaker := none }.pollDrive
      ⟨waker, d.stream.clock, timerLag, budget, maxGsoSegments⟩).2 = .ok false ∧
    d.stream.inner.recvRx.queue.length < budget := by
  rw [wakes, if_pos hrunning, Bool.or_eq_false_iff, continues, decide_eq_false_iff_not, Nat.not_le] at hasleep
  refine ⟨?_, hasleep.2⟩
  have hcontinues := hasleep.1
  split at hcontinues <;> rename_i h
  · rw [h, hcontinues]
  · cases hcontinues

/-- What a task needs to know of its stream. -/
structure Sound (d : DriverTask) : Prop where
  reachable : d.stream.Reachable
  socket : d.stream.inner.sendTx.closed = true → d.stream.inner.recvRx.closed = true
  waker : d.Parked → d.stream.inner.driveWaker.isSome = true

/-- **One poll.** A poll that drives the stream leaves its task stuck exactly if it empties an idle stream. -/
theorem poll_stuck_iff {d : DriverTask} (hd : d.Sound) {waker : Waker} {timerLag budget maxGsoSegments : Nat}
    (hdrives : d.stream.driver = .running ∧ d.stream.inner.closedAndDrained = false) :
    (d.step (.call (.poll waker timerLag budget maxGsoSegments))).Stuck ↔
      d.EmptiesIdle (.call (.poll waker timerLag budget maxGsoSegments)) := by
  obtain ⟨hrunning, hopen⟩ := hdrives
  have hfirewall := hd.reachable.onFirewall
  have hlast : ErrorLast d.stream.inner := errorLast_invariant.of_reachable hd.reachable
  have harmed : TimerArmed d.stream.inner.timerSide :=
    timerArmed_invariant.of_reachable hd.reachable
  by_cases hbudget : d.stream.inner.recvRx.queue.length < budget
  · let cx : Context := ⟨waker, d.stream.clock, 0, budget, maxGsoSegments⟩
    have hiff := pollDrive_idle_iff (s := { d.stream.inner with driveWaker := none }) cx hfirewall hlast harmed
      hd.socket rfl hbudget
    have hstep : d.step (.call (.poll waker timerLag budget maxGsoSegments)) =
        ⟨d.stream.poll cx, d.wakes (d.stream.poll cx) (.call (.poll waker 0 budget maxGsoSegments))⟩ := by
      rw [step, timely, if_neg (Nat.not_le.mpr hbudget)]
      rw [UdxStream.step, UdxStream.call_poll hrunning]
    rw [hstep]
    constructor
    · rintro ⟨⟨-, hasleep⟩, hfired, hdone⟩
      obtain ⟨hok, -⟩ := wakes_poll (v := d.stream.poll cx) hrunning hasleep
      rw [poll_ok hopen hok] at hfired hdone
      obtain ⟨hrecv, hrest⟩ := hiff.mp ⟨hok, hfired, hdone⟩
      exact ⟨hrunning, hopen, hrecv, hbudget, hrest⟩
    · rintro ⟨-, -, hrecv, -, hrest⟩
      obtain ⟨hok, hfired, hdone⟩ := hiff.mpr ⟨hrecv, hrest⟩
      refine ⟨⟨?_, ?_⟩, ?_⟩
      · rw [poll_ok hopen hok]
        exact hrunning
      · rw [wakes, if_pos hrunning, continues, hok, decide_eq_false (Nat.not_le.mpr hbudget)]
        rfl
      · rw [poll_ok hopen hok]
        exact ⟨hfired, hdone⟩
  · have hawake : (d.step (.call (.poll waker timerLag budget maxGsoSegments))).awake = true := by
      rw [step, timely, if_pos (Nat.not_lt.mp hbudget)]
      dsimp only
      rw [wakes, if_pos hrunning, decide_eq_true (Nat.not_lt.mp hbudget), Bool.or_true]
    refine iff_of_false (fun h => ?_) fun h => hbudget h.2.2.2.1
    rw [h.1.2] at hawake
    cases hawake

/-! ### Everything else -/

/-- A call that does not drive the stream takes the waker of the driver, or leaves alone what its sleep depends on. -/
theorem call_untouched (u : UdxStream) (c : Call) (hidle : ¬u.drives c) :
    (u.call c).inner.driveWaker = none ∨
    (u.call c).inner.closedAndDrained = u.inner.closedAndDrained ∧
      (u.call c).inner.rtoTimeout = u.inner.rtoTimeout ∧ (u.call c).inner.driveWaker = u.inner.driveWaker := by
  have hinv : CallInvariant u.clock fun s => s.driveWaker = none ∨ s.closedAndDrained = u.inner.closedAndDrained ∧
      s.rtoTimeout = u.inner.rtoTimeout ∧ s.driveWaker = u.inner.driveWaker := {
    push := fun _ _ _ _ _ _ _ => Or.inl rfl
    blocked := fun _ _ _ _ _ _ hs => hs
    readPart := fun _ _ _ hs => hs
    readWhole := fun _ _ hs => hs
    readWaker := fun _ _ hs => hs
    terminate := fun _ _ _ => Or.inl rfl
    slot := fun _ _ _ hs => hs
    complete := fun _ _ => Or.inl rfl
    gone := fun _ _ _ hs => hs
    mark := by
      intro s i packet sent hlookup hs
      have hsome : s.outgoing.entries.isEmpty = false := by
        rw [Bool.eq_false_iff]
        exact fun h => AList.notMem_of_isEmpty h i (AList.mem_of_lookup hlookup)
      refine hs.imp id fun ⟨hdone, hrest⟩ => ⟨?_, hrest⟩
      rw [← hdone, closedAndDrained, closedAndDrained, hsome, AList.entries_insert]
      rfl }
  exact u.call_invariant c hinv hidle (Or.inr ⟨rfl, rfl, rfl⟩)

/-- A task sleeps on: it slept before, and what its sleep depends on is as it was. -/
structure SleepsOn (d : DriverTask) (v : UdxStream) : Prop where
  parked : d.Parked
  waker : v.inner.driveWaker.isSome = true
  drained : v.inner.closedAndDrained = d.stream.inner.closedAndDrained
  fired : v.inner.rtoTimeout ≤ v.clock → d.stream.inner.rtoTimeout ≤ d.stream.clock

/-- The calls of the users and of the socket, which wake the task by the waker of the driver. -/
theorem call_sleepsOn {d : DriverTask} (hd : d.Sound) {c : Call}
    (hc : ∀ waker timerLag budget maxGsoSegments, c ≠ .poll waker timerLag budget maxGsoSegments)
    (hrunning : (d.stream.call c).driver = .running) (hclock : (d.stream.call c).clock = d.stream.clock)
    (hasleep : (d.awake || (d.stream.inner.driveWaker.isSome && (d.stream.call c).inner.driveWaker.isNone)) = false) :
    d.SleepsOn (d.stream.call c) := by
  rw [Bool.or_eq_false_iff] at hasleep
  have hparked : d.Parked := ⟨(d.stream.call_driver c hc).symm.trans hrunning, hasleep.1⟩
  have hwaker := hd.waker hparked
  rcases call_untouched d.stream c (by cases c <;> first | exact fun h => h | exact absurd rfl (hc _ _ _ _)) with
    hnone | ⟨hdone, htimer, hsame⟩
  · rw [hwaker, hnone] at hasleep
    cases hasleep.2
  · refine ⟨hparked, ?_, hdone, ?_⟩
    · rw [hsame]
      exact hwaker
    · rw [htimer, hclock]
      exact id

/-- Time that passes, which wakes the task when the timer fires. -/
theorem tick_sleepsOn {d : DriverTask} (hd : d.Sound) {elapsed : Nat} (hrunning : d.stream.driver = .running)
    (hasleep : (d.awake || (decide (d.stream.clock < d.stream.inner.rtoTimeout) &&
      decide (d.stream.inner.rtoTimeout ≤ d.stream.clock + elapsed))) = false) :
    d.SleepsOn (d.stream.call (.tick elapsed)) := by
  rw [Bool.or_eq_false_iff] at hasleep
  have hparked : d.Parked := ⟨hrunning, hasleep.1⟩
  refine ⟨hparked, hd.waker hparked, rfl, fun hfired => ?_⟩
  change d.stream.inner.rtoTimeout ≤ d.stream.clock + elapsed at hfired
  by_contra hearly
  rw [decide_eq_true (Nat.not_le.mp hearly), decide_eq_true hfired] at hasleep
  cases hasleep.2

/-- A task that sleeps after an event that has not driven its stream slept before, and what its sleep depends on is
as it was. -/
theorem step_parked {d : DriverTask} (hd : d.Sound) {e : Event} (hidle : ¬d.Drives e) (hparked : (d.step e).Parked) :
    d.SleepsOn (d.step e).stream := by
  obtain ⟨hrunning, hasleep⟩ := hparked
  cases e with
  | recv header buf source => cases hasleep
  | call c =>
      cases c with
      | poll waker timerLag budget maxGsoSegments =>
          -- a poll that does not drive a running stream completes its driver
          exfalso
          change (d.stream.call _).driver = .running at hrunning
          rw [UdxStream.call] at hrunning
          split at hrunning
          · rename_i hrun
            have hdone : d.stream.inner.closedAndDrained = true := by
              by_contra hopen
              exact hidle ⟨hrun, Bool.eq_false_iff.mpr hopen⟩
            rw [(poll_drained _ hdone).1] at hrunning
            cases hrunning
          · contradiction
      | tick elapsed => exact tick_sleepsOn hd hrunning hasleep
      | socketGone recvClosed sendClosed =>
          have hparked : d.Parked := ⟨hrunning, (Bool.or_eq_false_iff.mp hasleep).1⟩
          exact ⟨hparked, hd.waker hparked, rfl, id⟩
      | _ =>
          exact call_sleepsOn hd (fun _ _ _ _ => Call.noConfusion) hrunning
            (d.stream.call_clock _ fun _ => Call.noConfusion) hasleep

theorem step_sound {d : DriverTask} (hd : d.Sound) (e : Event) : (d.step e).Sound where
  reachable := hd.reachable.step _
  socket := by
    have hcall : ∀ c : Call, (∀ recvClosed sendClosed, c ≠ .socketGone recvClosed sendClosed) →
        (d.stream.call c).inner.sendTx.closed = true → (d.stream.call c).inner.recvRx.closed = true := by
      intro c hc hclosed
      have hends := Prod.ext_iff.mp (d.stream.call_closedEnds c hc)
      exact hends.1.trans (hd.socket (hends.2.symm.trans hclosed))
    cases e with
    | recv header buf source => exact hd.socket
    | call c =>
        cases c with
        | socketGone recvClosed sendClosed =>
            change (d.stream.inner.sendTx.closed || sendClosed) = true →
              (d.stream.inner.recvRx.closed || (recvClosed || sendClosed)) = true
            have hsocket := hd.socket
            simp only [Bool.or_eq_true]
            tauto
        | _ => exact hcall _ fun _ _ => Call.noConfusion
  waker := by
    intro hparked
    by_cases hdrives : d.Drives e
    · match e, hdrives with
      | .call (.poll waker timerLag budget maxGsoSegments), ⟨hrunning, hopen⟩ =>
          obtain ⟨hok, -⟩ := wakes_poll (v := d.stream) hrunning hparked.2
          change (d.stream.call _).inner.driveWaker.isSome = true
          rw [UdxStream.call_poll hrunning, poll_ok hopen hok]
          rfl
    · exact (step_parked hd hdrives hparked).waker

theorem step_stuck_iff {d : DriverTask} (hd : d.Sound) (hok : ¬d.Stuck) (e : Event) :
    ¬(d.step e).Stuck ↔ ¬d.EmptiesIdle e := by
  rw [not_iff_not]
  by_cases hdrives : d.Drives e
  · match e, hdrives with
    | .call (.poll waker timerLag budget maxGsoSegments), hdrives => exact poll_stuck_iff hd hdrives
  · refine iff_of_false (fun hstuck => hok ?_) fun hempties => hdrives ?_
    · have hsleeps := step_parked hd hdrives hstuck.1
      exact ⟨hsleeps.parked, hsleeps.fired hstuck.2.1, hsleeps.drained.symm.trans hstuck.2.2⟩
    · match e, hempties with
      | .call (.poll ..), h => exact ⟨h.1, h.2.1⟩

/-- **Sleep.** In no state of a run is the driver asleep with its stream closed and drained and its timer fired,
exactly if no poll of the run empties a terminated stream that was idle. -/
theorem never_stuck_iff (start : Nat) (dest : SocketAddr) (remoteId localId : UInt32) (events : List Event) :
    Runs.Always step (fun d => ¬d.Stuck) (connect start dest remoteId localId) events ↔
      Runs.Along step (fun d e => ¬d.EmptiesIdle e) (connect start dest remoteId localId) events :=
  Runs.always_iff_along Sound (fun _ => True) (fun _ _ _ => trivial) (fun _ e hd _ => step_sound hd e)
    (fun _ e hd hok _ => step_stuck_iff hd hok e)
    ⟨⟨start, dest, remoteId, localId, [], rfl⟩, fun h => h, fun h => by cases h.2⟩ (fun h => by cases h.1.2) trivial

/-- A stream that is idle until its timer has fired, and is closed then. -/
def closedIdleRun : List Event :=
  [.call (.tick (millis 5000)), .call (.poll 0 0 10 1), .call .close, .call (.poll 0 0 10 1)]

/-- The poll after the close sends the END and leaves the driver asleep; nothing wakes it to complete. -/
theorem closedIdleRun_stuck : (Runs.run step (connect 0 ⟨.v4 0, 2⟩ 2 1) closedIdleRun).Stuck :=
  ⟨⟨by decide, by decide⟩, by decide, by decide⟩

end DriverTask

end AsyncUdx
