import AsyncUdx.CloseFuture
import AsyncUdx.DriverIdle
import AsyncUdx.RttEstimator

/-! When a stream gives up. A packet that the timer has parked more than `UDX_MAX_TRANSMITS` times ends the stream the
next time it is looked at. The timer is armed for a second at least, and each timeout parks a packet at most once; so
a stream does not give up on a packet before six seconds have passed. On the other hand the oldest packet is queued
again after every timeout, so a peer that has fallen silent is noticed after a fixed number of them. -/

namespace AsyncUdx

open Relation UdxStreamInner

variable {now : Nat}

/-! ### How long a packet has been outstanding -/

/-- A packet was created at some instant. -/
def BornAt (created : List Packet) (packet : Packet) (t : Nat) : Prop :=
  ∃ original ∈ created, original.seq = packet.seq ∧ original.queuedAt = [t]

/-- A packet that was parked so often that the timer has been armed for a second before each time but the first. -/
def Aged (created : List Packet) (now armedAt : Nat) (packet : Packet) : Prop :=
  ∃ t, BornAt created packet t ∧ t ≤ now ∧
    (packet.transmits ≠ 0 → t + packet.transmits * millis 1000 ≤ armedAt + millis 1000)

theorem Aged.mono {created created' : List Packet} {clock clock' armedAt armedAt' : Nat} {packet : Packet}
    (h : Aged created clock armedAt packet) (hcreated : created ⊆ created') (hclock : clock ≤ clock')
    (harmed : armedAt ≤ armedAt') : Aged created' clock' armedAt' packet := by
  obtain ⟨t, ⟨original, hmem, hborn⟩, hpast, hlate⟩ := h
  exact ⟨t, ⟨original, hcreated hmem, hborn⟩, hpast.trans hclock, fun hparked => by
    have := hlate hparked
    omega⟩

/-- Every packet is as old as it was parked often. -/
structure Dated (now : Nat) (s : UdxStreamInner) : Prop where
  armed : s.ghost.armedAt ≤ now
  packets : AllOutgoing (Aged s.ghost.created now s.ghost.armedAt) s

theorem Dated.tick {s : UdxStreamInner} (hs : Dated now s) (elapsed : Nat) : Dated (now + elapsed) s :=
  ⟨hs.armed.trans (Nat.le_add_right _ _), fun i packet hlookup =>
    (hs.packets i packet hlookup).mono (List.Subset.refl _) (Nat.le_add_right _ _) (Nat.le_refl _)⟩

theorem dated_callInvariant (now : Nat) : CallInvariant now (Dated now) where
  push := fun s body _ _ _ _ hs => by
    refine ⟨hs.armed, fun i packet hlookup => ?_⟩
    rcases AList.lookup_insert_eq_some hlookup with ⟨-, rfl⟩ | ⟨-, hold⟩
    · exact ⟨now, ⟨_, List.mem_append_right _ (List.mem_singleton_self _), rfl, rfl⟩, Nat.le_refl _,
        fun h => absurd rfl h⟩
    · exact (hs.packets i packet hold).mono (List.subset_append_left _ _) (Nat.le_refl _) (Nat.le_refl _)
  blocked := fun _ _ _ _ _ _ hs => ⟨hs.armed, hs.packets⟩
  readPart := fun _ _ _ hs => ⟨hs.armed, hs.packets⟩
  readWhole := fun _ _ hs => ⟨hs.armed, hs.packets⟩
  readWaker := fun _ _ hs => ⟨hs.armed, hs.packets⟩
  terminate := fun _ _ hs => ⟨hs.armed, hs.packets⟩
  slot := fun _ _ _ hs => ⟨hs.armed, hs.packets⟩
  complete := fun _ hs => ⟨hs.armed, hs.packets⟩
  mark := fun s i packet _ hlookup hs => ⟨hs.armed, allOutgoing_insert hs.packets rfl (hs.packets i packet hlookup)⟩
  gone := fun _ _ _ hs => ⟨hs.armed, hs.packets⟩

/-! ### What a poll does to the packets -/

theorem ackPacket_dated {s : UdxStreamInner} (i : UInt32) (hs : Dated now s) : Dated now (s.ackPacket now i) := by
  have hcreated : (s.ackPacket now i).ghost.created = s.ghost.created := ackPacket_created s i
  have harmed : (s.ackPacket now i).ghost.armedAt = s.ghost.armedAt := by
    unfold ackPacket
    split <;> rfl
  refine ⟨harmed ▸ hs.armed, ?_⟩
  rw [hcreated, harmed]
  exact ackPacket_allOutgoing i hs.packets

theorem resetTimer_dated {s : UdxStreamInner} (deadline : Nat) (hs : Dated now s) :
    Dated now (s.resetTimer now deadline) :=
  ⟨Nat.le_refl _, fun i packet hlookup =>
    (hs.packets i packet hlookup).mono (List.Subset.refl _) (Nat.le_refl _) hs.armed⟩

theorem handleIncomingMaxRemoteAck_dated {s : UdxStreamInner} (ack : UInt32) (hs : Dated now s) :
    Dated now (s.handleIncomingMaxRemoteAck now ack) := by
  have hloop : ∀ (n : Nat) (s : UdxStreamInner), Dated now s → Dated now (ackLoop now n s) := by
    intro n
    induction n with
    | zero => exact fun _ hs => hs
    | succ n ih => exact fun s hs => ih _ (ackPacket_dated _ ⟨hs.armed, hs.packets⟩)
  unfold handleIncomingMaxRemoteAck
  split
  · exact hs
  · have hacked := hloop (ack.toNat - s.remoteAcked.toNat) s hs
    exact resetTimer_dated _ ⟨hacked.armed, hacked.packets⟩

theorem pollIncoming_dated {s : UdxStreamInner} {cx : Context} (hs : Dated cx.now s) :
    Dated cx.now (s.pollIncoming cx).1 := by
  refine incomingLoop_invariant (Dated cx.now) (fun s packet rest _ hs => ?_)
    (fun s ack => handleIncomingMaxRemoteAck_dated ack) _ _ hs
  exact handleIncoming_invariant (fun _ _ hs => ⟨hs.armed, hs.packets⟩) (fun _ i hs => ackPacket_dated i hs)
    (fun _ hs => ⟨hs.armed, hs.packets⟩) (fun _ _ hs => ⟨hs.armed, hs.packets⟩)
    (fun _ _ hs => ⟨hs.armed, hs.packets⟩) packet ⟨hs.armed, hs.packets⟩

/-- A packet while the timeout is handled: it was parked only when it was old enough, and one that is not parked yet
may be. -/
def Due (created : List Packet) (now : Nat) (packet : Packet) : Prop :=
  ∃ t, BornAt created packet t ∧ t ≤ now ∧ t + packet.transmits * millis 1000 ≤ now + millis 1000 ∧
    (packet.waiting = false → t + packet.transmits * millis 1000 ≤ now)

/-- A packet was created so long ago that a stream may give up. -/
def Late (created : List Packet) (now : Nat) : Prop :=
  ∃ packet ∈ created, ∃ t, packet.queuedAt = [t] ∧ t + (udxMaxTransmits + 1) * millis 1000 ≤ now

theorem Late.mono {created created' : List Packet} {clock clock' : Nat} (h : Late created clock)
    (hcreated : created ⊆ created') (hclock : clock ≤ clock') : Late created' clock' := by
  obtain ⟨packet, hmem, t, hborn, hlate⟩ := h
  exact ⟨packet, hcreated hmem, t, hborn, hlate.trans hclock⟩

/-- The loop over the packets parks each of them once, and gives up only on one that is old enough. -/
theorem timeoutLoop_due {created : List Packet} (keys : List UInt32) {s : UdxStreamInner}
    (hs : AllOutgoing (Due created now) s) :
    AllOutgoing (Due created now) (timeoutLoop now keys s).1 ∧
      ((timeoutLoop now keys s).2 ≠ .ok () → Late created now) := by
  induction keys generalizing s with
  | nil => exact ⟨hs, fun h => absurd rfl h⟩
  | cons i rest ih =>
      rw [timeoutLoop]
      split
      · exact ih hs
      · rename_i packet hlookup
        split_ifs with hwaiting hmax
        · exact ih hs
        · refine ⟨hs, fun _ => ?_⟩
          obtain ⟨t, ⟨original, hmem, -, hborn⟩, -, -, hold⟩ := hs i packet hlookup
          have hage := hold (Bool.eq_false_iff.mpr hwaiting)
          have hle : (udxMaxTransmits + 1) * millis 1000 ≤ packet.transmits * millis 1000 :=
            Nat.mul_le_mul_right _ hmax
          exact ⟨original, hmem, t, hborn, by omega⟩
        · apply ih
          refine allOutgoing_insert hs rfl ?_
          obtain ⟨t, hborn, hpast, -, hold⟩ := hs i packet hlookup
          refine ⟨t, hborn, hpast, ?_, fun h => by cases h⟩
          have hage := hold (Bool.eq_false_iff.mpr hwaiting)
          change t + (packet.transmits + 1) * millis 1000 ≤ now + millis 1000
          rw [Nat.succ_mul, ← Nat.add_assoc]
          exact Nat.add_le_add_right hage _

theorem pollCheckTimeouts_dated {s : UdxStreamInner} {cx : Context} (harmed : TimerArmed s.timerSide)
    (hs : Dated cx.now s) : Dated cx.now (s.pollCheckTimeouts cx).1 ∧
      ((s.pollCheckTimeouts cx).2 ≠ .ok () → Late s.ghost.created cx.now) := by
  unfold pollCheckTimeouts
  split_ifs with hearly hacked
  · exact ⟨hs, fun h => absurd rfl h⟩
  · exact ⟨hs, fun h => absurd rfl h⟩
  · -- the timer was armed a second ago and more
    have hfired : s.ghost.armedAt + millis 1000 ≤ cx.now := by
      have hcurrent : s.ghost.armedAt + millis 1000 ≤ s.rtoTimeout := harmed.current
      omega
    have hdue : AllOutgoing (Due s.ghost.created cx.now) (s.backOff cx.now) := by
      intro i packet hlookup
      obtain ⟨t, hborn, hpast, hlate⟩ := hs.packets i packet hlookup
      have hage : t + packet.transmits * millis 1000 ≤ cx.now := by
        by_cases hparked : packet.transmits = 0
        · rw [hparked]
          omega
        · exact (hlate hparked).trans hfired
      exact ⟨t, hborn, hpast, hage.trans (Nat.le_add_right _ _), fun _ => hage⟩
    let keys := Counter.range (s.backOff cx.now).remoteAcked (s.backOff cx.now).seq
    obtain ⟨hparked, hlate⟩ := timeoutLoop_due keys hdue
    have hcreated : (timeoutLoop cx.now keys (s.backOff cx.now)).1.ghost.created = s.ghost.created :=
      timeoutLoop_frame (fun s => s.ghost.created) (fun _ _ _ _ => rfl) _ _
    have harmed : (timeoutLoop cx.now keys (s.backOff cx.now)).1.ghost.armedAt = cx.now :=
      timeoutLoop_frame (fun s => s.ghost.armedAt) (fun _ _ _ _ => rfl) _ _
    refine ⟨⟨harmed.le, fun i packet hlookup => ?_⟩, hlate⟩
    obtain ⟨t, hborn, hpast, hage, -⟩ := hparked i packet hlookup
    rw [hcreated, harmed]
    exact ⟨t, hborn, hpast, fun _ => hage⟩

theorem flushWaitingPackets_dated {s : UdxStreamInner} (hs : Dated now s) : Dated now (s.flushWaitingPackets now) := by
  have hcreated : (s.flushWaitingPackets now).ghost.created = s.ghost.created :=
    flushLoop_frame (fun s => s.ghost.created) (fun _ _ _ _ => rfl) _ _
  have harmed : (s.flushWaitingPackets now).ghost.armedAt = s.ghost.armedAt :=
    flushLoop_frame (fun s => s.ghost.armedAt) (fun _ _ _ _ => rfl) _ _
  have hloop : ∀ (keys : List UInt32) (t : UdxStreamInner), AllOutgoing (Aged s.ghost.created now s.ghost.armedAt) t →
      AllOutgoing (Aged s.ghost.created now s.ghost.armedAt) (flushLoop now keys t) := by
    intro keys
    induction keys with
    | nil => exact fun _ ht => ht
    | cons i rest ih =>
        intro t ht
        rw [flushLoop]
        split
        · exact ih t ht
        · rename_i packet hlookup
          split_ifs
          · exact ih t ht
          · exact ht
          · exact ih _ (allOutgoing_insert ht rfl (ht i packet hlookup))
  refine ⟨harmed ▸ hs.armed, ?_⟩
  rw [hcreated, harmed]
  exact hloop _ s hs.packets

/-- A poll keeps the packets dated, and it reports a timeout only when one is late. -/
theorem pollDrive_dated {s : UdxStreamInner} (cx : Context) (harmed : TimerArmed s.timerSide)
    (hs : Dated cx.now s) : Dated cx.now (s.pollDrive cx).1 ∧
      ∀ err, (s.pollDrive cx).2 = .error (.io err) → err.kind = .timedOut → Late s.ghost.created cx.now := by
  have hchain := pollIncoming_chain s cx
  have hin : Dated cx.now (s.pollIncoming cx).1 := pollIncoming_dated hs
  have hcreated : (s.pollIncoming cx).1.ghost.created = s.ghost.created :=
    chain_value (fun s => s.ghost.created) (fun _ _ h => h.created_eq) hchain
  have hcheck := pollCheckTimeouts_dated
    (chain_invariant (fun s => TimerArmed s.timerSide) (fun _ _ h => h.timerArmed) hchain harmed) hin
  rw [hcreated] at hcheck
  have hresult := pollIncoming_result s cx
  unfold pollDrive
  split
  · rename_i s₁ fault h₁
    rw [h₁] at hin hresult
    refine ⟨hin, fun err herr hkind => ?_⟩
    -- the socket is gone, which is no timeout
    cases herr
    split_ifs at hresult
    cases hresult
    cases hkind
  · rename_i s₁ h₁
    rw [h₁] at hcheck
    split
    · rename_i s₂ fault h₂
      rw [h₂] at hcheck
      exact ⟨hcheck.1, fun _ _ _ => hcheck.2 (fun h => by cases h)⟩
    · rename_i s₂ h₂
      rw [h₂] at hcheck
      have hflushed := flushWaitingPackets_dated hcheck.1
      obtain ⟨rest, sets, hspec, -⟩ := transmitLoop_spec (min cx.maxGsoSegments maxSegments)
        (s₂.flushWaitingPackets cx.now).sendQueue 0 [] (s₂.flushWaitingPackets cx.now)
      have hsent : Dated cx.now ((s₂.flushWaitingPackets cx.now).pollTransmit cx).1 := by
        rw [pollTransmit, hspec]
        exact ⟨hflushed.armed, hflushed.packets⟩
      have hio := pollTransmit_io (s₂.flushWaitingPackets cx.now) cx
      dsimp only
      split <;> rename_i s₃ h₃ <;> rw [h₃] at hsent hio
      · exact ⟨hsent, fun err herr _ => absurd (by cases herr; rfl) (hio err)⟩
      · exact ⟨hsent, fun err herr => by cases herr⟩

/-! ### A stream that has given up -/

theorem step_dated {u : UdxStream} (hu : u.Reachable) (hs : Dated u.clock u.inner) (e : Event) :
    Dated (u.step e).clock (u.step e).inner := by
  cases e with
  | recv header buf source => exact ⟨hs.armed, hs.packets⟩
  | call c =>
      change Dated (u.call c).clock (u.call c).inner
      by_cases hdrives : u.drives c
      · cases c with
        | poll waker timerLag budget maxGsoSegments =>
            rw [u.call_clock _ fun _ => Call.noConfusion, UdxStream.call_poll hdrives.1]
            refine UdxStream.poll_invariant (Dated u.clock) (dated_callInvariant u.clock).terminate
              (dated_callInvariant u.clock).slot (fun _ _ _ hs => ⟨hs.armed, hs.packets⟩) hdrives.2 ?_
            exact (pollDrive_dated (s := { u.inner with driveWaker := none }) ⟨waker, u.clock, timerLag, budget, _⟩
              (timerArmed_invariant.of_reachable hu) ⟨hs.armed, hs.packets⟩).1
        | _ => exact hdrives.elim
      · cases c with
        | tick elapsed => exact hs.tick elapsed
        | _ =>
            rw [u.call_clock _ fun _ => Call.noConfusion]
            exact u.call_invariant _ (dated_callInvariant u.clock) hdrives hs

theorem reachable_dated {u : UdxStream} (hu : u.Reachable) : Dated u.clock u.inner := by
  let Inv (u : UdxStream) : Prop := u.Reachable ∧ Dated u.clock u.inner
  refine (UdxStream.Reachable.invariant Inv ?_ (fun u e h => ⟨h.1.step e, step_dated h.1 h.2 e⟩) hu).2
  intro start dest remoteId localId
  exact ⟨⟨start, dest, remoteId, localId, [], rfl⟩, Nat.le_refl _, fun _ _ h => by cases h⟩

/-- An event that reports a timeout finds a packet that is late. -/
theorem reasonsOf_timedOut {u : UdxStream} (hu : u.Reachable) {e : Event} (h : .timedOut ∈ reasonsOf u e) :
    Late u.inner.ghost.created u.clock := by
  have hdrop : ErrorKind.timedOut ∉ dropReasons u := by
    unfold dropReasons
    split <;> decide
  have hends (packets : List IncomingPacket) : ErrorKind.timedOut ∉ endReasons packets := by
    unfold endReasons
    intro hmem
    obtain ⟨-, -, hkind⟩ := List.mem_map.mp hmem
    cases hkind
  cases e with
  | recv header buf source => exact absurd h List.not_mem_nil
  | call c =>
      cases c with
      | close =>
          rw [reasonsOf] at h
          split at h
          · exact absurd h List.not_mem_nil
          · exact absurd h (by decide)
      | drop =>
          rw [reasonsOf] at h
          split at h
          · exact absurd h List.not_mem_nil
          · exact absurd h hdrop
      | poll waker timerLag budget maxGsoSegments =>
          rw [reasonsOf] at h
          split_ifs at h
          · exact absurd h hdrop
          · rcases List.mem_append.mp h with h | h
            · exact absurd h (hends _)
            · have hdated := reachable_dated hu
              obtain ⟨-, hlate⟩ := pollDrive_dated (s := { u.inner with driveWaker := none })
                ⟨waker, u.clock, timerLag, budget, maxGsoSegments⟩ (timerArmed_invariant.of_reachable hu)
                ⟨hdated.armed, hdated.packets⟩
              split at h
              · exact absurd h List.not_mem_nil
              · rename_i err herr
                exact hlate err herr (List.mem_singleton.mp h).symm
              · exact absurd h hdrop
          · exact absurd h List.not_mem_nil
      | _ => exact absurd h List.not_mem_nil

/-- **A stream gives up late.** When a stream reports that a packet was sent too often without an answer, six seconds
and more have passed since some packet was created: it takes seven timeouts, and between any two of them the timer is
armed for a second at least. -/
theorem timedOut_late {u : UdxStream} (hu : u.Reachable) (htimedOut : .timedOut ∈ u.inner.ghost.reasons) :
    ∃ packet ∈ u.inner.ghost.created, ∃ t, packet.queuedAt = [t] ∧ t + millis 6000 ≤ u.clock := by
  let Inv (u : UdxStream) : Prop :=
    u.Reachable ∧ (.timedOut ∈ u.inner.ghost.reasons → Late u.inner.ghost.created u.clock)
  refine (UdxStream.Reachable.invariant Inv ?_ ?_ hu).2 htimedOut
  · exact fun start dest remoteId localId =>
      ⟨⟨start, dest, remoteId, localId, [], rfl⟩, fun h => absurd h List.not_mem_nil⟩
  · rintro u e ⟨hu, hlate⟩
    refine ⟨hu.step e, fun h => ?_⟩
    rw [step_reasons u e hu.onFirewall] at h
    refine Late.mono ?_ (Advance.created_prefix (u.step_advance_any e)).subset (u.step_clock_le e)
    exact (List.mem_append.mp h).elim hlate (reasonsOf_timedOut hu)

theorem timedOut_late_expiries :
    let u := (UdxStream.connect 0 ⟨.v4 0, 2⟩ 2 1).run (expiriesRun 7)
    ∃ packet ∈ u.inner.ghost.created, ∃ t, packet.queuedAt = [t] ∧ t + millis 6000 ≤ u.clock :=
  timedOut_late ⟨0, ⟨.v4 0, 2⟩, 2, 1, expiriesRun 7, rfl⟩ (by decide)

/-! ### A peer that has fallen silent -/

/-- Nothing arrives, and the socket stays. -/
def noAnswer : Event → Bool
  | .recv .. => false
  | .call (.socketGone ..) => false
  | .call _ => true

/-- A poll of the driver that finds its timer expired with packets outstanding. -/
def timesOut (u : UdxStream) : Event → Bool
  | .call (.poll _ timerLag _ _) => decide (u.driver = .running ∧ u.inner.rtoTimeout + timerLag ≤ u.clock ∧
      u.inner.remoteAcked ≠ u.inner.seq)
  | _ => false

/-- The timeouts a packet can still go through. -/
def Packet.patience (packet : Packet) : Nat :=
  (udxMaxTransmits + 1 - packet.transmits) + if packet.waiting then 1 else 0

def patience (k : UInt32) (s : UdxStreamInner) : Nat := ((s.outgoing.lookup k).map Packet.patience).getD 0

/-- The oldest packet of a stream that hears nothing. -/
structure Awaiting (k : UInt32) (u : UdxStream) : Prop extends Online u where
  reachable : u.Reachable
  silent : u.inner.recvRx.queue = []
  present : k ∈ u.inner.outgoing
  first : ∀ j ∈ u.inner.outgoing, k ≤ j
  acked : u.inner.remoteAcked ≤ k

/-- What a call leaves as it is. -/
def StillFirst (k : UInt32) (s t : UdxStreamInner) : Prop :=
  FewCreated t → t.recvRx.queue = [] ∧ t.remoteAcked = s.remoteAcked ∧ t.seq.toNat = t.ghost.created.length ∧
    k < t.seq ∧ (t.outgoing.lookup k).map Packet.patience = (s.outgoing.lookup k).map Packet.patience ∧
    ∀ j ∈ t.outgoing, k ≤ j

theorem stillFirst_callInvariant (k : UInt32) (s : UdxStreamInner) (now : Nat) :
    CallInvariant now (StillFirst k s) where
  push := by
    intro t body _ _ _ _ ht hfew
    have hlength : (t.pushData now body).ghost.created.length = t.ghost.created.length + 1 := List.length_append
    unfold FewCreated at hfew
    rw [hlength] at hfew
    obtain ⟨hqueue, hacked, hseq, hlt, hsame, hfirst⟩ := ht (Nat.lt_of_succ_lt hfew)
    have hnext : (t.seq + 1).toNat = t.seq.toNat + 1 := Counter.toNat_succ (by omega)
    refine ⟨hqueue, hacked, hnext.trans (by rw [hseq, hlength]), ?_, ?_, fun j hj => ?_⟩
    · refine UInt32.lt_iff_toNat_lt.mpr ?_
      change k.toNat < (t.seq + 1).toNat
      have := UInt32.lt_iff_toNat_lt.mp hlt
      omega
    · rw [← hsame]
      exact congrArg (Option.map Packet.patience) (AList.lookup_insert_ne (UInt32.ne_of_lt hlt))
    · rcases (AList.mem_insert t.outgoing).mp hj with rfl | hj
      · exact UInt32.le_of_lt hlt
      · exact hfirst j hj
  blocked := fun _ _ _ _ _ _ ht => ht
  readPart := fun _ _ _ ht => ht
  readWhole := fun _ _ ht => ht
  readWaker := fun _ _ ht => ht
  terminate := fun _ _ ht => ht
  slot := fun _ _ _ ht => ht
  complete := fun _ ht => ht
  mark := by
    intro t i packet sent hlookup ht hfew
    obtain ⟨hqueue, hacked, hseq, hlt, hsame, hfirst⟩ := ht hfew
    refine ⟨hqueue, hacked, hseq, hlt, ?_, fun j hj => ?_⟩
    · rw [← hsame]
      by_cases heq : k = i
      · rw [heq, hlookup]
        change ((t.outgoing.insert i { packet with timeSent := some sent }).lookup i).map Packet.patience = _
        rw [AList.lookup_insert]
        rfl
      · exact congrArg (Option.map Packet.patience) (AList.lookup_insert_ne heq)
    · rcases (AList.mem_insert t.outgoing).mp hj with rfl | hj
      · exact hfirst j (AList.mem_of_lookup hlookup)
      · exact hfirst j hj
  gone := fun _ _ _ ht => ht

theorem Awaiting.accounted {k : UInt32} {u : UdxStream} (h : Awaiting k u) (hfew : FewCreated u.inner) :
    Accounted u.inner.sendSide :=
  accounted_invariant.reachable (fun _ _ _ => trivial) h.reachable hfew

theorem Awaiting.booked {k : UInt32} {u : UdxStream} (h : Awaiting k u) (hfew : FewCreated u.inner) :
    Booked u.inner :=
  ⟨h.accounted hfew, fun j hj => UInt32.le_trans h.acked (h.first j hj)⟩

theorem Awaiting.call {k : UInt32} {u : UdxStream} (h : Awaiting k u) {c : Call}
    (hpoll : ∀ waker timerLag budget maxGsoSegments, c ≠ .poll waker timerLag budget maxGsoSegments)
    (hgone : ∀ recvClosed sendClosed, c ≠ .socketGone recvClosed sendClosed) (hfew : FewCreated (u.call c).inner) :
    Awaiting k (u.call c) ∧ patience k (u.call c).inner = patience k u.inner := by
  have hbefore : FewCreated u.inner :=
    Nat.lt_of_le_of_lt (Advance.created_prefix (u.step_advance_any (.call c))).length_le hfew
  have haccounted := h.accounted hbefore
  have hkept : StillFirst k u.inner (u.call c).inner := by
    refine u.call_invariant c (stillFirst_callInvariant k u.inner u.clock) ?_ fun _ => ?_
    · cases c <;> first | exact id | exact absurd rfl (hpoll _ _ _ _)
    · exact ⟨h.silent, rfl, haccounted.seq_eq, haccounted.keys_lt k h.present, rfl, h.first⟩
  obtain ⟨hqueue, hacked, -, -, hsame, hfirst⟩ := hkept hfew
  have hends := Prod.ext_iff.mp (u.call_closedEnds c hgone)
  refine ⟨⟨⟨?_, hends.1.trans h.recv, hends.2.trans h.send⟩, h.reachable.step (.call c), hqueue, ?_, hfirst, ?_⟩, ?_⟩
  · rw [u.call_driver c hpoll]
    exact h.running
  · obtain ⟨packet, hlookup⟩ := AList.exists_lookup_of_mem h.present
    rw [hlookup] at hsame
    obtain ⟨other, hother, -⟩ := Option.map_eq_some_iff.mp hsame
    exact AList.mem_of_lookup hother
  · rw [hacked]
    exact h.acked
  · rw [patience, hsame]
    rfl

theorem Packet.patience_parked {packet : Packet}
    (hlimit : packet.waiting = false → packet.transmits ≤ udxMaxTransmits) :
    udxMaxTransmits + 1 - packet.parked.transmits + 1 = packet.patience := by
  unfold Packet.parked Packet.patience
  cases hwaiting : packet.waiting with
  | true => rfl
  | false =>
      have hle := hlimit hwaiting
      change udxMaxTransmits + 1 - (packet.transmits + 1) + 1 = udxMaxTransmits + 1 - packet.transmits + 0
      omega

/-- A poll after which the stream is open has not given up. -/
theorem checked_ok_of_open {u : UdxStream} {cx : Context} (hrecv : u.inner.recvRx.closed = false)
    (hopen : u.inner.closedAndDrained = false) (herror : (u.poll cx).inner.error = none) :
    (u.checked cx).2 = .ok () := by
  let idle : UdxStreamInner := { u.inner with driveWaker := none }
  have hin : idle.pollIncoming cx = ((idle.pollIncoming cx).1, .ok ()) :=
    Prod.ext rfl (pollIncoming_open (s := idle) hrecv cx)
  cases hcheck : (u.checked cx).2 with
  | ok _ => rfl
  | error fault =>
      exfalso
      have hdrive : (idle.pollDrive cx).2 = .error fault := by
        have hpair : (idle.pollIncoming cx).1.pollCheckTimeouts cx = ((u.checked cx).1, .error fault) :=
          Prod.ext rfl hcheck
        unfold pollDrive
        rw [hin]
        dsimp only
        rw [hpair]
      unfold UdxStream.poll at herror
      rcases pollDriver_cases u.inner cx hopen with ⟨flag, waker, woken, hresult, -⟩ | ⟨err, woken, -, h⟩ |
        ⟨message, hresult, -⟩
      · cases hdrive.symm.trans hresult
      · rw [h] at herror
        cases herror
      · cases hdrive.symm.trans hresult
        exact pollCheckTimeouts_panic hcheck

theorem Awaiting.poll {k : UInt32} {u : UdxStream} (h : Awaiting k u) {cx : Context} (hnow : cx.now = u.clock)
    (hopen : u.inner.closedAndDrained = false) (herror : (u.poll cx).inner.error = none)
    (hreachable : (u.poll cx).Reachable) (hfew : FewCreated u.inner) :
    Awaiting k (u.poll cx) ∧ patience k (u.poll cx).inner +
      (decide (u.inner.rtoTimeout + cx.timerLag ≤ u.clock ∧ u.inner.remoteAcked ≠ u.inner.seq)).toNat ≤
        patience k u.inner := by
  let idle : UdxStreamInner := { u.inner with driveWaker := none }
  have hbooked := h.booked hfew
  have hcheck := checked_ok_of_open h.recv hopen herror
  have hnil : (idle.pollIncoming cx).1 = idle := pollIncoming_nil (s := idle) h.silent cx
  have hsame : (idle.pollIncoming cx).1.outgoing = u.inner.outgoing := by rw [hnil]
  obtain ⟨-, events, hpoll, -⟩ := poll_checked h.toOnline hopen hcheck
  have houtgoing : (u.poll cx).inner.outgoing = ((u.checked cx).1.flushWaitingPackets cx.now).outgoing := by rw [hpoll]
  -- queueing packets again changes neither their keys nor how often they were parked
  have hflush (j : UInt32) : ((u.poll cx).inner.outgoing.lookup j).map Packet.transmits =
      ((u.checked cx).1.outgoing.lookup j).map Packet.transmits := by
    rw [houtgoing]
    exact flushLoop_transmits cx.now _ (u.checked cx).1 j
  obtain ⟨packet, hlookup⟩ := AList.exists_lookup_of_mem h.present
  have hkept (f : Packet → Packet)
      (hf : ∀ j, (u.checked cx).1.outgoing.lookup j = (u.inner.outgoing.lookup j).map f) :
      Awaiting k (u.poll cx) ∧ ∃ packet', (u.poll cx).inner.outgoing.lookup k = some packet' ∧
        packet'.transmits = (f packet).transmits := by
    have hkeys (j : UInt32) : j ∈ (u.poll cx).inner.outgoing ↔ j ∈ u.inner.outgoing := by
      have hsome := congrArg Option.isSome (hflush j)
      rw [hf, Option.isSome_map, Option.isSome_map, Option.isSome_map] at hsome
      rw [← AList.lookup_isSome, ← AList.lookup_isSome, hsome]
    have hacked : (u.poll cx).inner.remoteAcked = u.inner.remoteAcked := by
      rw [hpoll]
      refine (flushLoop_frame remoteAcked (fun _ _ _ _ => rfl) _ _).trans ?_
      refine (pollCheckTimeouts_frame remoteAcked (fun _ _ => rfl) (fun _ _ _ _ => rfl) _ cx).trans ?_
      rw [show UdxStreamInner.pollIncoming { u.inner with driveWaker := none } cx = (idle, _) from Prod.ext hnil rfl]
    refine ⟨⟨h.toOnline.poll hopen hcheck, hreachable, ?_, (hkeys k).mpr h.present, ?_, ?_⟩, ?_⟩
    · rw [UdxStream.poll_recvRx _ hopen, h.silent]
      exact List.drop_nil
    · exact fun j hj => h.first j ((hkeys j).mp hj)
    · rw [hacked]
      exact h.acked
    · have hsame := hflush k
      rw [hf, hlookup] at hsame
      obtain ⟨packet', hlookup', htransmits⟩ := Option.map_eq_some_iff.mp hsame
      exact ⟨packet', hlookup', htransmits⟩
  have hbefore : patience k u.inner = packet.patience := by
    rw [patience, hlookup]
    rfl
  have hafter {packet' : Packet} (h : (u.poll cx).inner.outgoing.lookup k = some packet') :
      patience k (u.poll cx).inner = packet'.patience := by
    rw [patience, h]
    rfl
  have hunexpired : UdxStreamInner.Unexpired idle cx ↔
      ¬(u.inner.rtoTimeout + cx.timerLag ≤ u.clock ∧ u.inner.remoteAcked ≠ u.inner.seq) := by
    unfold UdxStreamInner.Unexpired
    rw [hnil, hnow, not_and_or, Nat.not_le, Ne, not_not]
  by_cases hdue : u.inner.rtoTimeout + cx.timerLag ≤ u.clock ∧ u.inner.remoteAcked ≠ u.inner.seq
  · -- the packet is parked, and queued again before all others
    have hfired : ¬UdxStreamInner.Unexpired idle cx := fun hquiet => hunexpired.mp hquiet hdue
    have hparks (j : UInt32) : (u.checked cx).1.outgoing.lookup j = (u.inner.outgoing.lookup j).map Packet.parked := by
      rw [checked_parks hbooked hfired hcheck, hsame]
    obtain ⟨hawaiting, packet', hlookup', htransmits⟩ := hkept Packet.parked hparks
    have hway : packet'.waiting = false :=
      (resending_of_fired h.reachable hbooked h.toOnline hopen hcheck hnow hfired).first k packet' hlookup'
        hawaiting.first
    have hlimit : packet.waiting = false → packet.transmits ≤ udxMaxTransmits := by
      rw [← hsame] at hlookup
      exact checked_limit hbooked hfired hcheck hlookup
    refine ⟨hawaiting, ?_⟩
    rw [decide_eq_true hdue, hafter hlookup', hbefore, ← Packet.patience_parked hlimit, Packet.patience, hway,
      htransmits]
    exact Nat.le_refl _
  · have hchecked : u.checked cx = (idle, .ok ()) :=
      (pollCheckTimeouts_unexpired (hunexpired.mpr hdue)).trans (congrArg (·, Except.ok ()) hnil)
    obtain ⟨hawaiting, packet', hlookup', htransmits⟩ := hkept id fun j => by
      rw [hchecked, Option.map_id]
      rfl
    have hway (hway : packet.waiting = false) : packet'.waiting = false := by
      have hnone : idle.waitingLen k = none := by
        rw [waitingLen_of_lookup (s := idle) hlookup, hway]
        rfl
      have hstill : (idle.flushWaitingPackets cx.now).waitingLen k = none := flushLoop_waitingLen _ hnone
      rw [hchecked] at houtgoing
      rw [waitingLen, ← houtgoing, hlookup', Option.bind_some] at hstill
      cases hwaiting : packet'.waiting with
      | false => rfl
      | true =>
          rw [hwaiting] at hstill
          cases hstill
    refine ⟨hawaiting, ?_⟩
    rw [decide_eq_false hdue, hafter hlookup', hbefore, Packet.patience, Packet.patience, htransmits]
    cases hwaiting : packet.waiting with
    | true =>
        have hle : (if packet'.waiting then 1 else 0) ≤ 1 := by split <;> decide
        exact Nat.add_le_add_left hle _
    | false =>
        rw [hway hwaiting]
        exact Nat.le_refl _

/-- A stream within the bounds of a run in which it stays open. -/
def StaysOpen (u : UdxStream) : Prop := u.inner.error = none ∧ FewCreated u.inner

theorem staysOpen_back (u : UdxStream) (e : Event) (h : StaysOpen (u.step e)) : StaysOpen u := by
  refine ⟨?_, Nat.lt_of_le_of_lt (Advance.created_prefix (u.step_advance_any e)).length_le h.2⟩
  by_contra hsome
  have hstays := step_terminated e (Option.isSome_iff_ne_none.mpr hsome)
  rw [h.1] at hstays
  cases hstays

theorem Awaiting.step {k : UInt32} {u : UdxStream} (h : Awaiting k u) {e : Event} (he : noAnswer e = true)
    (hopen : StaysOpen (u.step e)) :
    Awaiting k (u.step e) ∧ patience k (u.step e).inner + (timesOut u e).toNat ≤ patience k u.inner := by
  have hbefore := staysOpen_back u e hopen
  cases e with
  | recv header buf source => cases he
  | call c =>
      have hcall (hpoll : ∀ waker timerLag budget maxGsoSegments, c ≠ .poll waker timerLag budget maxGsoSegments)
          (hgone : ∀ recvClosed sendClosed, c ≠ .socketGone recvClosed sendClosed) :
          Awaiting k (u.call c) ∧ patience k (u.call c).inner + 0 ≤ patience k u.inner :=
        (h.call hpoll hgone hopen.2).imp_right fun hsame => hsame.le
      cases c with
      | poll waker timerLag budget maxGsoSegments =>
          have hdrained : u.inner.closedAndDrained = false := by
            rw [closedAndDrained, hbefore.1]
            rfl
          have hreachable := h.reachable.step (.call (.poll waker timerLag budget maxGsoSegments))
          rw [UdxStream.step, UdxStream.call_poll h.running] at hreachable hopen ⊢
          have hpoll := h.poll rfl hdrained hopen.1 hreachable hbefore.2
          rwa [timesOut, decide_eq_decide.mpr (and_iff_right h.running)]
      | socketGone recvClosed sendClosed => cases he
      | _ => exact hcall (fun _ _ _ _ => Call.noConfusion) fun _ _ => Call.noConfusion

/-- **A silent peer is noticed.** A stream whose driver runs and whose socket is there has data outstanding, none of
which `remote_acked` has passed, its channel is empty, and from now on nothing arrives. Whatever its users do, and
whenever its driver is polled, it does not stay open for more than seven timeouts, as long as it creates fewer than
`2 ^ 32` data packets. -/
theorem silent_peer_noticed {u : UdxStream} (hu : u.Reachable) (honline : Online u)
    (hsilent : u.inner.recvRx.queue = []) (hdata : u.inner.outgoing.entries ≠ [])
    (hunacked : ∀ k ∈ u.inner.outgoing, u.inner.remoteAcked ≤ k) {events : List Event}
    (hevents : ∀ e ∈ events, noAnswer e = true) (hfew : FewCreated (u.run events).inner)
    (hmany : udxMaxTransmits + 2 < (Runs.observations UdxStream.step timesOut u events).count true) :
    (u.run events).inner.error.isSome = true := by
  by_contra hopen
  obtain ⟨k, hk, hfirst⟩ : ∃ k ∈ u.inner.outgoing, ∀ j ∈ u.inner.outgoing, k ≤ j := by
    obtain ⟨⟨i, packet⟩, hmem⟩ := List.exists_mem_of_ne_nil _ hdata
    have hi : i ∈ u.inner.outgoing := AList.mem_of_lookup (AList.mem_lookup_iff.mpr hmem)
    obtain ⟨k, hk, hmin⟩ := (measure UInt32.toNat).wf.has_min {k | k ∈ u.inner.outgoing} ⟨i, hi⟩
    exact ⟨k, hk, fun j hj => UInt32.le_iff_toNat_le.mpr (Nat.not_lt.mp (hmin j hj))⟩
  have hawaiting : Awaiting k u := ⟨honline, hu, hsilent, hk, hfirst, hunacked k hk⟩
  have hcount := Runs.count_observations_le (Awaiting k) StaysOpen (fun u => patience k u.inner) staysOpen_back
    (fun u e h he hopen => h.step he hopen) hawaiting hevents ⟨Option.not_isSome_iff_eq_none.mp hopen, hfew⟩
  obtain ⟨packet, hlookup⟩ := AList.exists_lookup_of_mem hk
  have hle : patience k u.inner ≤ udxMaxTransmits + 2 := by
    rw [patience, hlookup]
    change udxMaxTransmits + 1 - packet.transmits + (if packet.waiting then 1 else 0) ≤ udxMaxTransmits + 2
    split <;> omega
  omega

/-- A packet that was sent, and eight timeouts. -/
theorem silent_peer_noticed_expiries :
    let u := (UdxStream.connect 0 ⟨.v4 0, 2⟩ 2 1).run (expiriesRun 0)
    (u.run (expiriesRun 8)).inner.error.isSome = true :=
  silent_peer_noticed ⟨0, ⟨.v4 0, 2⟩, 2, 1, expiriesRun 0, rfl⟩ ⟨by decide, by decide, by decide⟩ (by decide)
    (by decide) (fun k _ => UInt32.le_iff_toNat_le.mpr (Nat.zero_le k.toNat)) (by decide) (by decide) (by decide)

end AsyncUdx
