import AsyncUdx.StreamPoll

/-! The life of a data packet in `outgoing`. It is queued when it is created; when the timer fires it is parked,
and queued again as soon as the window has room. `transmits` counts how often it was parked, so it is one less
than the number of times the packet was queued, and the two only agree while the packet waits.

Two rules of the protocol read `transmits` as the number of transmissions: the round trip time is measured on a
packet that was sent once, and a packet is sent a limited number of times. Each is stated here for what the
packet has gone through, with the packets and the runs for which the code keeps it. -/

namespace AsyncUdx

open Relation UdxStreamInner

variable {ok : IncomingPacket → Prop} {now : Nat}

/-- A property of every packet in `outgoing`. -/
def AllOutgoing (P : Packet → Prop) (s : UdxStreamInner) : Prop :=
  ∀ i packet, s.outgoing.lookup i = some packet → P packet

/-- A property of a fresh packet that stays with it when it is parked, queued again and stamped as sent. -/
structure PacketInvariant (P : Packet → Prop) : Prop where
  fresh : ∀ (s : UdxStreamInner) (now : Nat) (body : List UInt8), body ≠ [] → body.length ≤ udxMaxDataSize →
    P { s.createPacket udxHeaderData body with queuedAt := [now] }
  park : ∀ packet, packet.waiting = false → P packet →
    P { packet with transmits := packet.transmits + 1, waiting := true }
  requeue : ∀ (now : Nat) packet, packet.waiting = true → P packet →
    P { packet with waiting := false, queuedAt := now :: packet.queuedAt }
  sent : ∀ (sent : Nat) packet, P packet → P { packet with timeSent := some sent }

theorem allOutgoing_insert {P : Packet → Prop} {s t : UdxStreamInner} {i : UInt32} {packet : Packet}
    (hs : AllOutgoing P s) (ht : t.outgoing = s.outgoing.insert i packet) (hpacket : P packet) :
    AllOutgoing P t := by
  intro k other hlookup
  rw [ht] at hlookup
  rcases AList.lookup_insert_eq_some hlookup with ⟨-, rfl⟩ | ⟨-, hlookup⟩
  · exact hpacket
  · exact hs k other hlookup

theorem ackPacket_allOutgoing {P : Packet → Prop} {s : UdxStreamInner} (i : UInt32) (hs : AllOutgoing P s) :
    AllOutgoing P (s.ackPacket now i) := by
  intro k packet hlookup
  rw [ackPacket_lookup] at hlookup
  split_ifs at hlookup
  exact hs k packet hlookup

theorem PacketInvariant.move {P : Packet → Prop} (hP : PacketInvariant P) {s t : UdxStreamInner}
    (h : Move ok now s t) (hs : AllOutgoing P s) : AllOutgoing P t := by
  cases h with
  | micro h =>
      cases h with
      | ackNext packet hok hlt => exact ackPacket_allOutgoing _ hs
      | sack packet i hok htype => exact ackPacket_allOutgoing i hs
      | park i packet hlookup hwaiting hmax hdue =>
          exact allOutgoing_insert hs rfl (hP.park packet hwaiting (hs i packet hlookup))
      | requeue i packet hlookup hwaiting hroom =>
          exact allOutgoing_insert hs rfl (hP.requeue now packet hwaiting (hs i packet hlookup))
      | mark i packet sent hlookup => exact allOutgoing_insert hs rfl (hP.sent sent packet (hs i packet hlookup))
      | _ => exact hs
  | send body herror hbody hlen hroom => exact allOutgoing_insert hs rfl (hP.fresh s now body hbody hlen)
  | _ => exact hs

/-- **Packets keep what their life keeps.** -/
theorem PacketInvariant.invariant {P : Packet → Prop} (hP : PacketInvariant P) :
    MoveInvariant UdxStream.anyPacket (AllOutgoing P) (fun _ => True) where
  connect := fun _ _ _ _ _ _ h => by cases h
  back := fun _ _ _ _ _ => trivial
  move := fun _ _ _ h hs _ => hP.move h hs
  channel := fun _ _ => id
  channel_back := fun _ _ _ => trivial

/-- A packet was queued once more than it was parked, unless it waits. -/
def Counted (packet : Packet) : Prop :=
  packet.queuedAt.length = packet.transmits + if packet.waiting then 0 else 1

theorem counted_invariant : PacketInvariant Counted where
  fresh := fun _ _ _ _ _ => rfl
  park := fun packet hwaiting h => by simpa [Counted, hwaiting] using h
  requeue := fun _ packet hwaiting h => by simpa [Counted, hwaiting] using h
  sent := fun _ _ h => h

/-! ### The round trip time -/

/-- Acknowledging a packet recalculates the timings from the time at which it was sent, in any state. -/
def UpdatesTimings (now : Nat) (packet : Packet) : Prop :=
  ∃ sent, packet.timeSent = some sent ∧ ∀ s : UdxStreamInner,
    let t := s.handleRemoteAckForPacket now packet
    (t.srtt, t.rttvar, t.rto) = timings s.srtt s.rttvar s.rto (some (now - sent))

/-- A packet updates the timings exactly when it gives a sample. -/
theorem updatesTimings_iff (now : Nat) (packet : Packet) :
    UpdatesTimings now packet ↔ packet.timeSent.isSome = true ∧ packet.transmits = 1 := by
  constructor
  · rintro ⟨sent, hsent, hall⟩
    refine ⟨by rw [hsent]; rfl, ?_⟩
    by_contra hne
    -- a state in which a sample would change `rttvar`
    have h := hall { UdxStreamInner.connect 0 ⟨.v4 0, 0⟩ 0 0 with rttvar := now - sent + 1 }
    have hnone : rttSample now packet = none := if_neg hne
    have hrttvar := congrArg (fun timings => timings.2.1) h
    simp only [handleRemoteAckForPacket, recalculate, hnone, timings, estimate, UdxStreamInner.connect,
      if_true] at hrttvar
    omega
  · rintro ⟨hsome, htransmits⟩
    obtain ⟨sent, hsent⟩ := Option.isSome_iff_exists.mp hsome
    have hsample : rttSample now packet = some (now - sent) := by
      rw [rttSample, if_pos htransmits, hsent, Option.map_some]
    refine ⟨sent, hsent, fun s => ?_⟩
    rw [← hsample]
    rfl

/-- **When the round trip time is measured on packets sent once.** For a packet that is acknowledged in any state
of a run, or in the middle of a call: the timings are updated from it if and only if it was stamped as sent and
has been queued exactly once, precisely when it was not stamped, or waits for retransmission, or has been parked
at least twice. -/
theorem sampled_once_iff {u : UdxStream} (hu : u.Reachable) {s : UdxStreamInner}
    (hs : Moves UdxStream.anyPacket u.clock u.inner s) {i : UInt32} {packet : Packet}
    (hlookup : s.outgoing.lookup i = some packet) (now : Nat) :
    (UpdatesTimings now packet ↔ packet.timeSent.isSome = true ∧ packet.queuedAt.length = 1) ↔
      packet.timeSent = none ∨ packet.waiting = true ∨ 2 ≤ packet.transmits := by
  have hall : AllOutgoing Counted s := chain_invariant (AllOutgoing Counted)
    (fun _ _ h hs => counted_invariant.move h hs) hs
    (counted_invariant.invariant.of_reachable hu)
  have hcounted : Counted packet := hall i packet hlookup
  unfold Counted at hcounted
  rw [updatesTimings_iff]
  cases hsent : packet.timeSent with
  | none => simp
  | some sent =>
      cases hwaiting : packet.waiting with
      | true =>
          simp only [hwaiting, if_true, Nat.add_zero] at hcounted
          simp [hcounted]
      | false =>
          simp only [hwaiting, Bool.false_eq_true, if_false] at hcounted
          simp only [Option.isSome_some, true_and, hcounted, reduceCtorEq, Bool.false_eq_true, false_or]
          omega

/-- A packet that was stamped once and parked twice since. -/
def parkedTwiceRun : List Event :=
  [.call (.write 0 [1]), .call (.poll 0 0 10 1), .call (.markSent 0 0), .call (.tick (millis 1000)),
    .call (.poll 0 0 10 1), .call (.tick (millis 2000)), .call (.poll 0 0 10 1)]

theorem sampled_once_parkedTwice :
    let u := (UdxStream.connect 0 ⟨.v4 0, 2⟩ 2 1).run parkedTwiceRun
    ∃ packet, u.inner.outgoing.lookup 0 = some packet ∧ packet.timeSent = some 0 ∧ packet.transmits = 2 ∧
      (UpdatesTimings u.clock packet ↔ packet.timeSent.isSome = true ∧ packet.queuedAt.length = 1) := by
  intro u
  have hlookup : u.inner.outgoing.lookup 0 = some ((u.inner.outgoing.lookup 0).get (by decide)) :=
    (Option.some_get _).symm
  exact ⟨_, hlookup, by decide, by decide,
    (sampled_once_iff ⟨0, ⟨.v4 0, 2⟩, 2, 1, parkedTwiceRun, rfl⟩ .refl hlookup _).mpr (Or.inr (Or.inr (by decide)))⟩

/-- A packet that was sent once, and the same packet lost, queued and sent again. -/
def sentOnceRun : List Event := [.call (.write 0 [1]), .call (.poll 0 0 10 1), .call (.markSent 0 0)]

def sentTwiceRun : List Event :=
  sentOnceRun ++ [.call (.tick (millis 1000)), .call (.poll 0 0 10 1), .call (.markSent 0 (millis 1000))]

/-- The packet that was queued once gives no sample, and once it has been queued twice it does. -/
theorem sentOnceRun_sampled_wrongly :
    (∃ packet, ((UdxStream.connect 0 ⟨.v4 0, 2⟩ 2 1).run sentOnceRun).inner.outgoing.lookup 0 = some packet ∧
      packet.timeSent = some 0 ∧ packet.queuedAt = [0] ∧ ∀ now, ¬UpdatesTimings now packet) ∧
    ∃ packet, ((UdxStream.connect 0 ⟨.v4 0, 2⟩ 2 1).run sentTwiceRun).inner.outgoing.lookup 0 = some packet ∧
      packet.timeSent = some (millis 1000) ∧ packet.queuedAt = [millis 1000, 0] ∧
      ∀ now, UpdatesTimings now packet := by
  simp only [updatesTimings_iff]
  exact ⟨⟨_, (Option.some_get (by decide)).symm, by decide, by decide, fun _ => by decide⟩,
    ⟨_, (Option.some_get (by decide)).symm, by decide, by decide, fun _ => by decide⟩⟩

/-! ### The number of transmissions -/

/-- A packet was queued no more often than allowed, and less often if it is to be queued again. -/
def WithinAttempts (packet : Packet) : Prop :=
  packet.queuedAt.length ≤ udxMaxTransmits ∧ (packet.waiting = true → packet.queuedAt.length < udxMaxTransmits)

/-- When a poll comes to check the timer and it has fired, no packet it is about to declare lost has used up
its attempts. -/
def ExpiryWithinAttempts (u : UdxStream) : Event → Prop
  | .call (.poll waker timerLag budget maxGsoSegments) =>
      let cx : Context := ⟨waker, u.clock, timerLag, budget, maxGsoSegments⟩
      let s := ({ u.inner with driveWaker := none }.pollIncoming cx).1
      u.driver = .running → u.inner.closedAndDrained = false →
      ({ u.inner with driveWaker := none }.pollIncoming cx).2 = .ok () → s.rtoTimeout + timerLag ≤ u.clock →
      ∀ i ∈ Counter.range s.remoteAcked s.seq, ∀ packet ∈ s.outgoing.lookup i,
        packet.waiting = false → packet.queuedAt.length < udxMaxTransmits
  | _ => True

theorem withinAttempts_iff {packet : Packet} (h : Counted packet) :
    WithinAttempts packet ↔ packet.transmits < udxMaxTransmits := by
  unfold Counted at h
  unfold WithinAttempts
  cases hwaiting : packet.waiting with
  | true =>
      simp only [hwaiting, if_true] at h
      simp only [forall_const]
      omega
  | false =>
      simp only [hwaiting, Bool.false_eq_true, if_false] at h
      simp only [Bool.false_eq_true, false_imp_iff, and_true]
      omega

/-- A call that does not drive the stream parks no packet. -/
theorem fewTransmits_callInvariant (limit now : Nat) (hlimit : 0 < limit) :
    CallInvariant now (AllOutgoing fun packet => packet.transmits < limit) where
  push := fun _ _ _ _ _ _ hs => allOutgoing_insert hs rfl hlimit
  blocked := fun _ _ _ _ _ _ hs => hs
  readPart := fun _ _ _ hs => hs
  readWhole := fun _ _ hs => hs
  readWaker := fun _ _ hs => hs
  terminate := fun _ _ hs => hs
  slot := fun _ _ _ hs => hs
  complete := fun _ hs => hs
  mark := fun _ i packet _ hlookup hs => allOutgoing_insert hs rfl (hs i packet hlookup)
  gone := fun _ _ _ hs => hs

theorem allOutgoing_of_outgoing {P : Packet → Prop} {s t : UdxStreamInner} (h : t.outgoing = s.outgoing) :
    AllOutgoing P t ↔ AllOutgoing P s := by
  unfold AllOutgoing
  rw [h]

theorem pollIncoming_allOutgoing {P : Packet → Prop} {s : UdxStreamInner} (hfirewall : s.onFirewall = none)
    (cx : Context) (hs : AllOutgoing P s) : AllOutgoing P (s.pollIncoming cx).1 := by
  intro k packet hlookup
  rw [pollIncoming_lookup hfirewall] at hlookup
  split_ifs at hlookup
  exact hs k packet hlookup

theorem flushWaitingPackets_fewTransmits (limit : Nat) (s : UdxStreamInner) :
    AllOutgoing (fun packet => packet.transmits < limit) (s.flushWaitingPackets now) ↔
      AllOutgoing (fun packet => packet.transmits < limit) s := by
  have hsame := flushLoop_transmits now (Counter.range s.remoteAcked s.seq) s
  have hiff : ∀ t : UdxStreamInner, AllOutgoing (fun packet => packet.transmits < limit) t ↔
      ∀ k, ∀ n ∈ (t.outgoing.lookup k).map Packet.transmits, n < limit := by
    intro t
    simp [AllOutgoing]
  rw [hiff, hiff]
  unfold flushWaitingPackets
  simp only [hsame]

/-- The timer check keeps the packets below a limit exactly if it parks none that has reached it. -/
theorem pollCheckTimeouts_fewTransmits (cx : Context) (s : UdxStreamInner)
    (hs : AllOutgoing (fun packet => packet.transmits < udxMaxTransmits) s) :
    (s.pollCheckTimeouts cx).2 = .ok () ∧
    (AllOutgoing (fun packet => packet.transmits < udxMaxTransmits) (s.pollCheckTimeouts cx).1 ↔
      (s.rtoTimeout + cx.timerLag ≤ cx.now → ∀ i ∈ Counter.range s.remoteAcked s.seq,
        ∀ packet ∈ s.outgoing.lookup i, packet.waiting = false → packet.transmits + 1 < udxMaxTransmits)) := by
  unfold pollCheckTimeouts
  split_ifs with hearly hdone
  · exact ⟨rfl, ⟨fun _ h => by omega, fun _ => hs⟩⟩
  · refine ⟨rfl, ⟨fun _ _ i hi => ?_, fun _ => hs⟩⟩
    obtain ⟨hle, hlt⟩ := Counter.mem_range.mp hi
    rw [hdone] at hle
    exact absurd hlt (UInt32.not_lt.mpr hle)
  · obtain ⟨hok, hlookup⟩ := timeoutLoop_lookup cx.now (Counter.range s.remoteAcked s.seq)
      (s.backOff cx.now) fun i packet h _ => Nat.le_of_lt (hs i packet h)
    refine ⟨hok, ⟨fun h _ i hi packet hpacket hidle => ?_, fun h k packet hpacket => ?_⟩⟩
    · -- a packet in the range that does not wait is parked
      have hafter := hlookup i
      rw [if_pos hi, show (s.backOff cx.now).outgoing.lookup i = some packet from hpacket, Option.map_some] at hafter
      have := h i packet.parked hafter
      simpa [Packet.parked, hidle] using this
    · have hpacket := (hlookup k).symm.trans hpacket
      split_ifs at hpacket with hk
      · obtain ⟨before, hbefore, rfl⟩ := Option.map_eq_some_iff.mp hpacket
        unfold Packet.parked
        split_ifs with hwaiting
        · exact hs k before hbefore
        · exact h (by omega) k hk before hbefore (by simpa using hwaiting)
      · exact hs k packet hpacket

/-- A poll that drives the stream keeps the packets within their attempts exactly if its timer check does. -/
theorem pollDrive_fewTransmits_iff {s : UdxStreamInner} (hfirewall : s.onFirewall = none) (cx : Context)
    (hs : AllOutgoing (fun packet => packet.transmits < udxMaxTransmits) s) :
    AllOutgoing (fun packet => packet.transmits < udxMaxTransmits) (s.pollDrive cx).1 ↔
      ((s.pollIncoming cx).2 = .ok () → (s.pollIncoming cx).1.rtoTimeout + cx.timerLag ≤ cx.now →
        ∀ i ∈ Counter.range (s.pollIncoming cx).1.remoteAcked (s.pollIncoming cx).1.seq,
          ∀ packet ∈ (s.pollIncoming cx).1.outgoing.lookup i,
            packet.waiting = false → packet.transmits + 1 < udxMaxTransmits) := by
  have hin := pollIncoming_allOutgoing hfirewall cx hs
  unfold pollDrive
  split
  · rename_i s1 fault h1
    rw [h1] at hin ⊢
    exact ⟨fun _ h => (by cases h), fun _ => hin⟩
  · rename_i s1 h1
    rw [h1] at hin ⊢
    obtain ⟨hok, hiff⟩ := pollCheckTimeouts_fewTransmits cx s1 hin
    have hsent : ∀ t : UdxStreamInner, AllOutgoing (fun packet => packet.transmits < udxMaxTransmits)
        (t.pollTransmit cx).1 ↔ AllOutgoing (fun packet => packet.transmits < udxMaxTransmits) t := fun t =>
      allOutgoing_of_outgoing (pollTransmit_frame outgoing (fun _ _ _ => rfl) t cx)
    simp only [forall_const, ← hiff]
    split
    · rename_i s2 fault h2
      rw [h2] at hok
      cases hok
    · rename_i s2 h2
      have hlast := (hsent (s2.flushWaitingPackets cx.now)).trans (flushWaitingPackets_fewTransmits _ s2)
      rw [h2]
      dsimp only
      split <;> rename_i s3 h3 <;> rwa [h3] at hlast

theorem step_withinAttempts_iff (u : UdxStream) (e : Event) (hfirewall : u.inner.onFirewall = none)
    (hcounted : AllOutgoing Counted u.inner) (hnext : AllOutgoing Counted (u.step e).inner)
    (hu : AllOutgoing WithinAttempts u.inner) :
    AllOutgoing WithinAttempts (u.step e).inner ↔ ExpiryWithinAttempts u e := by
  have hiff : ∀ {s : UdxStreamInner}, AllOutgoing Counted s →
      (AllOutgoing WithinAttempts s ↔ AllOutgoing (fun packet => packet.transmits < udxMaxTransmits) s) :=
    fun hs => forall₃_congr fun i packet h => withinAttempts_iff (hs i packet h)
  rw [hiff hcounted] at hu
  rw [hiff hnext]
  cases e with
  | recv header buf source => exact ⟨fun _ => trivial, fun _ => hu⟩
  | call c =>
      by_cases hdrives : u.drives c
      · cases c with
        | poll waker timerLag budget maxGsoSegments =>
            obtain ⟨hrunning, hopen⟩ := hdrives
            have hin := pollIncoming_allOutgoing (s := { u.inner with driveWaker := none }) hfirewall
              ⟨waker, u.clock, timerLag, budget, maxGsoSegments⟩ hcounted
            change AllOutgoing _ (u.call _).inner ↔ (_ → _ → _ → _ → _)
            rw [UdxStream.call_poll hrunning, allOutgoing_of_outgoing
              (UdxStream.poll_frame outgoing (fun _ _ => rfl) (fun _ _ _ => rfl) u _), allOutgoing_of_outgoing
              (pollDriver_frame outgoing (fun _ _ => rfl) (fun _ _ _ => rfl) u.inner _ hopen),
              pollDrive_fewTransmits_iff (s := { u.inner with driveWaker := none }) hfirewall _ hu]
            simp only [hrunning, hopen, forall_const]
            -- a packet that does not wait has been queued once more than it was parked
            refine forall₅_congr fun _ _ i _ packet => forall₂_congr fun hlookup hidle => ?_
            have h := hin i packet hlookup
            simp only [Counted, hidle, Bool.false_eq_true, if_false] at h
            rw [h]
        | _ => exact hdrives.elim
      · have hguard : ExpiryWithinAttempts u (.call c) := by
          cases c with
          | poll waker timerLag budget maxGsoSegments =>
              exact fun hrunning hopen => absurd ⟨hrunning, hopen⟩ hdrives
          | _ => trivial
        exact ⟨fun _ => hguard, fun _ =>
          u.call_invariant c (fewTransmits_callInvariant _ _ (by decide)) hdrives hu⟩

/-- **The limit on transmissions.** In every state of a run no packet has been queued more than
`UDX_MAX_TRANSMITS` times, and none that was queued so often waits to be queued again, exactly when no timer
check of the run finds the timer fired and a packet outstanding that was queued `UDX_MAX_TRANSMITS` times. -/
theorem withinAttempts_always_iff (start : Nat) (dest : SocketAddr) (remoteId localId : UInt32)
    (events : List Event) :
    Runs.Always UdxStream.step (fun u => AllOutgoing WithinAttempts u.inner)
        (.connect start dest remoteId localId) events ↔
      Runs.Along UdxStream.step ExpiryWithinAttempts (.connect start dest remoteId localId) events := by
  have hkept : ∀ (u : UdxStream) (e : Event), AllOutgoing Counted u.inner ∧ u.inner.onFirewall = none →
      AllOutgoing Counted (u.step e).inner ∧ (u.step e).inner.onFirewall = none := fun u e hi =>
    ⟨counted_invariant.invariant.advance (u.step_advance_any e) hi.1 trivial,
      u.step_onFirewall e hi.2⟩
  exact Runs.always_iff_along
    (fun u : UdxStream => AllOutgoing Counted u.inner ∧ u.inner.onFirewall = none) (fun _ => True)
    (fun _ _ _ => trivial) (fun u e hi _ => hkept u e hi)
    (fun u e hi hu _ => step_withinAttempts_iff u e hi.2 hi.1 (hkept u e hi).1 hu)
    ⟨fun _ _ h => (by cases h), rfl⟩ (fun _ _ h => by cases h) trivial

/-- A packet that is never acknowledged, with `n` expiries of the timer after it. -/
def expiriesRun (n : Nat) : List Event :=
  [.call (.write 0 [1]), .call (.poll 0 0 10 1)] ++
    (List.replicate n [.call (.tick (millis 2000)), .call (.poll 0 0 10 1)]).flatten

/-- After six expiries the packet has been queued seven times and the stream is still open; the seventh ends
it. -/
theorem expiriesRun_exceeds_limit :
    (∃ packet, ((UdxStream.connect 0 ⟨.v4 0, 2⟩ 2 1).run (expiriesRun 6)).inner.outgoing.lookup 0 = some packet ∧
      packet.queuedAt.length = 7) ∧
    ((UdxStream.connect 0 ⟨.v4 0, 2⟩ 2 1).run (expiriesRun 6)).inner.error = none ∧
    ((UdxStream.connect 0 ⟨.v4 0, 2⟩ 2 1).run (expiriesRun 7)).inner.error =
      some ⟨.timedOut, "Max retransmits reached without ack"⟩ :=
  ⟨⟨_, (Option.some_get (by decide)).symm, by decide⟩, by decide, by decide⟩

end AsyncUdx
