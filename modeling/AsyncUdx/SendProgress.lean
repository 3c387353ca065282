import AsyncUdx.PacketLife

/-! The sender does not block itself. The congestion window never shrinks below the size of the largest packet,
so the first packet that waits can be queued again whenever nothing is in flight; and the packets that wait are
among those the loop looks at, also when an acknowledgement beyond `seq` has moved the window past others. -/

namespace AsyncUdx

open Relation UdxStreamInner

variable {ok : IncomingPacket → Prop} {now : Nat}

/-! ### Sizes -/

/-- A data packet has a payload and fits a datagram. -/
def Sized (packet : Packet) : Prop := udxHeaderSize + 1 ≤ packet.len ∧ packet.len ≤ udxMtu

theorem sized_invariant : PacketInvariant Sized where
  fresh := fun s now body hbody hlen => by
    have hpos := List.length_pos_iff.mpr hbody
    have hnew : (s.createPacket udxHeaderData body).len = udxHeaderSize + body.length := Packet.new_len _ _ _
    change udxHeaderSize + 1 ≤ (s.createPacket udxHeaderData body).len ∧
      (s.createPacket udxHeaderData body).len ≤ udxMtu
    rw [hnew]
    unfold udxMaxDataSize at hlen
    unfold udxHeaderSize udxMtu
    omega
  park := fun _ _ h => h
  requeue := fun _ _ _ h => h
  sent := fun _ _ h => h

theorem ackPacket_cwnd (s : UdxStreamInner) (i : UInt32) : (s.ackPacket now i).cwnd = s.cwnd := by
  unfold ackPacket
  split <;> rfl

theorem congestionControl_cwnd_le (s : UdxStreamInner) (header : Header) :
    s.cwnd ≤ (s.congestionControl header).cwnd := by
  simp only [congestionControl]
  split_ifs <;> omega

/-- The window has room for a packet of any size when nothing is in flight. -/
theorem roomy_invariant : MoveInvariant UdxStream.anyPacket (fun s => udxMtu ≤ s.cwnd) (fun _ => True) where
  connect := fun _ _ _ _ => Nat.le_mul_of_pos_left _ (by decide)
  back := fun _ _ _ _ _ => trivial
  move := fun now s t h hs _ => by
    cases h with
    | micro h =>
        cases h with
        | ackNext packet hok hlt =>
            exact hs.trans_eq (ackPacket_cwnd { s with remoteAcked := s.remoteAcked + 1 } _).symm
        | sack packet i hok htype => exact hs.trans_eq (ackPacket_cwnd _ _).symm
        | backOff hdue hout => exact Nat.le_max_left _ _
        | grow packet hok => exact hs.trans (congestionControl_cwnd_le s _)
        | _ => exact hs
    | _ => exact hs
  channel := fun _ _ => id
  channel_back := fun _ _ _ => trivial

/-! ### Packets that wait -/

/-- A packet that waits has not been passed by `remote_acked`. -/
def WaitingUnacked (s : UdxStreamInner) : Prop :=
  ∀ k packet, s.outgoing.lookup k = some packet → packet.waiting = true → s.remoteAcked ≤ k

theorem waitingUnacked_insert {s t : UdxStreamInner} {i : UInt32} {packet : Packet} (hs : WaitingUnacked s)
    (hacked : t.remoteAcked = s.remoteAcked) (ht : t.outgoing = s.outgoing.insert i packet)
    (hpacket : packet.waiting = true → s.remoteAcked ≤ i) : WaitingUnacked t := by
  intro k other hlookup hwaiting
  rw [ht] at hlookup
  rw [hacked]
  rcases AList.lookup_insert_eq_some hlookup with ⟨rfl, rfl⟩ | ⟨-, hlookup⟩
  · exact hpacket hwaiting
  · exact hs k other hlookup hwaiting

theorem waitingUnacked_callInvariant (now : Nat) : CallInvariant now WaitingUnacked where
  push := fun _ _ _ _ _ _ hs => waitingUnacked_insert hs rfl rfl fun h => by cases h
  blocked := fun _ _ _ _ _ _ hs => hs
  readPart := fun _ _ _ hs => hs
  readWhole := fun _ _ hs => hs
  readWaker := fun _ _ hs => hs
  terminate := fun _ _ hs => hs
  slot := fun _ _ _ hs => hs
  complete := fun _ hs => hs
  mark := fun _ i packet _ hlookup hs => waitingUnacked_insert hs rfl rfl (hs i packet hlookup)
  gone := fun _ _ _ hs => hs

/-- What is acknowledged is taken out before `remote_acked` passes it. -/
theorem pollIncoming_waitingUnacked {s : UdxStreamInner} (hfirewall : s.onFirewall = none) (cx : Context)
    (hs : WaitingUnacked s) : WaitingUnacked (s.pollIncoming cx).1 := by
  intro k packet hlookup hwaiting
  rw [pollIncoming_lookup hfirewall] at hlookup
  split_ifs at hlookup with hacked
  have hle := hs k packet hlookup hwaiting
  rw [pollIncoming_remoteAcked]
  rcases Counter.larger_choice s.remoteAcked (appliedAck s cx.budget) with h | h <;> rw [h]
  · exact hle
  · exact UInt32.not_lt.mp fun hlt => hacked (Or.inr ⟨hle, hlt⟩)

theorem timeoutLoop_waitingUnacked (keys : List UInt32) (s : UdxStreamInner)
    (hkeys : ∀ k ∈ keys, s.remoteAcked ≤ k) (hs : WaitingUnacked s) :
    WaitingUnacked (timeoutLoop now keys s).1 := by
  induction keys generalizing s with
  | nil => exact hs
  | cons i rest ih =>
      have hrest : ∀ k ∈ rest, s.remoteAcked ≤ k := fun k hk => hkeys k (List.mem_cons_of_mem _ hk)
      rw [timeoutLoop]
      split
      · exact ih s hrest hs
      · split_ifs
        · exact ih s hrest hs
        · exact hs
        · exact ih _ hrest (waitingUnacked_insert hs rfl rfl fun _ => hkeys i List.mem_cons_self)

theorem pollCheckTimeouts_waitingUnacked (s : UdxStreamInner) (cx : Context) (hs : WaitingUnacked s) :
    WaitingUnacked (s.pollCheckTimeouts cx).1 := by
  unfold pollCheckTimeouts
  split_ifs
  · exact hs
  · exact hs
  · exact timeoutLoop_waitingUnacked _ (s.backOff cx.now) (fun k hk => (Counter.mem_range.mp hk).1) hs

theorem flushLoop_waitingUnacked (keys : List UInt32) (s : UdxStreamInner) (hs : WaitingUnacked s) :
    WaitingUnacked (flushLoop now keys s) := by
  induction keys generalizing s with
  | nil => exact hs
  | cons i rest ih =>
      rw [flushLoop]
      split
      · exact ih s hs
      · split_ifs
        · exact ih s hs
        · exact hs
        · exact ih _ (waitingUnacked_insert hs rfl rfl fun h => by cases h)

theorem pollDrive_waitingUnacked {s : UdxStreamInner} (hfirewall : s.onFirewall = none) (cx : Context)
    (hs : WaitingUnacked s) : WaitingUnacked (s.pollDrive cx).1 := by
  refine pollDrive_stages WaitingUnacked s cx (pollIncoming_waitingUnacked hfirewall cx hs)
    (fun s hs => pollCheckTimeouts_waitingUnacked s cx hs) (fun s hs => flushLoop_waitingUnacked _ s hs) ?_
  intro s hs
  have hframe := pollTransmit_frame (fun s => (s.outgoing, s.remoteAcked)) (fun _ _ _ => rfl) s cx
  have houtgoing : (s.pollTransmit cx).1.outgoing = s.outgoing := congrArg Prod.fst hframe
  have hacked : (s.pollTransmit cx).1.remoteAcked = s.remoteAcked := congrArg Prod.snd hframe
  unfold WaitingUnacked
  rw [houtgoing, hacked]
  exact hs

theorem step_waitingUnacked (u : UdxStream) (e : Event) (hfirewall : u.inner.onFirewall = none)
    (hu : WaitingUnacked u.inner) : WaitingUnacked (u.step e).inner :=
  u.step_invariant e (waitingUnacked_callInvariant _) (fun _ _ _ hs => hs) (fun _ _ hs => hs)
    (fun cx => pollDrive_waitingUnacked (s := { u.inner with driveWaker := none }) hfirewall cx hu) hu

theorem waitingUnacked_reachable {u : UdxStream} (hu : u.Reachable) : WaitingUnacked u.inner :=
  (hu.invariant (fun u => WaitingUnacked u.inner ∧ u.inner.onFirewall = none)
    (fun _ _ _ _ => ⟨fun _ _ h => (by cases h), rfl⟩) fun u e hi => ⟨step_waitingUnacked u e hi.2 hi.1,
      u.step_onFirewall e hi.2⟩).1

/-! ### Queueing again -/

theorem flushLoop_inflight_le (keys : List UInt32) (s : UdxStreamInner) :
    s.inflight ≤ (flushLoop now keys s).inflight := by
  induction keys generalizing s with
  | nil => exact Nat.le_refl _
  | cons i rest ih =>
      rw [flushLoop]
      split
      · exact ih s
      · split_ifs
        · exact ih s
        · exact Nat.le_refl _
        · exact Nat.le_trans (Nat.le_add_right _ _) (ih (s.requeue now i _))

/-- Either something is in flight after the waiting packets were looked at, or none of them waits. -/
theorem flushLoop_progress (now : Nat) (keys : List UInt32) (s : UdxStreamInner) (hroomy : udxMtu ≤ s.cwnd)
    (hsized : AllOutgoing Sized s) : 0 < (flushLoop now keys s).inflight ∨
      flushLoop now keys s = s ∧ ∀ k ∈ keys, ∀ packet ∈ s.outgoing.lookup k, packet.waiting = false := by
  induction keys with
  | nil => exact Or.inr ⟨rfl, fun k hk => absurd hk List.not_mem_nil⟩
  | cons i rest ih =>
      -- a packet that does not wait is passed over
      have hskip (hhead : ∀ packet ∈ s.outgoing.lookup i, packet.waiting = false) :
          0 < (flushLoop now rest s).inflight ∨ flushLoop now rest s = s ∧
            ∀ k ∈ i :: rest, ∀ packet ∈ s.outgoing.lookup k, packet.waiting = false := by
        rcases ih with hpos | ⟨heq, hrest⟩
        · exact Or.inl hpos
        · exact Or.inr ⟨heq, List.forall_mem_cons.mpr ⟨hhead, hrest⟩⟩
      rw [flushLoop]
      split
      · rename_i hnone
        refine hskip fun packet hpacket => ?_
        rw [hnone] at hpacket
        cases hpacket
      · rename_i packet hsome
        obtain ⟨hlow, hhigh⟩ := hsized i packet hsome
        split_ifs with hidle hfull
        · refine hskip fun other hother => ?_
          rw [hsome] at hother
          cases hother
          simpa using hidle
        · -- it does not fit, so the window is in use
          exact Or.inl (by omega)
        · refine Or.inl (Nat.lt_of_lt_of_le ?_ (flushLoop_inflight_le rest _))
          change 0 < s.inflight + packet.len
          omega

theorem pollDrive_not_stuck {s : UdxStreamInner} {cx : Context} {flag : Bool} (hroomy : udxMtu ≤ s.cwnd)
    (hsized : AllOutgoing Sized s) (haccounted : Accounted s.sendSide) (hwaiting : WaitingUnacked s)
    (hfirewall : s.onFirewall = none) (hok : (s.pollDrive cx).2 = .ok flag)
    (hleft : (s.pollDrive cx).1.outgoing.entries ≠ []) : 0 < (s.pollDrive cx).1.inflight := by
  obtain ⟨-, -, -, heq, -⟩ := pollDrive_ok hok
  let checked := ((s.pollIncoming cx).1.pollCheckTimeouts cx).1
  have hframe : (s.pollDrive cx).1.sendSide = (checked.flushWaitingPackets cx.now).sendSide :=
    heq ▸ pollTransmit_frame sendSide (fun _ _ _ => rfl) _ cx
  rw [show (s.pollDrive cx).1.outgoing = _ from congrArg SendSide.outgoing hframe] at hleft
  rw [show (s.pollDrive cx).1.inflight = _ from congrArg SendSide.inflight hframe]
  -- the invariants before the waiting packets are looked at
  have hchain : Chain UdxStream.anyPacket cx.now s checked :=
    (incomingLoop_chain _ _ s (Or.inl rfl) fun _ _ => trivial).trans (pollCheckTimeouts_chain _ cx)
  have hroomy : udxMtu ≤ checked.cwnd := chain_invariant (fun s => udxMtu ≤ s.cwnd)
    (fun _ _ h hs => roomy_invariant.move _ _ _ (.micro h) hs trivial) hchain hroomy
  have hsized : AllOutgoing Sized checked := chain_invariant (AllOutgoing Sized)
    (fun _ _ h hs => sized_invariant.move (.micro h) hs) hchain hsized
  have haccounted : Accounted checked.sendSide := chain_invariant (fun s => Accounted s.sendSide)
    (fun _ _ h => h.accounted) hchain haccounted
  have hwaiting : WaitingUnacked checked :=
    pollCheckTimeouts_waitingUnacked _ cx (pollIncoming_waitingUnacked hfirewall cx hwaiting)
  rcases flushLoop_progress cx.now (Counter.range checked.remoteAcked checked.seq) checked hroomy hsized
    with hpos | ⟨hsame, hidle⟩
  · exact hpos
  -- no packet waits, so the first one counts in flight
  rw [show checked.flushWaitingPackets cx.now = checked from hsame] at hleft ⊢
  obtain ⟨k, packet, hlookup⟩ := AList.exists_lookup_of_entries hleft
  have hnot : packet.waiting = false := by
    cases h : packet.waiting with
    | false => rfl
    | true =>
        have hrange : k ∈ Counter.range checked.remoteAcked checked.seq := Counter.mem_range.mpr
          ⟨hwaiting k packet hlookup h, haccounted.keys_lt k (AList.mem_of_lookup hlookup)⟩
        rw [hidle k hrange packet hlookup] at h
        cases h
  calc 0 < packet.len := Nat.lt_of_lt_of_le (Nat.succ_pos _) (hsized k packet hlookup).1
    _ = flightWeight k packet := by simp [flightWeight, hnot]
    _ ≤ checked.outgoing.total flightWeight := AList.weight_le_total flightWeight hlookup
    _ = checked.inflight := haccounted.inflight_eq.symm

/-- **The sender cannot block itself.** In every state of every run the window has room for a packet of any size
when nothing is in flight, and every packet in `outgoing` has a payload and fits a datagram; and whenever a poll
of the driver succeeds and leaves packets in `outgoing`, some of them are in flight. -/
theorem sender_not_stuck {u : UdxStream} (hu : u.Reachable) (hfew : FewCreated u.inner) :
    udxMtu ≤ u.inner.cwnd ∧
    (∀ k packet, u.inner.outgoing.lookup k = some packet →
      udxHeaderSize + 1 ≤ packet.len ∧ packet.len ≤ udxMtu) ∧
    ∀ (cx : Context) (flag : Bool), ({ u.inner with driveWaker := none }.pollDrive cx).2 = .ok flag →
      ({ u.inner with driveWaker := none }.pollDrive cx).1.outgoing.entries ≠ [] →
      0 < ({ u.inner with driveWaker := none }.pollDrive cx).1.inflight := by
  have hroomy : udxMtu ≤ u.inner.cwnd := roomy_invariant.of_reachable hu
  have hsized : AllOutgoing Sized u.inner := sized_invariant.invariant.of_reachable hu
  have haccounted : Accounted u.inner.sendSide := accounted_invariant.reachable (fun _ _ _ => trivial) hu hfew
  have hfirewall : u.inner.onFirewall = none := hu.onFirewall
  refine ⟨hroomy, hsized, fun cx flag hok hleft => ?_⟩
  exact pollDrive_not_stuck (s := { u.inner with driveWaker := none }) hroomy hsized haccounted
    (waitingUnacked_reachable hu) hfirewall hok hleft

/-- A packet that waits for its acknowledgement until the timer fires. -/
def expiringRun : List Event := [.call (.write 0 [1]), .call (.poll 0 0 10 1), .call (.tick (millis 1000))]

theorem sender_not_stuck_expiring :
    let u := (UdxStream.connect 0 ⟨.v4 0, 2⟩ 2 1).run expiringRun
    let after := ({ u.inner with driveWaker := none }.pollDrive ⟨0, u.clock, 0, 10, 1⟩).1
    FewCreated u.inner ∧ after.cwnd = udxMtu ∧ after.ghost.lost.length = 1 ∧ 0 < after.inflight :=
  ⟨by decide, by decide, by decide, (sender_not_stuck ⟨0, ⟨.v4 0, 2⟩, 2, 1, expiringRun, rfl⟩ (by decide)).2.2
    ⟨0, millis 1000, 0, 10, 1⟩ false (by decide) (by decide)⟩

end AsyncUdx
