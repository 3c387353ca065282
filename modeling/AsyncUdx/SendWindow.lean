import AsyncUdx.PollIncoming
import AsyncUdx.SendAccounting

/-! The send window. `poll_check_timeouts` and `flush_waiting_packets` look at the sequence numbers from
`remote_acked` to `seq`; a packet outside of that range is never retransmitted. An acknowledgement beyond
`seq` is noticed when a packet is handled, but applied all the same after the batch, and moves the lower
end of the window past its upper end. The window is right in every state of a run exactly when no poll
applies such an acknowledgement. -/

namespace AsyncUdx

open Relation UdxStreamInner

variable {ok : IncomingPacket → Prop} {now : Nat}

/-- The packets not acknowledged yet are those the retransmission loops look at. -/
def InWindow (s : UdxStreamInner) : Prop :=
  s.remoteAcked ≤ s.seq ∧ ∀ k ∈ s.outgoing, k ∈ Counter.range s.remoteAcked s.seq

/-- A poll that runs applies no acknowledgement beyond `seq`. -/
def AckInBounds (u : UdxStream) : Event → Prop
  | .call (.poll _ _ budget _) =>
      u.driver = .running → u.inner.closedAndDrained = false → appliedAck u.inner budget ≤ u.inner.seq
  | _ => True

/-! ### Where `remote_acked` goes -/

theorem ackLoop_remoteAcked (n : Nat) (s : UdxStreamInner) :
    (ackLoop now n s).remoteAcked = s.remoteAcked + UInt32.ofNat n := by
  induction n generalizing s with
  | zero => exact (UInt32.add_zero _).symm
  | succ n ih =>
      rw [ackLoop, ih, ackNext_remoteAcked, UInt32.add_assoc, UInt32.add_comm 1, UInt32.ofNat_add]
      rfl

theorem handleIncomingMaxRemoteAck_remoteAcked (s : UdxStreamInner) (ack : UInt32) :
    (s.handleIncomingMaxRemoteAck now ack).remoteAcked = Counter.larger s.remoteAcked ack := by
  unfold handleIncomingMaxRemoteAck Counter.larger
  by_cases hle : ack ≤ s.remoteAcked
  · rw [if_pos hle]
    split
    · exact UInt32.le_antisymm ‹_› hle
    · rfl
  · have hlt := UInt32.not_le.mp hle
    have hltNat := UInt32.lt_iff_toNat_lt.mp hlt
    have hack := ack.toNat_lt
    rw [if_neg hle, if_pos (UInt32.le_of_lt hlt)]
    change (ackLoop now (ack.toNat - s.remoteAcked.toNat) s).remoteAcked = ack
    rw [ackLoop_remoteAcked]
    apply UInt32.toNat.inj
    rw [UInt32.toNat_add, Counter.toNat_ofNat (by omega)]
    omega

theorem pollIncoming_remoteAcked (s : UdxStreamInner) (cx : Context) :
    (s.pollIncoming cx).1.remoteAcked = Counter.larger s.remoteAcked (appliedAck s cx.budget) := by
  rw [pollIncoming_state, handleIncomingMaxRemoteAck_remoteAcked,
    handled_frame remoteAcked (fun _ _ => rfl) handleIncoming_remoteAcked]

theorem Micro.remoteAcked_eq {s t : UdxStreamInner} (h : Micro (fun _ => False) now s t) :
    t.remoteAcked = s.remoteAcked := by
  cases h with
  | ackNext packet hok hlt => exact hok.elim
  | sack packet i hok htype => exact hok.elim
  | _ => rfl

/-- Nothing but the acknowledgement applied after the batch moves `remote_acked` in a poll. -/
theorem pollDriver_remoteAcked (s : UdxStreamInner) (cx : Context) (hopen : s.closedAndDrained = false) :
    (s.pollDriver cx).1.remoteAcked = Counter.larger s.remoteAcked (appliedAck s cx.budget) := by
  have hrest : Chain (fun _ => False) cx.now _ _ := pollDrive_rest { s with driveWaker := none } cx
  rw [pollDriver_frame remoteAcked (fun _ _ => rfl) (fun _ _ _ => rfl) s cx hopen,
    chain_value remoteAcked (fun _ _ h => h.remoteAcked_eq) hrest]
  exact pollIncoming_remoteAcked { s with driveWaker := none } cx

/-! ### The keys of `outgoing` -/

/-- The keys of `outgoing` have not been acknowledged. -/
def KeysUnacked (v : SendSide) : Prop := ∀ k ∈ v.outgoing, v.remoteAcked ≤ k

theorem keysUnacked_replace {v : SendSide} (hs : KeysUnacked v) {i : UInt32} {packet : Packet}
    (hlookup : v.outgoing.lookup i = some packet) (packet' : Packet) (inflight : Nat) (underflow : Bool) :
    KeysUnacked { v with outgoing := v.outgoing.insert i packet', inflight := inflight, underflow := underflow } := by
  intro k hk
  rcases (AList.mem_insert v.outgoing).mp hk with rfl | hk
  · exact hs _ (AList.mem_of_lookup hlookup)
  · exact hs k hk

/-- An acknowledgement takes its packet out before `remote_acked` passes it. -/
theorem Micro.keysUnacked {s t : UdxStreamInner} (h : Micro ok now s t) (hs : KeysUnacked s.sendSide) :
    KeysUnacked t.sendSide := by
  cases h with
  | ackNext packet hok hlt =>
      intro k hk
      obtain ⟨hmem, hne⟩ := ackPacket_mem hk
      change (s.ackNext now).remoteAcked ≤ k
      have hle : s.remoteAcked.toNat ≤ k.toNat := UInt32.le_iff_toNat_le.mp (hs k hmem)
      have hne' : k.toNat ≠ s.remoteAcked.toNat := by
        intro heq
        apply hne
        rw [UInt32.toNat.inj heq]
        exact (Counter.succ_sub_one _).symm
      rw [ackNext_remoteAcked, UInt32.le_iff_toNat_le, Counter.toNat_succ_of_lt hlt]
      omega
  | sack packet i hok htype =>
      intro k hk
      change (s.ackPacket now i).remoteAcked ≤ k
      rw [ackPacket_remoteAcked]
      exact hs k (ackPacket_mem hk).1
  | park i packet hlookup hwaiting hmax hdue => exact keysUnacked_replace hs hlookup _ _ _
  | requeue i packet hlookup hwaiting hroom => exact keysUnacked_replace hs hlookup _ _ _
  | mark i packet sent hlookup => exact keysUnacked_replace hs hlookup _ _ _
  | _ => exact hs

/-- A call that handles no packet keeps the window. -/
theorem Move.inWindow {s t : UdxStreamInner} (h : Move (fun _ => False) now s t) (hs : InWindow s)
    (haccounted : Accounted s.sendSide) (ht : FewCreated t) : InWindow t := by
  cases h with
  | micro h =>
      refine ⟨by rw [h.remoteAcked_eq, h.seq_eq]; exact hs.1, fun k hk => Counter.mem_range.mpr ⟨?_, ?_⟩⟩
      · exact h.keysUnacked (fun k hk => (Counter.mem_range.mp (hs.2 k hk)).1) k hk
      · exact (h.accounted haccounted).keys_lt k hk
  | send body herror hbody hlen hroom =>
      have hpushed := pushData_accounted haccounted ht
      have hseq : s.seq < s.seq + 1 := hpushed.keys_lt s.seq ((AList.mem_insert _).mpr (Or.inl rfl))
      refine ⟨UInt32.le_trans hs.1 (UInt32.le_of_lt hseq), fun k hk => Counter.mem_range.mpr ⟨?_, ?_⟩⟩
      · rcases (AList.mem_insert s.outgoing).mp hk with rfl | hk
        · exact hs.1
        · exact (Counter.mem_range.mp (hs.2 k hk)).1
      · exact hpushed.keys_lt k hk
  | _ => exact hs

/-- A poll that drives the stream keeps the window exactly if the acknowledgement it applies is in bounds. -/
theorem pollDriver_inWindow_iff {s : UdxStreamInner} (cx : Context) (hopen : s.closedAndDrained = false)
    (hs : InWindow s) (haccounted : Accounted s.sendSide) :
    InWindow (s.pollDriver cx).1 ↔ appliedAck s cx.budget ≤ s.seq := by
  let drive := ({ s with driveWaker := none }.pollDrive cx).1
  have hchain : Chain UdxStream.anyPacket cx.now { s with driveWaker := none } drive :=
    pollDrive_chain _ cx fun _ _ => trivial
  have hframe : (s.pollDriver cx).1.sendSide = drive.sendSide :=
    pollDriver_frame sendSide (fun _ _ => rfl) (fun _ _ _ => rfl) s cx hopen
  have hdrive := chain_value UdxStreamInner.seq (fun _ _ h => h.seq_eq) hchain
  have hseq : (s.pollDriver cx).1.seq = s.seq := (congrArg SendSide.seq hframe).trans hdrive
  have hacked := pollDriver_remoteAcked s cx hopen
  have hlow : KeysUnacked (s.pollDriver cx).1.sendSide := by
    rw [hframe]
    exact chain_invariant (fun s => KeysUnacked s.sendSide) (fun _ _ h => h.keysUnacked) hchain
      fun k hk => (Counter.mem_range.mp (hs.2 k hk)).1
  have hafter : Accounted (s.pollDriver cx).1.sendSide := by
    rw [hframe]
    exact chain_invariant (fun s => Accounted s.sendSide) (fun _ _ h => h.accounted) hchain haccounted
  constructor
  · intro h
    have hle := h.1
    rw [hacked, hseq] at hle
    exact UInt32.le_trans (Counter.le_larger_right _ _) hle
  · intro hbound
    refine ⟨?_, fun k hk => Counter.mem_range.mpr ⟨?_, ?_⟩⟩
    · rw [hacked, hseq]
      rcases Counter.larger_choice s.remoteAcked (appliedAck s cx.budget) with h | h <;> rw [h]
      exacts [hs.1, hbound]
    · exact hlow k hk
    · exact hafter.keys_lt k hk

theorem inWindow_of_sendSide {s t : UdxStreamInner} (h : t.sendSide = s.sendSide) : InWindow t ↔ InWindow s := by
  have hseq : t.seq = s.seq := congrArg SendSide.seq h
  have hacked : t.remoteAcked = s.remoteAcked := congrArg SendSide.remoteAcked h
  have houtgoing : t.outgoing = s.outgoing := congrArg SendSide.outgoing h
  unfold InWindow
  rw [hseq, hacked, houtgoing]

/-- A step keeps the window exactly if it applies no acknowledgement beyond `seq`. -/
theorem step_inWindow_iff (u : UdxStream) (e : Event) (haccounted : Accounted u.inner.sendSide)
    (hu : InWindow u.inner) (hfew : FewCreated (u.step e).inner) :
    InWindow (u.step e).inner ↔ AckInBounds u e := by
  cases e with
  | recv header buf source => exact ⟨fun _ => trivial, fun _ => hu⟩
  | call c =>
      by_cases hdrives : u.drives c
      · cases c with
        | poll waker timerLag budget maxGsoSegments =>
            obtain ⟨hrunning, hopen⟩ := hdrives
            change InWindow (u.call _).inner ↔ (_ → _ → _)
            rw [UdxStream.call_poll hrunning]
            have hframe := UdxStream.poll_frame sendSide (fun _ _ => rfl) (fun _ _ _ => rfl) u
              ⟨waker, u.clock, timerLag, budget, maxGsoSegments⟩
            rw [inWindow_of_sendSide hframe, pollDriver_inWindow_iff _ hopen hu haccounted]
            exact ⟨fun h _ _ => h, fun h => h hrunning hopen⟩
        | _ => exact hdrives.elim
      · have hguard : AckInBounds u (.call c) := by
          cases c with
          | poll waker timerLag budget maxGsoSegments =>
              exact fun hrunning hopen => absurd ⟨hrunning, hopen⟩ hdrives
          | _ => trivial
        have hmoves : Moves (fun _ => False) u.clock u.inner (u.call c).inner :=
          UdxStream.call_moves u c fun h => absurd h hdrives
        have hkept := chain_invariant_bounded (fun s => InWindow s ∧ Accounted s.sendSide) FewCreated
          (fun _ _ h => h.fewCreated) (fun _ _ h hs ht => ⟨h.inWindow hs.1 hs.2 ht, h.accounted hs.2 ht⟩)
          hmoves ⟨hu, haccounted⟩ hfew
        exact ⟨fun _ => hguard, fun _ => hkept.1⟩

theorem connect_inWindow (start : Nat) (dest : SocketAddr) (remoteId localId : UInt32) :
    InWindow (UdxStreamInner.connect start dest remoteId localId) :=
  ⟨UInt32.le_refl _, fun k hk => absurd hk (AList.notMem_empty k)⟩

/-- **The window is right in every state of a run exactly when no poll of the run applies an acknowledgement
beyond `seq`**, for any calls and any packets of the peer. -/
theorem inWindow_always_iff (start : Nat) (dest : SocketAddr) (remoteId localId : UInt32) (events : List Event)
    (hfew : FewCreated ((UdxStream.connect start dest remoteId localId).run events).inner) :
    Runs.Always UdxStream.step (fun u => InWindow u.inner) (.connect start dest remoteId localId) events ↔
      Runs.Along UdxStream.step AckInBounds (.connect start dest remoteId localId) events := by
  exact Runs.always_iff_along (fun u : UdxStream => Accounted u.inner.sendSide)
    (fun u : UdxStream => FewCreated u.inner)
    (fun u e hb => accounted_invariant.advance_back (u.step_advance_any e) hb)
    (fun u e hi hb => accounted_invariant.advance (u.step_advance_any e) hi hb) step_inWindow_iff
    (connect_accounted _ _ _ _) (connect_inWindow _ _ _ _) hfew

/-- The arrival of a state packet that acknowledges everything below `ack`. -/
def stateArrival (ack : UInt32) : Event := .recv ⟨0, 0, 1, 0xffffffff, 0, ack⟩ [] ⟨.v4 0, 2⟩

/-- A write that is acknowledged. -/
def ackedRun : List Event :=
  [.call (.write 0 [1]), stateArrival 1, .call (.poll 0 0 10 1), .call (.write 0 [2])]

theorem inWindow_always_ackedRun :
    FewCreated ((UdxStream.connect 0 ⟨.v4 0, 2⟩ 2 1).run ackedRun).inner ∧
    Runs.Along UdxStream.step AckInBounds (.connect 0 ⟨.v4 0, 2⟩ 2 1) ackedRun ∧
    Runs.Always UdxStream.step (fun u => InWindow u.inner) (.connect 0 ⟨.v4 0, 2⟩ 2 1) ackedRun := by
  have hfew : FewCreated ((UdxStream.connect 0 ⟨.v4 0, 2⟩ 2 1).run ackedRun).inner := by decide
  have halong : Runs.Along UdxStream.step AckInBounds (.connect 0 ⟨.v4 0, 2⟩ 2 1) ackedRun :=
    ⟨trivial, trivial, fun _ _ => by decide, trivial, trivial⟩
  exact ⟨hfew, halong, (inWindow_always_iff 0 ⟨.v4 0, 2⟩ 2 1 ackedRun hfew).mpr halong⟩

/-- An acknowledgement of five packets before the first one is written. -/
def ackAheadRun : List Event :=
  [stateArrival 5, .call (.poll 0 0 10 1), .call (.write 0 [1])]

/-- The packet written after it is in `outgoing`, outside of the range that is scanned for retransmission. -/
theorem ackAheadRun_leaves_window :
    let u := (UdxStream.connect 0 ⟨.v4 0, 2⟩ 2 1).run ackAheadRun
    FewCreated u.inner ∧ ¬u.inner.remoteAcked ≤ u.inner.seq ∧ 0 ∈ u.inner.outgoing ∧
      0 ∉ Counter.range u.inner.remoteAcked u.inner.seq := by
  decide

end AsyncUdx
