import AsyncUdx.StreamPoll

/-! The acknowledgements that a call of `poll_incoming` collects. They are applied after the last packet, as one, and
only if the loop ends because the channel has nothing more to give. When it finds the channel closed it returns the
error at once: the packets are gone from the channel and their acknowledgements are not applied. -/

namespace AsyncUdx

open UdxStreamInner

/-- After the call, `remote_acked` is not below an acknowledgement it has taken, and no packet below one is
outstanding. -/
def AcksApplied (s : UdxStreamInner) (cx : Context) : Prop :=
  ∀ packet ∈ s.consumes cx.budget,
    packet.ack ≤ (s.pollIncoming cx).1.remoteAcked ∧ ∀ k ∈ (s.pollIncoming cx).1.outgoing, packet.ack ≤ k

/-- A packet that the packets taken do not acknowledge selectively. -/
def Unsacked (s : UdxStreamInner) (budget : Nat) (k : UInt32) : Prop :=
  ∀ packet ∈ s.consumes budget, k ∉ packet.sacked

theorem mem_pollIncoming_outgoing {s : UdxStreamInner} (hfirewall : s.onFirewall = none) (cx : Context) (k : UInt32) :
    k ∈ (s.pollIncoming cx).1.outgoing ↔ k ∈ s.outgoing ∧ Unsacked s cx.budget k ∧
      ¬(s.remoteAcked ≤ k ∧ k < appliedAck s cx.budget) := by
  have hacked : Acknowledged s cx.budget k ↔
      ¬(Unsacked s cx.budget k ∧ ¬(s.remoteAcked ≤ k ∧ k < appliedAck s cx.budget)) := by
    rw [not_and_or, not_not]
    simp only [Acknowledged, Unsacked, consumes, not_forall, not_not, exists_prop]
  rw [← AList.lookup_isSome, pollIncoming_lookup hfirewall, ← AList.lookup_isSome]
  split_ifs with h
  · simp only [Option.isSome_none, Bool.false_eq_true, false_iff]
    exact fun hk => hacked.mp h hk.2
  · exact (and_iff_left (not_not.mp (mt hacked.mpr h))).symm

/-- **Acknowledgements that are lost.** The acknowledgements of the packets taken are applied exactly if the call does
not find the channel closed, or none of them is beyond `remote_acked`; and if no outstanding packet below
`remote_acked`, unless it is acknowledged selectively, is below one of them. -/
theorem acksApplied_iff_of_firewall {s : UdxStreamInner} (hfirewall : s.onFirewall = none) (cx : Context) :
    AcksApplied s cx ↔
      (s.findsClosed cx.budget = true → ∀ packet ∈ s.consumes cx.budget, packet.ack ≤ s.remoteAcked) ∧
      ∀ k ∈ s.outgoing, k < s.remoteAcked → Unsacked s cx.budget k →
        ∀ packet ∈ s.consumes cx.budget, packet.ack ≤ k := by
  have hleft : AcksApplied s cx ↔
      ∀ packet ∈ s.consumes cx.budget, packet.ack ≤ Counter.larger s.remoteAcked (appliedAck s cx.budget) ∧
        ∀ k ∈ s.outgoing, Unsacked s cx.budget k → ¬(s.remoteAcked ≤ k ∧ k < appliedAck s cx.budget) →
          packet.ack ≤ k := by
    simp only [AcksApplied, pollIncoming_remoteAcked, mem_pollIncoming_outgoing hfirewall, and_imp]
  rw [hleft, appliedAck_eq]
  constructor
  · intro h
    refine ⟨fun hclosed packet hpacket => ?_, fun k hk hbelow hunsacked packet hpacket => ?_⟩
    · have hle := (h packet hpacket).1
      rwa [if_pos hclosed, Counter.larger_zero] at hle
    · exact (h packet hpacket).2 k hk hunsacked fun hrange => UInt32.not_le.mpr hbelow hrange.1
  · rintro ⟨hclosed, hbelow⟩ packet hpacket
    have hlargest : packet.ack ≤ largestAck 0 (s.consumes cx.budget) := le_largestAck hpacket
    split_ifs with hfinds
    · -- nothing is applied, and nothing had to be
      have hle : packet.ack ≤ s.remoteAcked := hclosed hfinds packet hpacket
      refine ⟨by rwa [Counter.larger_zero], fun k hk hunsacked _ => ?_⟩
      by_cases hlt : k < s.remoteAcked
      · exact hbelow k hk hlt hunsacked packet hpacket
      · exact UInt32.le_trans hle (UInt32.not_lt.mp hlt)
    · refine ⟨UInt32.le_trans hlargest (Counter.le_larger_right _ _), fun k hk hunsacked hrange => ?_⟩
      by_cases hlt : k < s.remoteAcked
      · exact hbelow k hk hlt hunsacked packet hpacket
      · have happlied : ¬k < largestAck 0 (s.consumes cx.budget) := fun hk' => hrange ⟨UInt32.not_lt.mp hlt, hk'⟩
        exact UInt32.le_trans hlargest (UInt32.not_lt.mp happlied)

/-- **Acknowledgements that are lost, in every reachable state.** -/
theorem acks_applied_iff {u : UdxStream} (hu : u.Reachable) (cx : Context) :
    AcksApplied u.inner cx ↔
      (u.inner.findsClosed cx.budget = true →
        ∀ packet ∈ u.inner.consumes cx.budget, packet.ack ≤ u.inner.remoteAcked) ∧
      ∀ k ∈ u.inner.outgoing, k < u.inner.remoteAcked → Unsacked u.inner cx.budget k →
        ∀ packet ∈ u.inner.consumes cx.budget, packet.ack ≤ k :=
  acksApplied_iff_of_firewall hu.onFirewall cx

/-- While the window is right, no outstanding packet is below `remote_acked`: only the closed channel matters. -/
theorem acksApplied_iff_of_inWindow {s : UdxStreamInner} (hfirewall : s.onFirewall = none) (hwindow : InWindow s)
    (cx : Context) :
    AcksApplied s cx ↔
      (s.findsClosed cx.budget = true → ∀ packet ∈ s.consumes cx.budget, packet.ack ≤ s.remoteAcked) := by
  rw [acksApplied_iff_of_firewall hfirewall]
  apply and_iff_left
  intro k hk hbelow
  exact absurd (Counter.mem_range.mp (hwindow.2 k hk)).1 (UInt32.not_le.mpr hbelow)

/-- A packet is sent, its acknowledgement arrives, and the socket goes away before the driver is polled. -/
def ackedThenGoneRun : List Event :=
  [.call (.write 0 [1]), stateArrival 1, .call (.socketGone true true)]

/-- The acknowledgement is taken from the channel, and the packet it acknowledges stays outstanding. -/
theorem ackedThenGone_loses_ack :
    let u := (UdxStream.connect 0 ⟨.v4 0, 2⟩ 2 1).run ackedThenGoneRun
    let polled := u.inner.pollIncoming ⟨0, 0, 0, 10, 1⟩
    u.inner.consumes 10 = [⟨⟨0, 0, 1, 0xffffffff, 0, 1⟩, [], 0, ⟨.v4 0, 2⟩⟩] ∧ u.inner.seq = 1 ∧
    polled.1.recvRx.queue = [] ∧ polled.2 = .error (.io ⟨.brokenPipe, "Socket driver future was dropped"⟩) ∧
    polled.1.remoteAcked = 0 ∧ 0 ∈ polled.1.outgoing ∧ ¬AcksApplied u.inner ⟨0, 0, 0, 10, 1⟩ := by
  refine ⟨by decide, by decide, by decide, by decide, by decide, by decide, fun h => ?_⟩
  have happlied := (h ⟨⟨0, 0, 1, 0xffffffff, 0, 1⟩, [], 0, ⟨.v4 0, 2⟩⟩ (by decide)).1
  exact absurd happlied (by decide)

/-- The same packets on a channel that is open. -/
theorem acks_applied_open :
    let u := (UdxStream.connect 0 ⟨.v4 0, 2⟩ 2 1).run [.call (.write 0 [1]), stateArrival 1]
    u.inner.consumes 10 ≠ [] ∧ AcksApplied u.inner ⟨0, 0, 0, 10, 1⟩ := by
  refine ⟨by decide, (acks_applied_iff ⟨0, ⟨.v4 0, 2⟩, 2, 1, _, rfl⟩ _).mpr ⟨fun h => ?_, fun k hk hbelow => ?_⟩⟩
  · exact absurd h (by decide)
  · exact absurd hbelow UInt32.not_lt_zero

end AsyncUdx
