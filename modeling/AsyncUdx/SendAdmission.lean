import AsyncUdx.StreamPoll

/-! The two ways into flight: new data that `send_data_packet` admits, and lost packets that
`flush_waiting_packets` queues again. Both compare with the congestion window and both add the length of the
whole packet to `inflight`. The second one compares that length; the first one compares the length of the
payload, so what it admits may exceed the window by the length of a header. -/

namespace AsyncUdx

open UdxStreamInner

variable {now : Nat}

/-- A call that has queued a packet leaves no more in flight than the window holds. -/
def StaysWithinWindow (before after : UdxStreamInner) : Prop :=
  after.sendQueue ≠ before.sendQueue → after.inflight ≤ after.cwnd

/-- The loop stops before the first packet that does not fit. -/
theorem flushLoop_eq_or_within (now : Nat) (keys : List UInt32) (s : UdxStreamInner) :
    flushLoop now keys s = s ∨ (flushLoop now keys s).inflight ≤ (flushLoop now keys s).cwnd := by
  induction keys generalizing s with
  | nil => exact Or.inl rfl
  | cons i rest ih =>
      rw [flushLoop]
      split
      · exact ih s
      · rename_i packet hlookup
        split_ifs with hidle hfull
        · exact ih s
        · exact Or.inl rfl
        · right
          rcases ih (s.requeue now i packet) with hsame | hwithin
          · rw [hsame]
            exact Nat.le_of_not_lt hfull
          · exact hwithin

theorem flushWaitingPackets_within (s : UdxStreamInner) (now : Nat) :
    StaysWithinWindow s (s.flushWaitingPackets now) := by
  intro hqueued
  rcases flushLoop_eq_or_within now (Counter.range s.remoteAcked s.seq) s with hsame | hwithin
  · exact absurd (congrArg sendQueue hsame) hqueued
  · exact hwithin

/-- What new data would take up in the payload of one packet. -/
def chunkLen (buf : List UInt8) : Nat := min buf.length udxMaxDataSize

/-- The payload fits the window and the packet does not. -/
def HeaderOverflows (s : UdxStreamInner) (buf : List UInt8) : Prop :=
  s.inflight + chunkLen buf ≤ s.cwnd ∧ s.cwnd < s.inflight + (udxHeaderSize + chunkLen buf)

theorem sendDataPacket_within_iff (s : UdxStreamInner) (now : Nat) (buf : List UInt8) :
    StaysWithinWindow s (s.sendDataPacket now buf).1 ↔ ¬HeaderOverflows s buf := by
  unfold StaysWithinWindow HeaderOverflows
  by_cases hroom : s.inflight + chunkLen buf ≤ s.cwnd
  · have hsent : s.sendDataPacket now buf = (s.pushData now (buf.take (chunkLen buf)), chunkLen buf) :=
      if_neg (Nat.not_lt.mpr hroom)
    have hqueued : (s.pushData now (buf.take (chunkLen buf))).sendQueue ≠ s.sendQueue := by
      intro h
      exact absurd (congrArg List.length h) (by simp [pushData, wakeDriver])
    have hcwnd : (s.pushData now (buf.take (chunkLen buf))).cwnd = s.cwnd := rfl
    have hlen : (buf.take (chunkLen buf)).length = chunkLen buf := List.length_take_of_le (Nat.min_le_left _ _)
    rw [hsent, pushData_inflight, hcwnd, hlen]
    constructor
    · intro hwithin hover
      have := hwithin hqueued
      omega
    · intro hfits _
      omega
  · have hrefused : s.sendDataPacket now buf = (s, 0) := if_pos (Nat.lt_of_not_le hroom)
    rw [hrefused]
    exact ⟨fun _ h => hroom h.1, fun _ h => absurd rfl h⟩

/-- **Admission and the window.** Queueing lost packets again never takes `inflight` beyond `cwnd`, and admitting new
data does so exactly when the payload fits the window and the packet with its header does not. -/
theorem admission_within_iff (s : UdxStreamInner) (now : Nat) (buf : List UInt8) :
    StaysWithinWindow s (s.sendDataPacket now buf).1 ∧ StaysWithinWindow s (s.flushWaitingPackets now) ↔
      ¬HeaderOverflows s buf := by
  rw [sendDataPacket_within_iff]
  exact and_iff_left (flushWaitingPackets_within s now)

/-- Two writes that fit the window one after the other. -/
theorem two_writes {first second : List UInt8} (hfirst : first.length = 1380) (hsecond : second.length = 1360) :
    let u := (UdxStream.connect 0 ⟨.v4 0, 2⟩ 2 1).run [.call (.write 0 first), .call (.write 0 second)]
    u.inner.inflight = 2780 ∧ u.inner.cwnd = 2800 := by
  let fresh := UdxStreamInner.connect 0 ⟨.v4 0, 2⟩ 2 1
  have hinflight : (fresh.pushData 0 first).inflight = 1400 := by
    rw [pushData_inflight, hfirst]
    rfl
  have hwrite1 : (fresh.pollWrite 0 0 first).1 = fresh.pushData 0 first :=
    pollWrite_admits rfl (List.ne_nil_of_length_pos (by omega)) hfirst.le (by rw [hfirst]; decide)
  have hwrite2 : ((fresh.pushData 0 first).pollWrite 0 0 second).1 = (fresh.pushData 0 first).pushData 0 second := by
    refine pollWrite_admits rfl (List.ne_nil_of_length_pos (by omega)) (by rw [hsecond]; decide) ?_
    rw [hinflight, hsecond]
    change 1400 + 1360 ≤ fresh.cwnd
    decide
  change (((fresh.pollWrite 0 0 first).1).pollWrite 0 0 second).1.inflight = 2780 ∧
    (((fresh.pollWrite 0 0 first).1).pollWrite 0 0 second).1.cwnd = 2800
  rw [hwrite1, hwrite2, pushData_inflight, hinflight, hsecond]
  exact ⟨rfl, rfl⟩

/-- A full packet and one twenty bytes short of it: together they leave room for the payload of one more. -/
def nearlyFullRun : List Event :=
  [.call (.write 0 (List.replicate 1380 0)), .call (.write 0 (List.replicate 1360 0))]

theorem nearlyFullRun_overshoots :
    let u := (UdxStream.connect 0 ⟨.v4 0, 2⟩ 2 1).run nearlyFullRun
    u.Reachable ∧ HeaderOverflows u.inner [0] ∧ ¬StaysWithinWindow u.inner (u.inner.sendDataPacket u.clock [0]).1 := by
  intro u
  obtain ⟨hinflight, hcwnd⟩ : u.inner.inflight = 2780 ∧ u.inner.cwnd = 2800 :=
    two_writes List.length_replicate List.length_replicate
  have hover : HeaderOverflows u.inner [0] := by
    rw [HeaderOverflows, hinflight, hcwnd]
    decide
  exact ⟨⟨0, ⟨.v4 0, 2⟩, 2, 1, nearlyFullRun, rfl⟩, hover, fun h =>
    (sendDataPacket_within_iff u.inner u.clock [0]).mp h hover⟩

end AsyncUdx
