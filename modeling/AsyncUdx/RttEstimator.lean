import AsyncUdx.StreamTask

/-! The round trip estimator. An acknowledgement of a packet that was sent once gives a sample of the round trip time,
and two moving averages and the retransmission timeout follow it. In whole nanoseconds both averages round down, and
a value of zero makes the estimator start anew; it stays within its samples all the same. -/

namespace AsyncUdx

open UdxStreamInner

variable {ok : IncomingPacket → Prop} {now lo hi : Nat}

/-- The three values that a sample changes. -/
structure Estimator where
  srtt : Nat
  rttvar : Nat
  rto : Nat
deriving DecidableEq, Repr

def UdxStreamInner.estimator (s : UdxStreamInner) : Estimator := ⟨s.srtt, s.rttvar, s.rto⟩

namespace Estimator

/-- The values with which a stream is connected. -/
def initial : Estimator := ⟨0, 0, millis 1000⟩

def ofAverages (averages : Nat × Nat) : Estimator where
  srtt := averages.1
  rttvar := averages.2
  rto := max (millis 1000) (averages.1 + max udxClockGranularityMs (4 * averages.2))

def sample (e : Estimator) (rtt : Nat) : Estimator := ofAverages (estimate e.srtt e.rttvar rtt)

/-- The subtraction of durations, which panics where the difference would be negative. -/
def durationSub (a b : Nat) : Option Nat := if b ≤ a then some (a - b) else none

/-- A sample with the subtraction that can panic. -/
def sampleChecked (e : Estimator) (rtt : Nat) : Option Estimator :=
  if e.srtt = 0 then some (ofAverages (rtt, rtt / 2))
  else do
    let delta ← if rtt < e.srtt then durationSub e.srtt rtt else durationSub rtt e.srtt
    some (ofAverages ((7 * e.srtt + rtt) / 8, (3 * e.rttvar + delta) / 4))

/-- The averages are within the samples seen so far, and the timeout is the one that belongs to them. -/
structure Within (lo hi : Nat) (e : Estimator) : Prop where
  srtt_ge : lo ≤ e.srtt
  srtt_le : e.srtt ≤ hi
  rttvar_le : e.rttvar ≤ max (hi / 2) (hi - lo)
  rto_eq : e.rto = max (millis 1000) (e.srtt + max udxClockGranularityMs (4 * e.rttvar))

/-! ### One sample -/

/-- A weighted average that rounds down is not above what is averaged. -/
theorem average_le (weight : Nat) {x y bound : Nat} (hx : x ≤ bound) (hy : y ≤ bound) :
    (weight * x + y) / (weight + 1) ≤ bound := by
  apply Nat.div_le_of_le_mul
  calc weight * x + y ≤ weight * bound + bound := Nat.add_le_add (Nat.mul_le_mul_left _ hx) hy
    _ = (weight + 1) * bound := (Nat.succ_mul weight bound).symm

/-- Nor is it below. -/
theorem le_average (weight : Nat) {x y bound : Nat} (hx : bound ≤ x) (hy : bound ≤ y) :
    bound ≤ (weight * x + y) / (weight + 1) := by
  rw [Nat.le_div_iff_mul_le (Nat.succ_pos weight)]
  calc bound * (weight + 1) = weight * bound + bound := by rw [Nat.mul_succ, Nat.mul_comm]
    _ ≤ weight * x + y := Nat.add_le_add (Nat.mul_le_mul_left _ hx) hy

/-- Two values of an interval are not further apart than its ends. -/
theorem deviation_le {x y : Nat} (hx : lo ≤ x ∧ x ≤ hi) (hy : lo ≤ y ∧ y ≤ hi) :
    (if y < x then x - y else y - x) ≤ hi - lo := by
  split <;> omega

theorem ofAverages_within {srtt rttvar : Nat} (hge : lo ≤ srtt) (hle : srtt ≤ hi)
    (hvar : rttvar ≤ max (hi / 2) (hi - lo)) : Within lo hi (ofAverages (srtt, rttvar)) :=
  ⟨hge, hle, hvar, rfl⟩

/-- A sample keeps the estimator within bounds; where `srtt` is zero it does not matter what was there before. -/
theorem sample_within {e : Estimator} {rtt : Nat} (h : e.srtt ≠ 0 → Within lo hi e) (hge : lo ≤ rtt) (hle : rtt ≤ hi) :
    Within lo hi (e.sample rtt) := by
  unfold sample estimate
  by_cases hzero : e.srtt = 0
  · rw [if_pos hzero]
    exact ofAverages_within hge hle ((Nat.div_le_div_right hle).trans (Nat.le_max_left _ _))
  · obtain ⟨hsge, hsle, hvar, -⟩ := h hzero
    rw [if_neg hzero]
    refine ofAverages_within (le_average 7 hsge hge) (average_le 7 hsle hle) ?_
    have hdelta := deviation_le ⟨hsge, hsle⟩ ⟨hge, hle⟩
    exact average_le 3 hvar (hdelta.trans (Nat.le_max_right _ _))

/-- The subtraction is made in the direction in which it cannot go below zero. -/
theorem sampleChecked_eq (e : Estimator) (rtt : Nat) : e.sampleChecked rtt = some (e.sample rtt) := by
  unfold sampleChecked sample estimate
  by_cases hzero : e.srtt = 0
  · rw [if_pos hzero, if_pos hzero]
  · rw [if_neg hzero, if_neg hzero]
    by_cases hlt : rtt < e.srtt
    · rw [if_pos hlt, durationSub, if_pos hlt.le]
      dsimp only
      rw [if_pos hlt]
      rfl
    · rw [if_neg hlt, durationSub, if_pos (Nat.not_lt.mp hlt)]
      dsimp only
      rw [if_neg hlt]
      rfl

namespace Within

theorem rto_ge {e : Estimator} (h : Within lo hi e) : millis 1000 ≤ e.rto := by
  rw [h.rto_eq]
  exact Nat.le_max_left _ _

theorem rto_le {e : Estimator} (h : Within lo hi e) :
    e.rto ≤ max (millis 1000) (hi + max udxClockGranularityMs (4 * max (hi / 2) (hi - lo))) := by
  have hvar : 4 * e.rttvar ≤ 4 * max (hi / 2) (hi - lo) := Nat.mul_le_mul_left 4 h.rttvar_le
  rw [h.rto_eq]
  exact max_le_max_left _ (Nat.add_le_add h.srtt_le (max_le_max_left _ hvar))

end Within

/-! ### Any number of samples -/

theorem foldl_within {e : Estimator} (he : Within lo hi e) {rtts : List Nat} (h : ∀ rtt ∈ rtts, lo ≤ rtt ∧ rtt ≤ hi) :
    Within lo hi (rtts.foldl sample e) :=
  List.foldlRecOn rtts sample he fun _ he rtt hrtt => sample_within (fun _ => he) (h rtt hrtt).1 (h rtt hrtt).2

theorem foldl_initial_within {rtts : List Nat} (hne : rtts ≠ []) (h : ∀ rtt ∈ rtts, lo ≤ rtt ∧ rtt ≤ hi) :
    Within lo hi (rtts.foldl sample initial) := by
  cases rtts with
  | nil => exact absurd rfl hne
  | cons first rest =>
      have hfirst := h first List.mem_cons_self
      -- the first sample finds `srtt` zero
      have hstart : Within lo hi (initial.sample first) :=
        sample_within (fun hzero => absurd rfl hzero) hfirst.1 hfirst.2
      exact foldl_within hstart fun rtt hrtt => h rtt (List.mem_cons_of_mem _ hrtt)

theorem foldlM_sampleChecked (rtts : List Nat) (e : Estimator) :
    rtts.foldlM sampleChecked e = some (rtts.foldl sample e) := by
  induction rtts generalizing e with
  | nil => rfl
  | cons rtt rest ih =>
      rw [List.foldlM_cons, sampleChecked_eq]
      exact ih _

end Estimator

/-! ### The stream -/

/-- Packets are acknowledged one after the other, each at its time. -/
def UdxStreamInner.acknowledge (s : UdxStreamInner) (acks : List (Nat × Packet)) : UdxStreamInner :=
  acks.foldl (fun s ack => s.handleRemoteAckForPacket ack.1 ack.2) s

/-- The samples that they give. -/
def rttSamples (acks : List (Nat × Packet)) : List Nat := acks.filterMap fun ack => rttSample ack.1 ack.2

theorem handleRemoteAckForPacket_estimator (s : UdxStreamInner) (now : Nat) (packet : Packet) :
    (s.handleRemoteAckForPacket now packet).estimator =
      (rttSample now packet).toList.foldl Estimator.sample s.estimator := by
  unfold handleRemoteAckForPacket recalculate estimator
  cases rttSample now packet <;> rfl

theorem acknowledge_estimator (s : UdxStreamInner) (acks : List (Nat × Packet)) :
    (s.acknowledge acks).estimator = (rttSamples acks).foldl Estimator.sample s.estimator := by
  induction acks generalizing s with
  | nil => rfl
  | cons ack rest ih =>
      have hsamples : rttSamples (ack :: rest) = (rttSample ack.1 ack.2).toList ++ rttSamples rest := by
        rw [rttSamples, List.filterMap_cons]
        cases rttSample ack.1 ack.2 <;> rfl
      rw [hsamples, List.foldl_append, ← handleRemoteAckForPacket_estimator]
      exact ih _

/-- **The estimator stays within its samples.** From the values of a new stream on, whatever packets are acknowledged,
the subtraction never goes below zero; and after each sample the averages lie within the bounds of the samples and the
timeout within those that follow from them. -/
theorem rto_within_samples {s : UdxStreamInner} (hs : s.estimator = Estimator.initial) (acks : List (Nat × Packet))
    (hsamples : ∀ rtt ∈ rttSamples acks, lo ≤ rtt ∧ rtt ≤ hi) :
    (rttSamples acks).foldlM Estimator.sampleChecked Estimator.initial = some (s.acknowledge acks).estimator ∧
    ∀ seen, seen <+: acks → rttSamples seen ≠ [] →
      let t := s.acknowledge seen
      (lo ≤ t.srtt ∧ t.srtt ≤ hi) ∧ t.rttvar ≤ max (hi / 2) (hi - lo) ∧
      t.rto = max (millis 1000) (t.srtt + max udxClockGranularityMs (4 * t.rttvar)) ∧
      millis 1000 ≤ t.rto ∧
      t.rto ≤ max (millis 1000) (hi + max udxClockGranularityMs (4 * max (hi / 2) (hi - lo))) := by
  refine ⟨?_, fun seen hseen hne => ?_⟩
  · rw [Estimator.foldlM_sampleChecked, acknowledge_estimator, hs]
  · have hbounds : ∀ rtt ∈ rttSamples seen, lo ≤ rtt ∧ rtt ≤ hi :=
      fun rtt hrtt => hsamples rtt ((hseen.filterMap _).subset hrtt)
    have hwithin : (s.acknowledge seen).estimator.Within lo hi := by
      rw [acknowledge_estimator, hs]
      exact Estimator.foldl_initial_within hne hbounds
    exact ⟨⟨hwithin.srtt_ge, hwithin.srtt_le⟩, hwithin.rttvar_le, hwithin.rto_eq, hwithin.rto_ge, hwithin.rto_le⟩

/-- Three packets that were sent once, at the times given, and when each is acknowledged. The second one is acknowledged
within a nanosecond; a fourth was sent twice. -/
def threeSamples : List (Nat × Packet) :=
  let packet (sent : Nat) (transmits : Nat) : Packet :=
    { Packet.new ⟨.v4 0, 2⟩ ⟨1, 0, 2, 0, 0, 0⟩ [7] with timeSent := some sent, transmits := transmits }
  [(millis 40, packet 0 1), (millis 41, packet (millis 41) 1), (millis 90, packet (millis 60) 1),
    (millis 500, packet (millis 70) 2)]

theorem rto_within_threeSamples :
    let t := (UdxStreamInner.connect 0 ⟨.v4 0, 2⟩ 2 1).acknowledge threeSamples
    rttSamples threeSamples = [millis 40, 0, millis 30] ∧
      t.estimator = ⟨millis 34 + 375000, millis 20, millis 1000⟩ ∧ t.srtt ≤ millis 40 ∧ t.rttvar ≤ millis 40 := by
  have hwithin := @rto_within_samples 0 (millis 40) (UdxStreamInner.connect 0 ⟨.v4 0, 2⟩ 2 1) rfl threeSamples
    (by decide)
  have hall := hwithin.2 threeSamples List.prefix_rfl (by decide)
  exact ⟨by decide, by decide +kernel, hall.1.2, hall.2.1⟩

/-! ### Whole runs -/

/-- The estimator has come from samples none of which is longer than the time that has passed. -/
def Sampled (now : Nat) (s : UdxStreamInner) : Prop :=
  ∃ rtts : List Nat, (∀ rtt ∈ rtts, rtt ≤ now) ∧ s.estimator = rtts.foldl Estimator.sample Estimator.initial

theorem Sampled.of_eq {s t : UdxStreamInner} (hs : Sampled now s) (h : t.estimator = s.estimator) : Sampled now t := by
  obtain ⟨rtts, hbound, hfold⟩ := hs
  exact ⟨rtts, hbound, h.trans hfold⟩

theorem rttSample_le {packet : Packet} {rtt : Nat} (h : rttSample now packet = some rtt) : rtt ≤ now := by
  unfold rttSample at h
  split at h
  · obtain ⟨sent, -, rfl⟩ := Option.map_eq_some_iff.mp h
    exact Nat.sub_le now sent
  · cases h

theorem ackPacket_sampled {s : UdxStreamInner} (i : UInt32) (hs : Sampled now s) : Sampled now (s.ackPacket now i) := by
  unfold ackPacket
  split
  · rename_i packet hlookup
    obtain ⟨rtts, hbound, hfold⟩ := hs
    refine ⟨rtts ++ (rttSample now packet).toList, fun rtt hrtt => ?_, ?_⟩
    · rcases List.mem_append.mp hrtt with hrtt | hrtt
      · exact hbound rtt hrtt
      · exact rttSample_le (Option.mem_toList.mp hrtt)
    · rw [handleRemoteAckForPacket_estimator, List.foldl_append, ← hfold]
      rfl
  · exact hs

theorem Move.sampled {s t : UdxStreamInner} (h : Move ok now s t) (hs : Sampled now s) : Sampled now t := by
  cases h with
  | micro h =>
      cases h with
      | ackNext packet hok hlt => exact ackPacket_sampled _ hs
      | sack packet i hok htype => exact ackPacket_sampled i hs
      | _ => exact hs
  | _ => exact hs

theorem UdxStream.step_clock_le (u : UdxStream) (e : Event) : u.clock ≤ (u.step e).clock := by
  cases e with
  | recv header buf source => exact Nat.le_refl _
  | call c =>
      by_cases htick : ∃ elapsed, c = .tick elapsed
      · obtain ⟨elapsed, rfl⟩ := htick
        exact Nat.le_add_right _ _
      · exact (u.call_clock c fun elapsed h => htick ⟨elapsed, h⟩).ge

/-- The estimator of a stream has only ever seen acknowledgements of its own packets. -/
theorem reachable_sampled {u : UdxStream} (hu : u.Reachable) : Sampled u.clock u.inner := by
  obtain ⟨start, dest, remoteId, localId, events, rfl⟩ := hu
  refine Runs.run_invariant (fun u : UdxStream => Sampled u.clock u.inner) (fun u e hs => ?_)
    ⟨[], fun _ h => absurd h List.not_mem_nil, rfl⟩ events
  obtain ⟨rtts, hbound, hfold⟩ := (u.step_advance_any e).invariant (Sampled u.clock) (fun _ _ h => h.sampled)
    (fun _ _ => id) hs
  exact ⟨rtts, fun rtt hrtt => (hbound rtt hrtt).trans (u.step_clock_le e), hfold⟩

/-- **The timeout in every reachable state.** Unless there has been no sample yet, it is the one that belongs to the two
averages, and neither is longer than the stream has been observed. -/
theorem reachable_estimator_within {u : UdxStream} (hu : u.Reachable) :
    u.inner.estimator = Estimator.initial ∨ u.inner.estimator.Within 0 u.clock := by
  obtain ⟨rtts, hbound, hfold⟩ := reachable_sampled hu
  rw [hfold]
  by_cases hnil : rtts = []
  · exact Or.inl (by rw [hnil]; rfl)
  · exact Or.inr (Estimator.foldl_initial_within hnil fun rtt hrtt => ⟨Nat.zero_le _, hbound rtt hrtt⟩)

end AsyncUdx
