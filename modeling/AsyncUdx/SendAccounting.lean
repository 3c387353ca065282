import AsyncUdx.StreamTask

/-! The books a stream keeps about the packets it has sent. `inflight` and the two statistics are
compared with the packets in `outgoing` themselves; the comparison is an invariant of every elementary
change, so no subtraction in the timeout loop or in the handling of acknowledgements goes below zero,
whatever the peer sends. -/

namespace AsyncUdx

open Relation UdxStreamInner

/-- The fields of a stream that concern what it has sent. -/
structure SendSide where
  seq : UInt32
  remoteAcked : UInt32
  outgoing : SeqMap Packet
  inflight : Nat
  inflightPackets : Nat
  inflightBytes : Nat
  created : List Packet
  underflow : Bool

def UdxStreamInner.sendSide (s : UdxStreamInner) : SendSide where
  seq := s.seq
  remoteAcked := s.remoteAcked
  outgoing := s.outgoing
  inflight := s.inflight
  inflightPackets := s.stats.inflightPackets
  inflightBytes := s.stats.inflightBytes
  created := s.ghost.created
  underflow := s.ghost.underflow

/-- What a packet counts in flight: nothing while it waits for retransmission. -/
def flightWeight (_ : UInt32) (packet : Packet) : Nat := if packet.waiting then 0 else packet.len

def dataWeight (_ : UInt32) (packet : Packet) : Nat := packet.dataLen

/-- The number of data packets created so far fits the sequence number. -/
def FewCreated (s : UdxStreamInner) : Prop := s.ghost.created.length < 2 ^ 32

instance : DecidablePred FewCreated := fun s => inferInstanceAs (Decidable (s.ghost.created.length < 2 ^ 32))

/-- The books agree with `outgoing`. -/
structure Accounted (v : SendSide) : Prop where
  inflight_eq : v.inflight = v.outgoing.total flightWeight
  packets_eq : v.inflightPackets = v.outgoing.size
  bytes_eq : v.inflightBytes = v.outgoing.total dataWeight
  no_underflow : v.underflow = false
  seq_eq : v.seq.toNat = v.created.length
  keys_lt : ∀ k ∈ v.outgoing, k < v.seq

theorem usizeSub_of_le {a b : Nat} (h : b ≤ a) : usizeSub a b = a - b := if_pos h

variable {ok : IncomingPacket → Prop} {now : Nat}

/-! ### The creation of packets is recorded -/

theorem ackPacket_created (s : UdxStreamInner) (i : UInt32) :
    (s.ackPacket now i).ghost.created = s.ghost.created := by
  unfold ackPacket
  split <;> rfl

theorem ackPacket_seq (s : UdxStreamInner) (i : UInt32) : (s.ackPacket now i).seq = s.seq := by
  unfold ackPacket
  split <;> rfl

/-- An elementary change creates no data packet. -/
theorem Micro.created_eq {s t : UdxStreamInner} (h : Micro ok now s t) : t.ghost.created = s.ghost.created := by
  cases h with
  | ackNext packet hok hlt => exact ackPacket_created _ _
  | sack packet i hok htype => exact ackPacket_created _ _
  | _ => rfl

theorem Micro.seq_eq {s t : UdxStreamInner} (h : Micro ok now s t) : t.seq = s.seq := by
  cases h with
  | ackNext packet hok hlt => exact ackPacket_seq _ _
  | sack packet i hok htype => exact ackPacket_seq _ _
  | _ => rfl

theorem Move.created_prefix {s t : UdxStreamInner} (h : Move ok now s t) :
    s.ghost.created <+: t.ghost.created := by
  cases h with
  | micro h => rw [h.created_eq]
  | send body herror hbody hlen hroom => exact List.prefix_append _ _
  | _ => exact List.prefix_rfl

theorem Moves.created_prefix {s t : UdxStreamInner} (h : Moves ok now s t) :
    s.ghost.created <+: t.ghost.created := by
  induction h with
  | refl => exact List.prefix_rfl
  | tail _ hlast ih => exact ih.trans hlast.created_prefix

theorem Move.fewCreated {s t : UdxStreamInner} (h : Move ok now s t) (ht : FewCreated t) : FewCreated s :=
  Nat.lt_of_le_of_lt h.created_prefix.length_le ht

/-! ### The books are kept -/

theorem ackPacket_accounted {s : UdxStreamInner} (i : UInt32) (hs : Accounted s.sendSide) :
    Accounted (s.ackPacket now i).sendSide := by
  unfold ackPacket
  split
  · rename_i packet hlookup
    have hflight := AList.total_of_lookup flightWeight hlookup
    have hdata := AList.total_of_lookup dataWeight hlookup
    have hsize := AList.size_of_lookup hlookup
    have hinflight : s.inflight = s.outgoing.total flightWeight := hs.inflight_eq
    have hpackets : s.stats.inflightPackets = s.outgoing.size := hs.packets_eq
    have hbytes : s.stats.inflightBytes = s.outgoing.total dataWeight := hs.bytes_eq
    have hunder : s.ghost.underflow = false := hs.no_underflow
    simp only [flightWeight, dataWeight] at hflight hdata
    constructor
    · change (if packet.waiting then s.inflight else usizeSub s.inflight packet.buf.len) = _
      split_ifs at hflight ⊢ with hwaiting
      · change s.inflight = (s.outgoing.erase i).total flightWeight
        omega
      · change usizeSub s.inflight packet.len = (s.outgoing.erase i).total flightWeight
        rw [usizeSub_of_le (by omega)]
        omega
    · change usizeSub s.stats.inflightPackets 1 = (s.outgoing.erase i).size
      rw [usizeSub_of_le (by omega)]
      omega
    · change usizeSub s.stats.inflightBytes packet.dataLen = (s.outgoing.erase i).total dataWeight
      rw [usizeSub_of_le (by omega)]
      omega
    · change (s.ghost.underflow || (!packet.waiting && decide (s.inflight < packet.len)) ||
        decide (s.stats.inflightBytes < packet.dataLen) || decide (s.stats.inflightPackets < 1)) = false
      cases hwaiting : packet.waiting with
      | true =>
          simp only [hunder, Bool.not_true, Bool.false_and, Bool.or_false, Bool.false_or, Bool.or_eq_false_iff,
            decide_eq_false_iff_not]
          omega
      | false =>
          simp only [hwaiting, Bool.false_eq_true, if_false] at hflight
          simp only [hunder, Bool.not_false, Bool.true_and, Bool.false_or, Bool.or_eq_false_iff,
            decide_eq_false_iff_not]
          omega
    · exact hs.seq_eq
    · intro k hk
      exact hs.keys_lt k (AList.mem_erase.mp hk).2
  · exact hs

/-- Replacing a packet by one of the same length moves only `inflight`. -/
theorem accounted_replace {v : SendSide} (hs : Accounted v) {i : UInt32} {packet : Packet}
    (hlookup : v.outgoing.lookup i = some packet) (packet' : Packet) (hbuf : packet'.buf = packet.buf)
    (inflight : Nat)
    (hinflight : inflight + flightWeight i packet = v.inflight + flightWeight i packet') :
    Accounted { v with outgoing := v.outgoing.insert i packet', inflight := inflight } := by
  have hflight := AList.total_replace flightWeight packet' hlookup
  have hdata := AList.total_replace dataWeight packet' hlookup
  have hlen : dataWeight i packet' = dataWeight i packet := by
    simp only [dataWeight, Packet.dataLen, hbuf]
  constructor
  · change inflight = (v.outgoing.insert i packet').total flightWeight
    have := hs.inflight_eq
    omega
  · rw [hs.packets_eq]
    exact (AList.size_replace packet' hlookup).symm
  · change v.inflightBytes = (v.outgoing.insert i packet').total dataWeight
    have := hs.bytes_eq
    omega
  · exact hs.no_underflow
  · exact hs.seq_eq
  · intro k hk
    rcases (AList.mem_insert v.outgoing).mp hk with rfl | hk
    · exact hs.keys_lt _ (AList.mem_of_lookup hlookup)
    · exact hs.keys_lt k hk

theorem park_accounted {s : UdxStreamInner} {i : UInt32} {packet : Packet} (hs : Accounted s.sendSide)
    (hlookup : s.outgoing.lookup i = some packet) (hwaiting : packet.waiting = false) :
    Accounted (s.park now i packet).sendSide := by
  have hle : packet.len ≤ s.inflight := by
    have h := AList.weight_le_total flightWeight hlookup
    have hinflight : s.inflight = s.outgoing.total flightWeight := hs.inflight_eq
    simp only [flightWeight, hwaiting, Bool.false_eq_true, if_false] at h
    omega
  have hflag : (s.ghost.underflow || decide (s.inflight < packet.len)) = s.ghost.underflow := by
    rw [decide_eq_false (by omega), Bool.or_false]
  have h := accounted_replace hs hlookup { packet with transmits := packet.transmits + 1, waiting := true }
    rfl (usizeSub s.inflight packet.len) (by
      rw [usizeSub_of_le hle]
      simp only [flightWeight, hwaiting, Bool.false_eq_true, if_false, if_true]
      change _ = s.inflight + 0
      omega)
  unfold UdxStreamInner.sendSide UdxStreamInner.park
  dsimp only
  rw [hflag]
  exact h

theorem requeue_accounted {s : UdxStreamInner} {i : UInt32} {packet : Packet} (hs : Accounted s.sendSide)
    (hlookup : s.outgoing.lookup i = some packet) (hwaiting : packet.waiting = true) :
    Accounted (s.requeue now i packet).sendSide :=
  accounted_replace hs hlookup { packet with waiting := false, queuedAt := now :: packet.queuedAt }
    rfl (s.inflight + packet.len) (by
      simp only [flightWeight, hwaiting, Bool.false_eq_true, if_false, if_true]
      rfl)

theorem Micro.accounted {s t : UdxStreamInner} (h : Micro ok now s t) (hs : Accounted s.sendSide) :
    Accounted t.sendSide := by
  cases h with
  | ackNext packet hok hlt =>
      have hadvanced : Accounted ({ s with remoteAcked := s.remoteAcked + 1 }).sendSide :=
        ⟨hs.inflight_eq, hs.packets_eq, hs.bytes_eq, hs.no_underflow, hs.seq_eq, hs.keys_lt⟩
      exact ackPacket_accounted _ hadvanced
  | sack packet i hok htype => exact ackPacket_accounted i hs
  | park i packet hlookup hwaiting hmax hdue => exact park_accounted hs hlookup hwaiting
  | requeue i packet hlookup hwaiting hroom => exact requeue_accounted hs hlookup hwaiting
  | mark i packet sent hlookup =>
      exact accounted_replace hs hlookup { packet with timeSent := some sent } rfl s.inflight rfl
  | _ => exact hs

/-- A fresh packet is entered in the books once. -/
theorem pushData_accounted {s : UdxStreamInner} {body : List UInt8} (hs : Accounted s.sendSide)
    (hfew : FewCreated (s.pushData now body)) : Accounted (s.pushData now body).sendSide := by
  have hlen : s.ghost.created.length + 1 < 2 ^ 32 := by
    have h : (s.ghost.created ++ [_]).length < 2 ^ 32 := hfew
    rwa [List.length_append, List.length_singleton] at h
  have hseq : s.seq.toNat = s.ghost.created.length := hs.seq_eq
  have hsucc : (s.seq + 1).toNat = s.seq.toNat + 1 := Counter.toNat_succ (by omega)
  have hfresh : s.seq ∉ s.outgoing := fun h => UInt32.lt_irrefl _ (hs.keys_lt _ h)
  constructor
  · change s.inflight + _ = (s.outgoing.insert s.seq _).total flightWeight
    rw [AList.total_insert_of_notMem _ _ hfresh, show s.inflight = _ from hs.inflight_eq, Nat.add_comm]
    rfl
  · change s.stats.inflightPackets + 1 = (s.outgoing.insert s.seq _).size
    rw [AList.size_insert_of_notMem _ hfresh, show s.stats.inflightPackets = _ from hs.packets_eq]
    rfl
  · change s.stats.inflightBytes + _ = (s.outgoing.insert s.seq _).total dataWeight
    rw [AList.total_insert_of_notMem _ _ hfresh, show s.stats.inflightBytes = _ from hs.bytes_eq, Nat.add_comm]
    rfl
  · exact hs.no_underflow
  · change (s.seq + 1).toNat = (s.ghost.created ++ [_]).length
    rw [hsucc, hseq, List.length_append, List.length_singleton]
  · intro k hk
    change k < s.seq + 1
    rw [UInt32.lt_iff_toNat_lt, hsucc]
    rcases (AList.mem_insert s.outgoing).mp hk with rfl | hk
    · exact Nat.lt_succ_self _
    · exact Nat.lt_succ_of_lt (UInt32.lt_iff_toNat_lt.mp (hs.keys_lt k hk))

theorem Move.accounted {s t : UdxStreamInner} (h : Move ok now s t) (hs : Accounted s.sendSide)
    (ht : FewCreated t) : Accounted t.sendSide := by
  cases h with
  | micro h => exact h.accounted hs
  | send body herror hbody hlen hroom => exact pushData_accounted hs ht
  | _ => exact hs

theorem connect_accounted (start : Nat) (dest : SocketAddr) (remoteId localId : UInt32) :
    Accounted (UdxStreamInner.connect start dest remoteId localId).sendSide where
  inflight_eq := rfl
  packets_eq := rfl
  bytes_eq := rfl
  no_underflow := rfl
  seq_eq := rfl
  keys_lt := fun k hk => absurd hk (AList.notMem_empty k)

theorem accounted_invariant :
    MoveInvariant UdxStream.anyPacket (fun s => Accounted s.sendSide) FewCreated where
  connect := connect_accounted
  back := fun _ _ _ h => h.fewCreated
  move := fun _ _ _ h => h.accounted
  channel := fun _ _ => id
  channel_back := fun _ _ => id

/-- **The books are exact.** In every state of every run, `inflight` is the total length of the packets in
`outgoing` that do not wait for retransmission, the two statistics are the number of packets in `outgoing`
and their total payload, and no subtraction has gone below zero. -/
theorem inflight_exact {u : UdxStream} (hu : u.Reachable) (hfew : FewCreated u.inner) :
    u.inner.inflight = u.inner.outgoing.total (fun _ packet => if packet.waiting then 0 else packet.len) ∧
    u.inner.stats.inflightPackets = u.inner.outgoing.size ∧
    u.inner.stats.inflightBytes = u.inner.outgoing.total (fun _ packet => packet.dataLen) ∧
    u.inner.ghost.underflow = false := by
  have h : Accounted u.inner.sendSide := accounted_invariant.reachable (fun _ _ _ => trivial) hu hfew
  exact ⟨h.inflight_eq, h.packets_eq, h.bytes_eq, h.no_underflow⟩

/-- A run with a packet that is sent, times out, and is acknowledged twice over. -/
def accountingRun : List Event :=
  [.call (.write 0 [1, 2, 3]), .call (.write 0 [4]), .call (.poll 0 0 10 1), .call (.tick (millis 1000)),
    .call (.poll 0 0 10 1), .recv ⟨4, 0, 1, 0, 0, 1⟩ [0, 0, 0, 0, 1, 0, 0, 0, 0] ⟨.v4 0, 1⟩, .call (.poll 0 0 10 1)]

theorem inflight_exact_accountingRun :
    let u := (UdxStream.connect 0 ⟨.v4 0, 2⟩ 2 1).run accountingRun
    FewCreated u.inner ∧ u.inner.inflight = 21 ∧
      u.inner.inflight = u.inner.outgoing.total (fun _ packet => if packet.waiting then 0 else packet.len) :=
  ⟨by decide, by decide, (inflight_exact ⟨0, ⟨.v4 0, 2⟩, 2, 1, accountingRun, rfl⟩ (by decide)).1⟩

end AsyncUdx
