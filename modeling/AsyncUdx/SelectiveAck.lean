import AsyncUdx.StreamPoll

/-! Selective acknowledgements. The payload of a SACK packet is read as records of eight bytes, a range of sequence
numbers each. What honouring a payload means is said over its complete records: the packets of `outgoing` in
their ranges are taken out and each is accounted for once, whatever the order, repetition or overlap of the
ranges. The loop of the source asks for a byte after the record it reads, so a payload without trailing bytes
loses its last record. -/

namespace AsyncUdx

open UdxStreamInner

variable {now : Nat}

/-! ### Records and ranges -/

/-- The record at byte `i`: the first sequence number of a range and the one after its last. -/
def sackRecord (buf : List UInt8) (i : Nat) : UInt32 × UInt32 :=
  (readU32Le (slice buf i (i + 4)), readU32Le (slice buf (i + 4) (i + 8)))

/-- The complete records of a payload, trailing bytes left aside. -/
def sackRecords (buf : List UInt8) : List (UInt32 × UInt32) :=
  (List.range (buf.length / 8)).map fun n => sackRecord buf (8 * n)

/-- A sequence number lies in the range of one of the records. -/
def InRanges (records : List (UInt32 × UInt32)) (k : UInt32) : Prop :=
  ∃ record ∈ records, record.1 ≤ k ∧ k < record.2

instance (records : List (UInt32 × UInt32)) (k : UInt32) : Decidable (InRanges records k) :=
  inferInstanceAs (Decidable (∃ record ∈ records, record.1 ≤ k ∧ k < record.2))

/-- The records the loop reads: those with a byte after them. -/
def readRecords (buf : List UInt8) : List (UInt32 × UInt32) :=
  if buf.length % 8 = 0 then (sackRecords buf).dropLast else sackRecords buf

theorem readRecords_eq (buf : List UInt8) :
    readRecords buf = (List.range ((buf.length - 1) / 8)).map fun n => sackRecord buf (8 * n) := by
  unfold readRecords sackRecords
  split
  · rw [List.dropLast_eq_take, List.length_map, List.length_range, ← List.map_take, List.take_range]
    congr 2
    omega
  · congr 2
    omega

theorem mem_sackedFrom (buf : List UInt8) (fuel i : Nat) (k : UInt32) :
    k ∈ sackedFrom buf fuel i ↔ ∃ n < fuel, i + 8 * n + 8 < buf.length ∧
      (sackRecord buf (i + 8 * n)).1 ≤ k ∧ k < (sackRecord buf (i + 8 * n)).2 := by
  induction fuel generalizing i with
  | zero => simp [sackedFrom]
  | succ fuel ih =>
      rw [sackedFrom]
      split
      · rename_i hroom
        rw [List.mem_append, ih, Counter.mem_range]
        constructor
        · rintro (hhead | ⟨n, hn, hlen, hk⟩)
          · exact ⟨0, Nat.succ_pos _, hroom, hhead⟩
          · refine ⟨n + 1, by omega, by omega, ?_⟩
            rw [show i + 8 * (n + 1) = i + 8 + 8 * n by omega]
            exact hk
        · rintro ⟨n, hn, hlen, hk⟩
          cases n with
          | zero => exact Or.inl hk
          | succ n =>
              rw [show i + 8 * (n + 1) = i + 8 + 8 * n by omega] at hlen hk
              exact Or.inr ⟨n, by omega, hlen, hk⟩
      · rename_i hend
        refine ⟨fun h => absurd h List.not_mem_nil, ?_⟩
        rintro ⟨n, -, hlen, -⟩
        omega

theorem mem_sacked_iff (buf : List UInt8) (k : UInt32) :
    k ∈ sackedFrom buf buf.length 0 ↔ InRanges (readRecords buf) k := by
  rw [mem_sackedFrom, readRecords_eq]
  constructor
  · rintro ⟨n, -, hlen, hk⟩
    rw [Nat.zero_add] at hlen hk
    exact ⟨_, List.mem_map.mpr ⟨n, List.mem_range.mpr (by omega), rfl⟩, hk⟩
  · rintro ⟨record, hrecord, hk⟩
    obtain ⟨n, hn, rfl⟩ := List.mem_map.mp hrecord
    rw [List.mem_range] at hn
    refine ⟨n, by omega, by omega, ?_⟩
    rw [Nat.zero_add]
    exact hk

/-! ### Honouring a payload -/

/-- From `s` to `t` the packets of `outgoing` in the ranges of some records were taken out, each was accounted for
once, and nothing else has changed. -/
structure Honoured (now : Nat) (records : List (UInt32 × UInt32)) (s t : UdxStreamInner) : Prop where
  lookup_eq : ∀ k, t.outgoing.lookup k = if InRanges records k then none else s.outgoing.lookup k
  accounted : ∃ removed : List (UInt32 × Packet), (removed.map Prod.fst).Nodup ∧
    (∀ k packet, (k, packet) ∈ removed ↔ InRanges records k ∧ s.outgoing.lookup k = some packet) ∧
    { t with outgoing := s.outgoing } = removed.foldl (fun s entry => s.handleRemoteAckForPacket now entry.2) s

/-- The accounting does not look at `outgoing`. -/
theorem account_outgoing (removed : List (UInt32 × Packet)) (s : UdxStreamInner) (outgoing : SeqMap Packet) :
    removed.foldl (fun s entry => s.handleRemoteAckForPacket now entry.2) { s with outgoing := outgoing } =
      { removed.foldl (fun s entry => s.handleRemoteAckForPacket now entry.2) s with outgoing := outgoing } := by
  induction removed generalizing s with
  | nil => rfl
  | cons entry rest ih => exact ih (s.handleRemoteAckForPacket now entry.2)

/-- The packets that acknowledging some keys one after the other removes, with their keys. -/
def removedBy : List UInt32 → SeqMap Packet → List (UInt32 × Packet)
  | [], _ => []
  | i :: rest, outgoing =>
      match outgoing.lookup i with
      | some packet => (i, packet) :: removedBy rest (outgoing.erase i)
      | none => removedBy rest outgoing

/-- They are those that are there. -/
theorem mem_removedBy {keys : List UInt32} {outgoing : SeqMap Packet} {k : UInt32} {packet : Packet} :
    (k, packet) ∈ removedBy keys outgoing ↔ k ∈ keys ∧ outgoing.lookup k = some packet := by
  induction keys generalizing outgoing with
  | nil => simp [removedBy]
  | cons i rest ih =>
      rw [removedBy, List.mem_cons]
      cases hlookup : outgoing.lookup i with
      | none =>
          dsimp only
          rw [ih]
          by_cases hk : k = i
          · subst hk
            simp [hlookup]
          · simp [hk]
      | some first =>
          dsimp only
          rw [List.mem_cons, ih, Prod.mk.injEq]
          by_cases hk : k = i
          · subst hk
            simp [hlookup, eq_comm]
          · simp [hk, AList.lookup_erase_ne hk]

theorem removedBy_nodup (keys : List UInt32) (outgoing : SeqMap Packet) :
    ((removedBy keys outgoing).map Prod.fst).Nodup := by
  induction keys generalizing outgoing with
  | nil => exact List.nodup_nil
  | cons i rest ih =>
      rw [removedBy]
      split
      · rw [List.map_cons, List.nodup_cons]
        refine ⟨fun h => ?_, ih _⟩
        obtain ⟨⟨k, packet⟩, hentry, rfl⟩ := List.mem_map.mp h
        have hgone := (mem_removedBy.mp hentry).2
        rw [AList.lookup_erase] at hgone
        cases hgone
      · exact ih outgoing

/-- Acknowledging one packet after the other accounts once for each of them. -/
theorem ackPackets_accounted (keys : List UInt32) (s : UdxStreamInner) :
    { keys.foldl (fun s i => s.ackPacket now i) s with outgoing := s.outgoing } =
      (removedBy keys s.outgoing).foldl (fun s entry => s.handleRemoteAckForPacket now entry.2) s := by
  induction keys generalizing s with
  | nil => rfl
  | cons i rest ih =>
      rw [List.foldl_cons, removedBy]
      cases hlookup : s.outgoing.lookup i with
      | none =>
          have hsame : s.ackPacket now i = s := by rw [ackPacket, hlookup]
          rw [hsame]
          exact ih s
      | some packet =>
          have hacked : s.ackPacket now i =
              { s.handleRemoteAckForPacket now packet with outgoing := s.outgoing.erase i } := by
            rw [ackPacket, hlookup]
            rfl
          have hrest := ih (s.ackPacket now i)
          dsimp only
          rw [hacked, account_outgoing] at hrest
          rw [hacked, List.foldl_cons]
          exact (congrArg (fun t => { t with outgoing := s.outgoing }) hrest).trans
            (account_outgoing _ (s.handleRemoteAckForPacket now packet) s.outgoing).symm

/-- The loop honours the records it reads. -/
theorem handleIncomingSacks_honours (s : UdxStreamInner) (now : Nat) (packet : IncomingPacket) :
    Honoured now (readRecords packet.buf) s (s.handleIncomingSacks now packet) := by
  rw [handleIncomingSacks, sackLoop_eq]
  refine ⟨fun k => ?_, removedBy (sackedFrom packet.buf packet.buf.length 0) s.outgoing, removedBy_nodup _ _,
    fun k entry => ?_, ackPackets_accounted _ s⟩
  · rw [ackPackets_lookup]
    simp only [mem_sacked_iff]
  · rw [mem_removedBy, mem_sacked_iff]

/-- The last record ends the payload, and only it names some packet of `outgoing`. -/
def LastRecordNeeded (s : UdxStreamInner) (buf : List UInt8) : Prop :=
  buf.length % 8 = 0 ∧ ∃ k ∈ s.outgoing, InRanges (sackRecords buf) k ∧ ¬InRanges (sackRecords buf).dropLast k

/-- Which records are read matters only through the packets they name. -/
theorem Honoured.congr {records records' : List (UInt32 × UInt32)} {s t : UdxStreamInner}
    (h : Honoured now records s t) (heq : ∀ k ∈ s.outgoing, InRanges records k ↔ InRanges records' k) :
    Honoured now records' s t := by
  obtain ⟨hlookup, removed, hnodup, hmem, hfold⟩ := h
  refine ⟨fun k => ?_, removed, hnodup, fun k packet => ?_, hfold⟩
  · rw [hlookup]
    by_cases hk : k ∈ s.outgoing
    · simp only [heq k hk]
    · rw [AList.lookup_eq_none.mpr hk, ite_self, ite_self]
  · rw [hmem]
    exact and_congr_left fun hsome => heq k (AList.mem_of_lookup hsome)

/-- **Selective acknowledgements.** Every complete record of a payload is honoured, exactly unless the payload ends
with its last record and some packet of `outgoing` is named by no other one. -/
theorem sacks_honoured_iff (s : UdxStreamInner) (now : Nat) (packet : IncomingPacket) :
    Honoured now (sackRecords packet.buf) s (s.handleIncomingSacks now packet) ↔ ¬LastRecordNeeded s packet.buf := by
  have hread := handleIncomingSacks_honours s now packet
  constructor
  · rintro hall ⟨hlen, k, hk, hnamed, hunread⟩
    have hkept := hread.lookup_eq k
    rw [readRecords, if_pos hlen, if_neg hunread, hall.lookup_eq k, if_pos hnamed] at hkept
    exact absurd hk (AList.lookup_eq_none.mp hkept.symm)
  · intro hfine
    refine hread.congr fun k hk => ?_
    unfold readRecords
    split
    · rename_i hlen
      constructor
      · rintro ⟨record, hrecord, hin⟩
        exact ⟨record, List.mem_of_mem_dropLast hrecord, hin⟩
      · intro hnamed
        by_contra hunread
        exact hfine ⟨hlen, k, hk, hnamed, hunread⟩
    · exact Iff.rfl

/-- A SACK packet with one record and no trailing bytes, for the range from 0 to 1. -/
def oneRecordSack : IncomingPacket :=
  ⟨⟨udxHeaderSack, 0, 1, 0, 0, 0⟩, toLeBytes 0 ++ toLeBytes 1, 0, ⟨.v4 0, 2⟩⟩

theorem oneRecordSack_ignored :
    let u := (UdxStream.connect 0 ⟨.v4 0, 2⟩ 2 1).run [.call (.write 0 [1])]
    LastRecordNeeded u.inner oneRecordSack.buf ∧ 0 ∈ (u.inner.handleIncomingSacks u.clock oneRecordSack).outgoing ∧
      ¬Honoured u.clock (sackRecords oneRecordSack.buf) u.inner
        (u.inner.handleIncomingSacks u.clock oneRecordSack) := by
  intro u
  have hneeded : LastRecordNeeded u.inner oneRecordSack.buf := ⟨by decide, 0, by decide, by decide, by decide⟩
  have hrange : InRanges (sackRecords oneRecordSack.buf) 0 := by decide
  refine ⟨hneeded, by decide, fun h => ?_⟩
  have hgone := h.lookup_eq 0
  rw [if_pos hrange] at hgone
  exact absurd hgone (by decide)

end AsyncUdx
