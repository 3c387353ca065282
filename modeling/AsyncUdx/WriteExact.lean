import AsyncUdx.TerminationFinal

/-! What `poll_write` does, exactly. The buffer is cut into chunks from its start; each chunk is admitted as a data
packet or refused, and the first one that is refused ends the call. What was admitted before is what the call returns,
and it has become the packets with the next sequence numbers, in `outgoing` and at the end of the queue. A call that
returns an error or that has to wait has changed nothing but the waker. -/

namespace AsyncUdx

open UdxStreamInner

variable {now : Nat}

/-! ### Chunks -/

namespace UdxStreamInner

/-- The data packet made of a chunk. -/
def dataPacket (s : UdxStreamInner) (now : Nat) (body : List UInt8) : Packet :=
  { s.createPacket udxHeaderData body with queuedAt := [now] }

/-- Chunks admitted one after the other. -/
def pushAll (s : UdxStreamInner) (now : Nat) (bodies : List (List UInt8)) : UdxStreamInner :=
  bodies.foldl (fun s body => s.pushData now body) s

end UdxStreamInner

/-- The chunks that a write has taken from the start of what it was given, and the window that stopped it if something
is left. -/
structure Chunked (after : UdxStreamInner) (given : List UInt8) (bodies : List (List UInt8)) : Prop where
  start : bodies.flatten <+: given
  sizes : ∀ body ∈ bodies, 1 ≤ body.length ∧ body.length ≤ udxMaxDataSize
  count_le : bodies.length ≤ (given.length + udxMaxDataSize - 1) / udxMaxDataSize
  stopped : bodies.flatten.length < given.length →
    after.cwnd < after.inflight + min (given.length - bodies.flatten.length) udxMaxDataSize

theorem Chunked.nil {s : UdxStreamInner} {given : List UInt8}
    (h : given ≠ [] → s.cwnd < s.inflight + min given.length udxMaxDataSize) : Chunked s given [] where
  start := List.nil_prefix
  sizes := fun _ h => absurd h List.not_mem_nil
  count_le := Nat.zero_le _
  stopped := fun hlt => h (List.length_pos_iff.mp hlt)

/-- A full chunk, or all that is left, and then the chunks of the rest. -/
theorem Chunked.cons {after : UdxStreamInner} {given : List UInt8} {bodies : List (List UInt8)} (hne : given ≠ [])
    (h : Chunked after (given.drop (min given.length udxMaxDataSize)) bodies) :
    Chunked after given (given.take (min given.length udxMaxDataSize) :: bodies) := by
  have hpos := List.length_pos_iff.mpr hne
  have hlen : (given.take (min given.length udxMaxDataSize)).length = min given.length udxMaxDataSize := by
    rw [List.length_take]
    omega
  have hrest : (given.drop (min given.length udxMaxDataSize)).length =
      given.length - min given.length udxMaxDataSize := List.length_drop
  have hcount := h.count_le
  have hstopped := h.stopped
  rw [hrest] at hcount hstopped
  constructor
  · rw [List.flatten_cons]
    have htogether := (List.prefix_append_right_inj (given.take (min given.length udxMaxDataSize))).mpr h.start
    rwa [List.take_append_drop] at htogether
  · refine List.forall_mem_cons.mpr ⟨?_, h.sizes⟩
    rw [hlen]
    unfold udxMaxDataSize
    omega
  · rw [List.length_cons]
    unfold udxMaxDataSize at hcount ⊢
    omega
  · rw [List.flatten_cons, List.length_append, hlen]
    intro hlt
    have hwindow := hstopped (by omega)
    rwa [Nat.sub_sub] at hwindow

/-- **The loop of a write.** It has to wait if the first chunk is refused; otherwise it returns how much the admitted
chunks make up. -/
theorem writeLoop_chunks (now : Nat) (waker : Waker) {buf : List UInt8} (fuel written : Nat) (s : UdxStreamInner)
    (hle : written ≤ buf.length) (hfuel : buf.length < written + fuel) :
    (written = 0 ∧ writeLoop now waker buf fuel written s = ({ s with writeWaker := some waker }, .pending)) ∨
    ∃ bodies, writeLoop now waker buf fuel written s =
        (s.pushAll now bodies, .ready (.ok (written + bodies.flatten.length))) ∧
      Chunked (s.pushAll now bodies) (buf.drop written) bodies ∧
      (buf ≠ [] → 0 < written + bodies.flatten.length) := by
  induction fuel generalizing written s with
  | zero => omega
  | succ fuel ih =>
      have hlen : (buf.drop written).length = buf.length - written := List.length_drop
      by_cases hdone : buf.length ≤ written
      · refine Or.inr ⟨[], ?_, .nil fun hne => ?_, fun hne => ?_⟩
        · rw [writeLoop, if_pos hdone]
          rfl
        · exact absurd (List.drop_of_length_le hdone) hne
        · have hpos := List.length_pos_iff.mpr hne
          omega
      have hleft : written < buf.length := by omega
      by_cases hroom : s.inflight + min (buf.length - written) udxMaxDataSize ≤ s.cwnd
      · have hstep : 0 < min (buf.length - written) udxMaxDataSize := by
          unfold udxMaxDataSize
          omega
        rw [writeLoop_admits fuel written hleft hroom, ← hlen]
        rw [← hlen] at hstep
        rcases ih (written + min (buf.drop written).length udxMaxDataSize) _ (by omega) (by omega) with
          ⟨hzero, -⟩ | ⟨bodies, hloop, hchunked, -⟩
        · omega
        · let body := (buf.drop written).take (min (buf.drop written).length udxMaxDataSize)
          have hbody : body.length = min (buf.drop written).length udxMaxDataSize := by
            rw [List.length_take]
            omega
          have hflatten : written + (body :: bodies).flatten.length =
              written + min (buf.drop written).length udxMaxDataSize + bodies.flatten.length := by
            rw [List.flatten_cons, List.length_append, hbody, Nat.add_assoc]
          refine Or.inr ⟨body :: bodies, ?_, .cons (List.length_pos_iff.mp (by omega)) ?_, fun _ => by omega⟩
          · rw [hloop, hflatten]
            rfl
          · rw [List.drop_drop]
            exact hchunked
      · rw [writeLoop_full fuel written hleft (by omega)]
        split_ifs with hzero
        · exact Or.inl ⟨hzero, rfl⟩
        · have hfull : s.cwnd < s.inflight + min (buf.drop written).length udxMaxDataSize := by omega
          exact Or.inr ⟨[], rfl, .nil fun _ => hfull, fun _ => by omega⟩

/-! ### The packets that are added -/

/-- Packets added to a stream: they have the numbers from the old `seq` on, they are at the end of the queue and in
`outgoing`, where nothing else has changed, and their bytes decode to a data header for the remote. -/
structure Added (s t : UdxStreamInner) (packets : List Packet) : Prop where
  numbers : packets.map Packet.seq = Counter.range s.seq t.seq
  queued : t.sendQueue = s.sendQueue ++ packets.map .shared
  outgoing : ∀ packet ∈ packets, t.outgoing.lookup packet.seq = some packet
  others : ∀ k, k ∉ Counter.range s.seq t.seq → t.outgoing.lookup k = s.outgoing.lookup k
  decodes : ∀ packet ∈ packets, ∃ header, Header.fromBytes packet.buf.asSlice = .ok header ∧
    header.typ = udxHeaderData ∧ header.seq = packet.seq ∧ header.streamId = s.remoteId

theorem dataPacket_body (s : UdxStreamInner) (body : List UInt8) : (s.dataPacket now body).body = body :=
  Packet.new_body s.remoteAddr (s.createHeader udxHeaderData) body

/-- A stream that is open makes data packets. -/
theorem dataPacket_decodes {s : UdxStreamInner} (hopen : s.state.isLocalClosed = false) (body : List UInt8) :
    ∃ header, Header.fromBytes (s.dataPacket now body).buf.asSlice = .ok header ∧
      header.typ = udxHeaderData ∧ header.seq = (s.dataPacket now body).seq ∧ header.streamId = s.remoteId :=
  ⟨s.createHeader udxHeaderData, createPacket_encoded hopen body, createHeader_typ hopen _, rfl, rfl⟩

/-- One packet and then others. -/
theorem Added.cons {s t : UdxStreamInner} {body : List UInt8} {packets : List Packet}
    (hopen : s.state.isLocalClosed = false) (hlt : s.seq < t.seq) (h : Added (s.pushData now body) t packets) :
    Added s t (s.dataPacket now body :: packets) := by
  have hrange : Counter.range s.seq t.seq = s.seq :: Counter.range (s.seq + 1) t.seq := Counter.range_eq_cons hlt
  have hlater : s.seq ∉ Counter.range (s.seq + 1) t.seq := by
    intro hmem
    have hle := UInt32.le_iff_toNat_le.mp (Counter.mem_range.mp hmem).1
    rw [Counter.toNat_succ_of_lt hlt] at hle
    omega
  constructor
  · rw [List.map_cons, h.numbers, hrange]
    rfl
  · rw [h.queued, List.map_cons]
    exact List.append_assoc _ _ _
  · refine List.forall_mem_cons.mpr ⟨?_, h.outgoing⟩
    exact (h.others s.seq hlater).trans (AList.lookup_insert _)
  · intro k hk
    rw [hrange, List.mem_cons, not_or] at hk
    exact (h.others k hk.2).trans (AList.lookup_insert_ne hk.1)
  · exact List.forall_mem_cons.mpr ⟨dataPacket_decodes hopen body, h.decodes⟩

theorem pushAll_seq (now : Nat) (bodies : List (List UInt8)) {s : UdxStreamInner}
    (hfar : s.seq.toNat + bodies.length < 2 ^ 32) :
    (s.pushAll now bodies).seq.toNat = s.seq.toNat + bodies.length := by
  induction bodies generalizing s with
  | nil => rfl
  | cons body rest ih =>
      rw [List.length_cons] at hfar ⊢
      have hnext : (s.pushData now body).seq.toNat = s.seq.toNat + 1 := Counter.toNat_succ (by omega)
      have hrest := @ih (s.pushData now body) (by omega)
      rw [hnext] at hrest
      change ((s.pushData now body).pushAll now rest).seq.toNat = _
      omega

/-- **Admitted chunks become packets.** -/
theorem pushAll_added (now : Nat) (bodies : List (List UInt8)) {s : UdxStreamInner}
    (hopen : s.state.isLocalClosed = false) (hfar : s.seq.toNat + bodies.length < 2 ^ 32) :
    ∃ packets, Added s (s.pushAll now bodies) packets ∧ packets.map Packet.body = bodies := by
  induction bodies generalizing s with
  | nil =>
      refine ⟨[], ⟨(Counter.range_of_le (UInt32.le_refl s.seq)).symm, (List.append_nil _).symm, ?_, fun _ _ => rfl, ?_⟩,
        rfl⟩
      · exact fun _ h => absurd h List.not_mem_nil
      · exact fun _ h => absurd h List.not_mem_nil
  | cons body rest ih =>
      have hseq := pushAll_seq now (body :: rest) hfar
      rw [List.length_cons] at hfar hseq
      have hnext : (s.pushData now body).seq.toNat = s.seq.toNat + 1 := Counter.toNat_succ (by omega)
      obtain ⟨packets, hadded, hbodies⟩ := @ih (s.pushData now body) hopen (by omega)
      have hlt : s.seq < (s.pushAll now (body :: rest)).seq := UInt32.lt_iff_toNat_lt.mpr (by omega)
      refine ⟨s.dataPacket now body :: packets, Added.cons hopen hlt hadded, ?_⟩
      rw [List.map_cons, dataPacket_body, hbodies]

/-! ### A write -/

/-- What a write that returns `n` has done. -/
structure Written (s t : UdxStreamInner) (buf : List UInt8) (n : Nat) : Prop where
  le_length : n ≤ buf.length
  pos : buf ≠ [] → 0 < n
  added : ∃ packets, Added s t packets ∧ (packets.map Packet.body).flatten = buf.take n ∧
    ∀ packet ∈ packets, 1 ≤ packet.body.length ∧ packet.body.length ≤ udxMaxDataSize
  stopped : n < buf.length → t.cwnd < t.inflight + min (buf.length - n) udxMaxDataSize
  /-- The numbers were free, as long as fewer than `2 ^ 32` packets have been created. -/
  fresh : FewCreated s → ∀ k ∈ Counter.range s.seq t.seq, k ∉ s.outgoing

/-- Chunks that were admitted make up a write. -/
theorem Chunked.written {u : UdxStream} (hu : u.Reachable) (hopen : u.inner.state.isLocalClosed = false)
    {buf : List UInt8} {bodies : List (List UInt8)} (hchunked : Chunked (u.inner.pushAll now bodies) buf bodies)
    (hpos : buf ≠ [] → 0 < bodies.flatten.length)
    (hfar : u.inner.seq.toNat + (buf.length + udxMaxDataSize - 1) / udxMaxDataSize < 2 ^ 32) :
    Written u.inner (u.inner.pushAll now bodies) buf bodies.flatten.length := by
  have hcount := hchunked.count_le
  obtain ⟨packets, hadded, hbodies⟩ := pushAll_added now bodies hopen (by omega)
  constructor
  · exact hchunked.start.length_le
  · exact hpos
  · refine ⟨packets, hadded, ?_, fun packet hpacket => ?_⟩
    · rw [hbodies]
      exact List.prefix_iff_eq_take.mp hchunked.start
    · exact hchunked.sizes _ (hbodies ▸ List.mem_map_of_mem hpacket)
  · exact hchunked.stopped
  · intro hfew k hk hmem
    have haccounted : Accounted u.inner.sendSide :=
      accounted_invariant.reachable (fun _ _ _ => trivial) hu hfew
    exact UInt32.not_le.mpr (haccounted.keys_lt k hmem) (Counter.mem_range.mp hk).1

/-- **Writes are exact and atomic.** A write that returns an error has changed nothing, one that is pending has left its
waker, and one that returns `n` has added the packets that carry the first `n` bytes. -/
theorem pollWrite_exact {u : UdxStream} (hu : u.Reachable) (now : Nat) (waker : Waker) (buf : List UInt8)
    (hfar : u.inner.seq.toNat + (buf.length + udxMaxDataSize - 1) / udxMaxDataSize < 2 ^ 32) :
    match u.inner.pollWrite now waker buf with
    | (t, .ready (.error _)) => t = u.inner
    | (t, .pending) => t = { u.inner with writeWaker := some waker }
    | (t, .ready (.ok n)) => Written u.inner t buf n := by
  cases herror : u.inner.error with
  | some error => simp only [pollWrite, herror]
  | none =>
      have hopen : u.inner.state.isLocalClosed = false := by
        have hiff := (closedTogether_invariant.of_reachable hu).error_iff
        rw [herror] at hiff
        simpa using hiff
      by_cases hempty : buf = []
      · have hnothing : Written u.inner (u.inner.pushAll now []) buf ([] : List (List UInt8)).flatten.length :=
          Chunked.written hu hopen (.nil fun h => absurd hempty h) (fun h => absurd hempty h) hfar
        have hresult : u.inner.pollWrite now waker buf = (u.inner, .ready (.ok 0)) := by
          rw [pollWrite, herror, hempty]
          rfl
        rw [hresult]
        exact hnothing
      · rw [pollWrite_eq herror hempty]
        rcases writeLoop_chunks now waker (buf.length + 1) 0 u.inner (Nat.zero_le buf.length) (by omega) with
          ⟨-, hloop⟩ | ⟨bodies, hloop, hchunked, hpos⟩
        · rw [hloop]
        · rw [Nat.zero_add] at hloop hpos
          rw [hloop]
          rw [List.drop_zero] at hchunked
          exact hchunked.written hu hopen hpos hfar

/-- A write of two bytes on a fresh stream. -/
theorem pollWrite_exact_two :
    let u := UdxStream.connect 0 ⟨.v4 0, 2⟩ 2 1
    let written := u.inner.pollWrite 0 0 [1, 2]
    written.2 = .ready (.ok 2) ∧ Written u.inner written.1 [1, 2] 2 :=
  ⟨by decide, pollWrite_exact ⟨0, ⟨.v4 0, 2⟩, 2, 1, [], rfl⟩ 0 0 [1, 2] (by decide)⟩

end AsyncUdx
