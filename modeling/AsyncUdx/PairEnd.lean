import AsyncUdx.PairDelivery
import AsyncUdx.TerminationReason

/-! The end of a stream as its reader sees it. END travels in a state packet of its own, without a sequence
number, and terminates the receiver when it is handled, whether the data sent before it has arrived or not.
From then on a read that finishes no packet reports the end, also when data is missing, and also when the next
packet is there but longer than the buffer. -/

namespace AsyncUdx

open Relation UdxStreamInner Reassembly

/-- The packet at the read cursor is there, and what is left of it fits a buffer. -/
def Fits (s : UdxStreamInner) (capacity : Nat) : Prop :=
  ∃ packet, s.incoming.lookup s.readCursor = some packet ∧
    usizeSub packet.buf.length packet.readOffset ≤ capacity

/-- If a read of a stream reports the end, everything its peer has accepted has been read. -/
def EndAfterAll (u v : UdxStream) (waker : Waker) (capacity : Nat) : Prop :=
  ∀ err, (v.inner.pollRead waker capacity).2.2 = .ready (.error err) → err.kind = .unexpectedEof →
    ({ v with inner := (v.inner.pollRead waker capacity).1 } : UdxStream).deliveredBytes = u.accepted

/-- The stream was not closed by its peer, or the read finishes a packet, or the reader has passed the last
packet of the peer. -/
def ReadsOn (u v : UdxStream) (capacity : Nat) : Prop :=
  (∀ error, v.inner.error = some error → error.kind ≠ .unexpectedEof) ∨ Fits v.inner capacity ∨
    v.inner.readCursor = u.inner.seq

/-! ### What a read returns -/

/-- A read that finishes no packet finds none at the cursor, or takes a part of the one it finds. -/
theorem readNext_of_not_fits {s : UdxStreamInner} {capacity : Nat} (h : ¬Fits s capacity) :
    (s.readNext capacity).2.2 = false ∧
      (s.incoming.lookup s.readCursor = none ∧ (s.readNext capacity).1 = s ∨
        ∃ packet, s.incoming.lookup s.readCursor = some packet ∧
          capacity < usizeSub packet.buf.length packet.readOffset ∧
          (s.readNext capacity).1 = s.readPart packet capacity) := by
  unfold readNext
  cases hlookup : s.incoming.lookup s.readCursor with
  | none =>
      cases s.incoming.size with
      | zero => exact ⟨rfl, Or.inl ⟨rfl, rfl⟩⟩
      | succ fuel =>
          rw [readLoop, hlookup]
          exact ⟨rfl, Or.inl ⟨rfl, rfl⟩⟩
  | some packet =>
      have hlong : capacity < usizeSub packet.buf.length packet.readOffset :=
        Nat.lt_of_not_le fun hle => h ⟨packet, hlookup, hle⟩
      rw [AList.size_of_lookup hlookup, readLoop, hlookup]
      dsimp only
      rw [if_pos hlong]
      exact ⟨rfl, Or.inr ⟨packet, rfl, hlong, rfl⟩⟩

theorem readNext_of_fits {s : UdxStreamInner} {capacity : Nat} (h : Fits s capacity) :
    (s.readNext capacity).2.2 = true := by
  obtain ⟨packet, hlookup, hle⟩ := h
  unfold readNext
  rw [AList.size_of_lookup hlookup, readLoop, hlookup]
  dsimp only
  rw [if_neg (Nat.not_lt.mpr hle)]

theorem pollRead_of_fits {s : UdxStreamInner} {capacity : Nat} (h : Fits s capacity) (waker : Waker) :
    (s.pollRead waker capacity).2.2 = .ready (.ok ()) := by
  have hflag := readNext_of_fits h
  unfold pollRead
  split
  · rfl
  · rename_i s' bytes heq
    rw [heq] at hflag
    cases hflag

/-- A read that finishes no packet reports the error of the stream. -/
theorem pollRead_of_not_fits {s : UdxStreamInner} {capacity : Nat} (h : ¬Fits s capacity) (waker : Waker) :
    (s.pollRead waker capacity).1.recvSide = (s.readNext capacity).1.recvSide ∧
      ∀ error, s.error = some error → (s.pollRead waker capacity).2.2 = .ready (.error error.toIo) := by
  obtain ⟨hflag, hstate⟩ := readNext_of_not_fits h
  have hsame : (s.readNext capacity).1.error = s.error := by
    rcases hstate with ⟨-, heq⟩ | ⟨packet, -, -, heq⟩ <;> rw [heq]
    rfl
  unfold pollRead
  split
  · rename_i s' bytes heq
    rw [heq] at hflag
    cases hflag
  · rename_i s' bytes heq
    rw [heq] at hsame ⊢
    refine ⟨by split <;> rfl, fun error herror => ?_⟩
    rw [hsame.trans herror]

/-! ### Everything was read -/

/-- A reader that has not stopped at the end of a packet has read everything exactly if it has passed the last
packet created. -/
theorem Receives.delivered_all_iff {created : List Packet} {v : RecvSide} (hv : Receives created v)
    (hne : ∀ packet ∈ created, packet.body ≠ [])
    (hshort : v.readCursor ∈ v.incoming → v.offset < (v.payload v.readCursor.toNat).length) :
    (v.delivered.map Prod.snd).flatten = (created.map Packet.body).flatten ↔
      v.readCursor.toNat = created.length := by
  rw [hv.reassembled.bytes_eq, ← List.length_map Packet.body]
  refine consumed_eq_flatten_iff hv.payload_lt ?_ ?_ ?_
  · intro body hbody
    obtain ⟨packet, hpacket, rfl⟩ := List.mem_map.mp hbody
    exact hne packet hpacket
  · by_cases hmem : v.readCursor ∈ v.incoming
    · exact Or.inr ⟨hv.payload_cursor hmem, hshort hmem⟩
    · left
      rw [RecvSide.offset, AList.lookup_eq_none.mpr hmem]
      rfl
  · rw [List.length_map]
    exact Nat.le_trans (UInt32.le_iff_toNat_le.mp hv.reassembled.cursor_le) hv.ack_le

/-- A part of a packet that is longer than the buffer leaves some of it unread. -/
theorem readPart_offset_lt {s : UdxStreamInner} (hs : Reassembled s.recvSide) {packet : IncomingPacket}
    {capacity : Nat} (hlookup : s.incoming.lookup s.readCursor = some packet)
    (hlong : capacity < usizeSub packet.buf.length packet.readOffset) :
    let v := (s.readPart packet capacity).recvSide
    v.offset < (v.payload v.readCursor.toNat).length := by
  intro v
  have hfiled := hs.filed _ _ hlookup
  have hpart : v.incoming.lookup v.readCursor =
      some { packet with readOffset := packet.readOffset + capacity } := by
    have h := s.recvSide.readPart_lookup packet capacity hfiled.seq_eq s.readCursor
    exact h.trans (if_pos rfl)
  have hafter : Reassembled v := readPart_reassembled hs hlookup hlong
  rw [v.offset_eq hpart, hafter.payload_cursor hpart]
  rw [usizeSub_of_le hfiled.offset_le] at hlong
  change packet.readOffset + capacity < packet.buf.length
  omega

/-- After a read that finishes no packet, everything was read exactly if the reader has passed the last packet
of its peer. -/
theorem Flow.read_all_iff {u v : UdxStream} (h : Flow u v) {capacity : Nat} (hfits : ¬Fits v.inner capacity)
    (hfew : FewCreated u.inner) (waker : Waker) :
    ({ v with inner := (v.inner.pollRead waker capacity).1 } : UdxStream).deliveredBytes = u.accepted ↔
      v.inner.readCursor = u.inner.seq := by
  have hread : Moves (FromPeer u.inner.ghost.created) 0 v.inner (v.inner.readNext capacity).1 :=
    readLoop_moves _ _ v.inner
  have hafter : Receives u.inner.ghost.created (v.inner.readNext capacity).1.recvSide :=
    chain_invariant (fun s => Receives u.inner.ghost.created s.recvSide) (fun _ _ h => h.receives hfew) hread
      h.receives
  have hne : ∀ packet ∈ u.inner.ghost.created, packet.body ≠ [] := by
    intro packet hpacket
    obtain ⟨n, hn⟩ := List.mem_iff_getElem?.mp hpacket
    exact (h.emits.created n packet hn).body
  have hseq : u.inner.seq.toNat = u.inner.ghost.created.length := h.emits.seq_eq
  change ((v.inner.pollRead waker capacity).1.recvSide.delivered.map Prod.snd).flatten = _ ↔ _
  rw [(pollRead_of_not_fits hfits waker).1, h.accepted, createdBytes, ← UInt32.toNat_inj, hseq]
  rcases (readNext_of_not_fits hfits).2 with ⟨hnone, heq⟩ | ⟨packet, hlookup, hlong, heq⟩ <;> rw [heq] at hafter ⊢
  · exact hafter.delivered_all_iff hne fun hmem => absurd hmem (AList.lookup_eq_none.mp hnone)
  · exact hafter.delivered_all_iff hne fun _ => readPart_offset_lt h.receives.reassembled hlookup hlong

/-- **When the end is reported in order.** In every run of two connected streams, a read that reports the end
of the stream comes after everything was read exactly if the stream was not closed by its peer, or the read
finishes a packet and reports no end, or the reader has passed the last packet of the peer. -/
theorem endAfterAll_iff {p : Pair} (hp : p.Reachable) (x : Side) (hfew : FewCreated (p.peer x).inner)
    (waker : Waker) (capacity : Nat) :
    EndAfterAll (p.peer x) (p.peer x.other) waker capacity ↔ ReadsOn (p.peer x) (p.peer x.other) capacity := by
  have hflow := hp.flow x hfew
  by_cases hfits : Fits (p.peer x.other).inner capacity
  · refine ⟨fun _ => Or.inr (Or.inl hfits), fun _ err hreturn => ?_⟩
    rw [pollRead_of_fits hfits] at hreturn
    cases hreturn
  · have hall := hflow.read_all_iff hfits hfew waker
    constructor
    · intro h
      by_cases hclosed : ∃ error, (p.peer x.other).inner.error = some error ∧ error.kind = .unexpectedEof
      · obtain ⟨error, herror, hkind⟩ := hclosed
        exact Or.inr (Or.inr (hall.mp (h _ ((pollRead_of_not_fits hfits waker).2 error herror) hkind)))
      · exact Or.inl fun error herror hkind => hclosed ⟨error, herror, hkind⟩
    · rintro (hopen | hfits' | hcursor) err hreturn hkind
      · obtain ⟨error, herror, rfl⟩ := pollRead_error hreturn
        exact absurd hkind (hopen error herror)
      · exact absurd hfits' hfits
      · exact hall.mpr hcursor

/-- A write and a `close` whose packets both arrive. -/
def endInOrderRun : List PairEvent :=
  [.call .a (.write 0 [1, 2, 3]), .call .a .close, .call .a (.poll 0 0 10 1), .deliver .a 0, .deliver .a 1,
    .call .b (.poll 0 0 10 1), .call .b (.read 0 8)]

theorem endAfterAll_endInOrder :
    let p := Runs.run Pair.step (.connect 0 0 ⟨.v4 0, 1⟩ ⟨.v4 0, 2⟩ 1 2) endInOrderRun
    FewCreated p.a.inner ∧ p.b.inner.readCursor = p.a.inner.seq ∧ EndAfterAll p.a p.b 0 8 := by
  have hcursor : (Runs.run Pair.step (.connect 0 0 ⟨.v4 0, 1⟩ ⟨.v4 0, 2⟩ 1 2) endInOrderRun).b.inner.readCursor =
      (Runs.run Pair.step (.connect 0 0 ⟨.v4 0, 1⟩ ⟨.v4 0, 2⟩ 1 2) endInOrderRun).a.inner.seq := by decide
  refine ⟨by decide, hcursor, ?_⟩
  exact (endAfterAll_iff ⟨0, 0, ⟨.v4 0, 1⟩, ⟨.v4 0, 2⟩, 1, 2, endInOrderRun, rfl⟩ .a (by decide) 0 8).mpr
    (Or.inr (Or.inr hcursor))

/-- The same write and `close`; the network loses the data packet and delivers END. -/
def endOvertakesRun : List PairEvent :=
  [.call .a (.write 0 [1, 2, 3]), .call .a .close, .call .a (.poll 0 0 10 1), .deliver .a 1,
    .call .b (.poll 0 0 10 1)]

/-- The reader is told the end of the stream before it has read any of the three bytes that were accepted. -/
theorem endOvertakesRun_ends_early :
    let p := Runs.run Pair.step (.connect 0 0 ⟨.v4 0, 1⟩ ⟨.v4 0, 2⟩ 1 2) endOvertakesRun
    p.a.accepted = [1, 2, 3] ∧ (p.b.inner.pollRead 0 8).2.2 = .ready (.error ⟨.unexpectedEof, ""⟩) ∧
      ({ p.b with inner := (p.b.inner.pollRead 0 8).1 } : UdxStream).deliveredBytes = [] := by
  decide

end AsyncUdx
