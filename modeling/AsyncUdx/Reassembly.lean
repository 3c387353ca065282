import AsyncUdx.BaseReassembly
import AsyncUdx.PollIncoming
import AsyncUdx.StreamTask

/-! Reassembly of incoming data. The history variables record which numbers were received and the payload
kept under each; the invariant compares with them the two cursors of a stream and the map between the
cursors. It holds for any traffic, as long as some sequence number is never received: a stream that
receives all of them never leaves the loop that advances `ack`. -/

namespace AsyncUdx

open Relation UdxStreamInner Reassembly

variable {ok : IncomingPacket → Prop} {now : Nat}

/-- The fields of a stream that concern what it has received. -/
structure RecvSide where
  incoming : SeqMap IncomingPacket
  ack : UInt32
  readCursor : UInt32
  received : List UInt32
  kept : SeqMap (List UInt8)
  delivered : List (UInt32 × List UInt8)

def UdxStreamInner.recvSide (s : UdxStreamInner) : RecvSide where
  incoming := s.incoming
  ack := s.ack
  readCursor := s.readCursor
  received := s.ghost.received
  kept := s.ghost.kept
  delivered := s.ghost.delivered

namespace RecvSide

/-- The payload kept under the number `n`. -/
def payload (v : RecvSide) (n : Nat) : List UInt8 := (v.kept.lookup (UInt32.ofNat n)).getD []

/-- How far the packet at the read cursor has been read. -/
def offset (v : RecvSide) : Nat := ((v.incoming.lookup v.readCursor).map IncomingPacket.readOffset).getD 0

/-- What should have been read of the packet with the number `k`. -/
def readOf (v : RecvSide) (k : UInt32) : List UInt8 :=
  if k < v.readCursor then v.payload k.toNat
  else if k = v.readCursor then (v.payload k.toNat).take v.offset
  else []

/-- What was read of the packet with the number `k`. -/
def slicesOf (v : RecvSide) (k : UInt32) : List UInt8 :=
  ((v.delivered.filter fun slice => slice.1 = k).map Prod.snd).flatten

end RecvSide

/-- A packet in the map: it is filed under its own number, and partly read only at the cursor. -/
structure Filed (v : RecvSide) (k : UInt32) (packet : IncomingPacket) : Prop where
  seq_eq : packet.header.seq = k
  kept_eq : v.kept.lookup k = some packet.buf
  offset_le : packet.readOffset ≤ packet.buf.length
  offset_zero : k ≠ v.readCursor → packet.readOffset = 0

structure Reassembled (v : RecvSide) : Prop where
  least : LeastMissing v.received v.ack
  cursor_le : v.readCursor ≤ v.ack
  keys_iff : ∀ k, k ∈ v.incoming ↔ k ∈ v.received ∧ v.readCursor ≤ k
  kept_iff : ∀ k, k ∈ v.kept ↔ k ∈ v.received
  filed : ∀ k packet, v.incoming.lookup k = some packet → Filed v k packet
  bytes_eq : (v.delivered.map Prod.snd).flatten = consumed v.payload v.readCursor.toNat v.offset
  slices_eq : ∀ k, v.slicesOf k = v.readOf k
  numbers_le : ∀ k ∈ v.delivered.map Prod.fst, k ≤ v.readCursor ∧ k < v.ack
  numbers_sorted : (v.delivered.map Prod.fst).Pairwise (· ≤ ·)

/-! ### The acknowledgement loop -/

/-- The loop stops at the first number from `ack` on that is not a key, if there is one. -/
theorem advanceAck_spec {incoming : SeqMap IncomingPacket} {m : UInt32} (hm : m ∉ incoming) (fuel : Nat)
    (ack : UInt32) (hle : ack ≤ m) (hfuel : m.toNat - ack.toNat < fuel) :
    advanceAck incoming fuel ack ∉ incoming ∧ ack ≤ advanceAck incoming fuel ack ∧
      ∀ k, ack ≤ k → k < advanceAck incoming fuel ack → k ∈ incoming := by
  induction fuel generalizing ack with
  | zero => omega
  | succ fuel ih =>
      rw [advanceAck]
      split
      · rename_i hmem
        have hlt : ack < m := by
          refine Std.lt_of_le_of_ne hle ?_
          rintro rfl
          exact hm hmem
        have hsucc := Counter.toNat_succ_of_lt hlt
        have hltNat := UInt32.lt_iff_toNat_lt.mp hlt
        obtain ⟨hnot, hge, hall⟩ := ih (ack + 1) (UInt32.le_iff_toNat_le.mpr (by omega)) (by omega)
        refine ⟨hnot, ?_, fun k hk hk' => ?_⟩
        · rw [UInt32.le_iff_toNat_le] at hge ⊢
          omega
        · by_cases heq : k = ack
          · rw [heq]
            exact hmem
          · refine hall k ?_ hk'
            have hne : k.toNat ≠ ack.toNat := fun h => heq (UInt32.toNat.inj h)
            rw [UInt32.le_iff_toNat_le] at hk ⊢
            omega
      · rename_i hnot
        refine ⟨hnot, UInt32.le_refl _, fun k hk hk' => ?_⟩
        exact absurd hk (UInt32.not_le.mpr hk')

/-! ### A data packet -/

namespace RecvSide

/-- A packet that is not older than what was acknowledged is kept, and its number is received. -/
def file (v : RecvSide) (packet : IncomingPacket) : RecvSide :=
  { v with
    incoming := if v.ack ≤ packet.seq then v.incoming.insert packet.seq packet else v.incoming
    received := v.received ++ [packet.seq]
    kept := if v.ack ≤ packet.seq then v.kept.insert packet.seq packet.buf else v.kept }

theorem file_offset {v : RecvSide} (hv : Reassembled v) {packet : IncomingPacket} (hfresh : packet.readOffset = 0) :
    (v.file packet).offset = v.offset := by
  unfold file offset
  dsimp only
  split_ifs with hle
  · by_cases hcursor : v.readCursor = packet.seq
    · -- the cursor has caught up with `ack`, so there was no packet at the cursor before
      have hnone : v.incoming.lookup v.readCursor = none := by
        rw [AList.lookup_eq_none]
        intro hmem
        have hack : v.ack = v.readCursor := UInt32.le_antisymm (hcursor ▸ hle) hv.cursor_le
        exact hv.least.1 (hack ▸ ((hv.keys_iff _).mp hmem).1)
      rw [hnone, hcursor, AList.lookup_insert, Option.map_some, Option.getD_some, hfresh]
      rfl
    · rw [AList.lookup_insert_ne hcursor]
  · rfl

theorem mem_file_incoming {v : RecvSide} (hv : Reassembled v) (packet : IncomingPacket) (k : UInt32) :
    k ∈ (v.file packet).incoming ↔ k ∈ (v.file packet).received ∧ v.readCursor ≤ k := by
  unfold file
  dsimp only
  rw [List.mem_append, List.mem_singleton]
  split_ifs with hle
  · rw [AList.mem_insert, hv.keys_iff]
    constructor
    · rintro (rfl | ⟨hk, hcursor⟩)
      · exact ⟨Or.inr rfl, UInt32.le_trans hv.cursor_le hle⟩
      · exact ⟨Or.inl hk, hcursor⟩
    · rintro ⟨hk | hk, hcursor⟩
      · exact Or.inr ⟨hk, hcursor⟩
      · exact Or.inl hk
  · have hold : packet.seq ∈ v.received := hv.least.2 _ (UInt32.not_le.mp hle)
    rw [hv.keys_iff]
    constructor
    · exact fun ⟨hk, hcursor⟩ => ⟨Or.inl hk, hcursor⟩
    · rintro ⟨hk | rfl, hcursor⟩
      · exact ⟨hk, hcursor⟩
      · exact ⟨hold, hcursor⟩

theorem mem_file_kept {v : RecvSide} (hv : Reassembled v) (packet : IncomingPacket) (k : UInt32) :
    k ∈ (v.file packet).kept ↔ k ∈ (v.file packet).received := by
  unfold file
  dsimp only
  rw [List.mem_append, List.mem_singleton]
  split_ifs with hle
  · rw [AList.mem_insert, hv.kept_iff, or_comm]
  · have hold : packet.seq ∈ v.received := hv.least.2 _ (UInt32.not_le.mp hle)
    rw [hv.kept_iff]
    exact ⟨Or.inl, fun h => h.elim id fun h => h ▸ hold⟩

theorem file_filed {v : RecvSide} (hv : Reassembled v) {packet : IncomingPacket} (hfresh : packet.readOffset = 0)
    {k : UInt32} {p : IncomingPacket} (hlookup : (v.file packet).incoming.lookup k = some p) :
    Filed (v.file packet) k p := by
  unfold file at hlookup ⊢
  dsimp only at hlookup
  split_ifs at hlookup ⊢ with hle
  · rcases AList.lookup_insert_eq_some hlookup with ⟨rfl, rfl⟩ | ⟨hne, hlookup⟩
    · exact ⟨rfl, AList.lookup_insert _, by omega, fun _ => hfresh⟩
    · obtain ⟨hseq, hkept, hlen, hzero⟩ := hv.filed k p hlookup
      exact ⟨hseq, by rw [← hkept]; exact AList.lookup_insert_ne hne, hlen, hzero⟩
  · obtain ⟨hseq, hkept, hlen, hzero⟩ := hv.filed k p hlookup
    exact ⟨hseq, hkept, hlen, hzero⟩

/-- Filing a packet changes no payload below `ack`. -/
theorem file_payload {v : RecvSide} (packet : IncomingPacket) {n : Nat} (hn : n < v.ack.toNat) :
    (v.file packet).payload n = v.payload n := by
  unfold file payload
  dsimp only
  split_ifs with hle
  · have hack := v.ack.toNat_lt
    have hne : UInt32.ofNat n ≠ packet.seq := by
      intro heq
      have hseq := UInt32.le_iff_toNat_le.mp hle
      rw [← heq, Counter.toNat_ofNat (by omega)] at hseq
      omega
    rw [AList.lookup_insert_ne hne]
  · rfl

/-- Filing a packet changes no payload that was read of. -/
theorem file_payload_cursor {v : RecvSide} (hv : Reassembled v) (packet : IncomingPacket) :
    v.offset = 0 ∨ (v.file packet).payload v.readCursor.toNat = v.payload v.readCursor.toNat := by
  have hle := UInt32.le_iff_toNat_le.mp hv.cursor_le
  by_cases hmem : v.readCursor ∈ v.incoming
  · refine Or.inr (file_payload packet ?_)
    have hne : v.readCursor.toNat ≠ v.ack.toNat := fun h =>
      hv.least.1 (UInt32.toNat.inj h ▸ ((hv.keys_iff _).mp hmem).1)
    omega
  · left
    rw [offset, AList.lookup_eq_none.mpr hmem]
    rfl

theorem file_consumed {v : RecvSide} (hv : Reassembled v) (packet : IncomingPacket) :
    consumed (v.file packet).payload v.readCursor.toNat v.offset =
      consumed v.payload v.readCursor.toNat v.offset := by
  have hle := UInt32.le_iff_toNat_le.mp hv.cursor_le
  exact consumed_congr _ (fun k hk => file_payload packet (by omega)) (file_payload_cursor hv packet)

theorem file_readOf {v : RecvSide} (hv : Reassembled v) {packet : IncomingPacket} (hfresh : packet.readOffset = 0)
    (k : UInt32) : (v.file packet).readOf k = v.readOf k := by
  have hle := UInt32.le_iff_toNat_le.mp hv.cursor_le
  rw [readOf, readOf, file_offset hv hfresh]
  change (if k < v.readCursor then _ else if k = v.readCursor then _ else _) = _
  split_ifs with hlt heq
  · have hltNat := UInt32.lt_iff_toNat_lt.mp hlt
    exact file_payload packet (by omega)
  · subst heq
    rcases file_payload_cursor hv packet with hzero | hsame
    · rw [hzero, List.take_zero, List.take_zero]
    · rw [hsame]
  · rfl

end RecvSide

/-- **A data packet.** Its number joins the received ones, and `ack` moves to the least one missing. -/
theorem data_reassembled {v : RecvSide} (hv : Reassembled v) {packet : IncomingPacket}
    (hfresh : packet.readOffset = 0) {m : UInt32} (hm : m ∉ (v.file packet).received) :
    Reassembled { v.file packet with ack := advanceAck (v.file packet).incoming (2 ^ 32) v.ack } := by
  have hkeys := RecvSide.mem_file_incoming hv packet
  have hmissing : m ∉ v.received := fun h => hm (List.mem_append_left _ h)
  have hmlt := m.toNat_lt
  obtain ⟨hstop, hge, hpassed⟩ := advanceAck_spec (fun h => hm ((hkeys m).mp h).1) (2 ^ 32) v.ack
    (hv.least.le_of_notMem hmissing) (by omega)
  constructor
  · refine ⟨fun h => hstop ((hkeys _).mpr ⟨h, UInt32.le_trans hv.cursor_le hge⟩), fun k hk => ?_⟩
    by_cases hold : v.ack ≤ k
    · exact ((hkeys k).mp (hpassed k hold hk)).1
    · exact List.mem_append_left _ (hv.least.2 k (UInt32.not_le.mp hold))
  · exact UInt32.le_trans hv.cursor_le hge
  · exact hkeys
  · exact RecvSide.mem_file_kept hv packet
  · intro k p hlookup
    obtain ⟨hseq, hkept, hlen, hzero⟩ := RecvSide.file_filed hv hfresh hlookup
    exact ⟨hseq, hkept, hlen, hzero⟩
  · change (v.delivered.map Prod.snd).flatten = consumed (v.file packet).payload v.readCursor.toNat
      (v.file packet).offset
    rw [RecvSide.file_offset hv hfresh, RecvSide.file_consumed hv packet, hv.bytes_eq]
  · exact fun k => (hv.slices_eq k).trans (RecvSide.file_readOf hv hfresh k).symm
  · intro k hk
    exact ⟨(hv.numbers_le k hk).1, UInt32.lt_of_lt_of_le (hv.numbers_le k hk).2 hge⟩
  · exact hv.numbers_sorted

/-! ### Reading -/

/-- A packet at the cursor has been received, so the cursor is below `ack`. -/
theorem Reassembled.cursor_lt {v : RecvSide} (hv : Reassembled v) {packet : IncomingPacket}
    (hlookup : v.incoming.lookup v.readCursor = some packet) : v.readCursor < v.ack := by
  refine Std.lt_of_le_of_ne hv.cursor_le fun heq => hv.least.1 ?_
  rw [← heq]
  exact ((hv.keys_iff _).mp (AList.mem_of_lookup hlookup)).1

theorem Reassembled.payload_cursor {v : RecvSide} (hv : Reassembled v) {packet : IncomingPacket}
    (hlookup : v.incoming.lookup v.readCursor = some packet) : v.payload v.readCursor.toNat = packet.buf := by
  rw [RecvSide.payload, UInt32.ofNat_toNat, (hv.filed _ _ hlookup).kept_eq, Option.getD_some]

theorem RecvSide.offset_eq (v : RecvSide) {packet : IncomingPacket}
    (hlookup : v.incoming.lookup v.readCursor = some packet) : v.offset = packet.readOffset := by
  rw [RecvSide.offset, hlookup, Option.map_some, Option.getD_some]

/-- A slice of the packet at the cursor keeps the delivered numbers in order. -/
theorem Reassembled.deliver {v : RecvSide} (hv : Reassembled v) {packet : IncomingPacket}
    (hlookup : v.incoming.lookup v.readCursor = some packet) (bytes : List UInt8) {cursor : UInt32}
    (hcursor : v.readCursor ≤ cursor) :
    (∀ k ∈ (v.delivered ++ [(v.readCursor, bytes)]).map Prod.fst, k ≤ cursor ∧ k < v.ack) ∧
      ((v.delivered ++ [(v.readCursor, bytes)]).map Prod.fst).Pairwise (· ≤ ·) := by
  rw [List.map_append, List.map_singleton]
  constructor
  · intro k hk
    rcases List.mem_append.mp hk with hk | hk
    · exact ⟨UInt32.le_trans (hv.numbers_le k hk).1 hcursor, (hv.numbers_le k hk).2⟩
    · rw [List.mem_singleton] at hk
      subst hk
      exact ⟨hcursor, hv.cursor_lt hlookup⟩
  · rw [List.pairwise_append]
    refine ⟨hv.numbers_sorted, List.pairwise_singleton _ _, fun k hk k' hk' => ?_⟩
    rw [List.mem_singleton] at hk'
    exact hk' ▸ (hv.numbers_le k hk).1

/-- A slice of the packet at the cursor counts as read of that packet and of no other. -/
theorem Reassembled.slices {v : RecvSide} (hv : Reassembled v) (bytes : List UInt8) (k : UInt32) :
    (((v.delivered ++ [(v.readCursor, bytes)]).filter fun slice => slice.1 = k).map Prod.snd).flatten =
      v.readOf k ++ if k = v.readCursor then bytes else [] := by
  rw [List.filter_append, List.map_append, List.flatten_append, ← hv.slices_eq k, List.filter_singleton]
  by_cases hk : k = v.readCursor
  · subst hk
    simp [RecvSide.slicesOf]
  · have hk' : ¬v.readCursor = k := fun h => hk h.symm
    simp [RecvSide.slicesOf, hk, hk']

namespace RecvSide

def readPart (v : RecvSide) (packet : IncomingPacket) (remaining : Nat) : RecvSide :=
  { v with
    incoming := (v.incoming.erase v.readCursor).insert packet.header.seq
      { packet with readOffset := packet.readOffset + remaining }
    delivered := v.delivered ++
      [(v.readCursor, slice packet.buf packet.readOffset (packet.readOffset + remaining))] }

def readWhole (v : RecvSide) (packet : IncomingPacket) : RecvSide :=
  { v with
    incoming := v.incoming.erase v.readCursor
    readCursor := v.readCursor + 1
    delivered := v.delivered ++ [(v.readCursor, packet.buf.drop packet.readOffset)] }

theorem readPart_lookup (v : RecvSide) (packet : IncomingPacket) (remaining : Nat)
    (hat : packet.header.seq = v.readCursor) (k : UInt32) :
    (v.readPart packet remaining).incoming.lookup k =
      if k = v.readCursor then some { packet with readOffset := packet.readOffset + remaining }
      else v.incoming.lookup k := by
  rw [readPart, hat]
  dsimp only
  split_ifs with hk
  · rw [hk, AList.lookup_insert]
  · rw [AList.lookup_insert_ne hk, AList.lookup_erase_ne hk]

end RecvSide

/-- **A partial read.** The packet stays at the cursor, and its offset moves by what was read. -/
theorem readPart_reassembled {v : RecvSide} (hv : Reassembled v) {packet : IncomingPacket} {remaining : Nat}
    (hlookup : v.incoming.lookup v.readCursor = some packet)
    (hlong : remaining < usizeSub packet.buf.length packet.readOffset) :
    Reassembled (v.readPart packet remaining) := by
  obtain ⟨hat, hkept, hlen, -⟩ := hv.filed _ _ hlookup
  have hshort : packet.readOffset + remaining ≤ packet.buf.length := by
    rw [usizeSub, if_pos hlen] at hlong
    omega
  have hentry := v.readPart_lookup packet remaining hat
  have hoffset : (v.readPart packet remaining).offset = v.offset + remaining := by
    rw [v.offset_eq hlookup]
    exact (v.readPart packet remaining).offset_eq ((hentry v.readCursor).trans (if_pos rfl))
  obtain ⟨hnumbers, hsorted⟩ := hv.deliver hlookup
    (slice packet.buf packet.readOffset (packet.readOffset + remaining)) (UInt32.le_refl v.readCursor)
  constructor
  · exact hv.least
  · exact hv.cursor_le
  · intro k
    refine Iff.trans ?_ (hv.keys_iff k)
    rw [← AList.lookup_isSome, ← AList.lookup_isSome, hentry]
    split_ifs with hk
    · rw [hk, hlookup]
      simp
    · rfl
  · exact hv.kept_iff
  · intro k p hp
    rw [hentry] at hp
    split_ifs at hp with hk
    · cases hp
      subst hk
      exact ⟨hat, hkept, hshort, fun h => absurd rfl h⟩
    · obtain ⟨hseq, hkept, hlen, hzero⟩ := hv.filed k p hp
      exact ⟨hseq, hkept, hlen, hzero⟩
  · rw [hoffset]
    change ((v.delivered ++ [_]).map Prod.snd).flatten = consumed v.payload v.readCursor.toNat _
    rw [consumed_part, hv.payload_cursor hlookup, ← hv.bytes_eq, v.offset_eq hlookup, List.map_append,
      List.flatten_append, List.map_singleton, List.flatten_singleton, slice, Nat.add_sub_cancel_left]
  · intro k
    refine (hv.slices _ k).trans ?_
    rw [RecvSide.readOf, RecvSide.readOf, hoffset]
    change _ = if k < v.readCursor then v.payload k.toNat else if k = v.readCursor then _ else _
    by_cases hk : k = v.readCursor
    · subst hk
      rw [if_neg (UInt32.lt_irrefl _), if_neg (UInt32.lt_irrefl _), if_pos rfl, if_pos rfl, if_pos rfl,
        List.take_add, ← v.offset_eq hlookup, ← hv.payload_cursor hlookup, slice, Nat.add_sub_cancel_left]
      rfl
    · rw [if_neg hk, if_neg hk, if_neg hk, List.append_nil]
  · exact hnumbers
  · exact hsorted

/-- **A packet read to its end.** The cursor moves to the next number, whose packet has not been read. -/
theorem readWhole_reassembled {v : RecvSide} (hv : Reassembled v) {packet : IncomingPacket}
    (hlookup : v.incoming.lookup v.readCursor = some packet) : Reassembled (v.readWhole packet) := by
  have hlt := hv.cursor_lt hlookup
  have hsucc := Counter.toNat_succ_of_lt hlt
  have hltNat := UInt32.lt_iff_toNat_lt.mp hlt
  have hnext : ∀ k, v.readCursor + 1 ≤ k ↔ k ≠ v.readCursor ∧ v.readCursor ≤ k := by
    intro k
    rw [UInt32.le_iff_toNat_le, UInt32.le_iff_toNat_le, hsucc, Ne, ← UInt32.toNat_inj]
    omega
  have hoffset : (v.readWhole packet).offset = 0 := by
    cases hp : (v.incoming.erase v.readCursor).lookup (v.readCursor + 1) with
    | none => rw [RecvSide.offset, RecvSide.readWhole, hp]; rfl
    | some p =>
        obtain ⟨hne, hold⟩ := AList.lookup_erase_eq_some hp
        rw [(v.readWhole packet).offset_eq hp, (hv.filed _ _ hold).offset_zero hne]
  obtain ⟨hnumbers, hsorted⟩ := hv.deliver hlookup (packet.buf.drop packet.readOffset)
    ((hnext _).mp (UInt32.le_refl _)).2
  constructor
  · exact hv.least
  · change v.readCursor + 1 ≤ v.ack
    rw [UInt32.le_iff_toNat_le, hsucc]
    omega
  · intro k
    change k ∈ v.incoming.erase v.readCursor ↔ k ∈ v.received ∧ v.readCursor + 1 ≤ k
    rw [AList.mem_erase, hv.keys_iff, hnext]
    tauto
  · exact hv.kept_iff
  · intro k p hp
    obtain ⟨hne, hp⟩ := AList.lookup_erase_eq_some hp
    obtain ⟨hseq, hkept, hlen, hzero⟩ := hv.filed k p hp
    exact ⟨hseq, hkept, hlen, fun _ => hzero hne⟩
  · rw [hoffset]
    change ((v.delivered ++ [_]).map Prod.snd).flatten = consumed v.payload (v.readCursor + 1).toNat 0
    rw [hsucc, consumed_whole _ _ v.offset, hv.payload_cursor hlookup, ← hv.bytes_eq,
      v.offset_eq hlookup, List.map_append, List.flatten_append, List.map_singleton,
      List.flatten_singleton]
  · intro k
    refine (hv.slices _ k).trans ?_
    rw [RecvSide.readOf, RecvSide.readOf, hoffset, List.take_zero, ite_self]
    change _ = if k < v.readCursor + 1 then v.payload k.toNat else _
    by_cases hk : k = v.readCursor
    · subst hk
      rw [if_neg (UInt32.lt_irrefl _), if_pos rfl, if_pos rfl, if_pos (UInt32.lt_iff_toNat_lt.mpr (by omega)),
        v.offset_eq hlookup, hv.payload_cursor hlookup, List.take_append_drop]
    · have hlt_iff : k < v.readCursor + 1 ↔ k < v.readCursor := by
        have hne : k.toNat ≠ v.readCursor.toNat := fun h => hk (UInt32.toNat.inj h)
        rw [UInt32.lt_iff_toNat_lt, UInt32.lt_iff_toNat_lt, hsucc]
        omega
      rw [if_neg hk, if_neg hk, List.append_nil]
      simp only [hlt_iff]
  · exact hnumbers
  · exact hsorted

/-- What a read puts into the buffer is what the history records. -/
theorem readLoop_delivered (fuel remaining : Nat) (s : UdxStreamInner) :
    ((readLoop fuel remaining s).1.ghost.delivered.map Prod.snd).flatten =
      (s.ghost.delivered.map Prod.snd).flatten ++ (readLoop fuel remaining s).2.1 := by
  induction fuel generalizing remaining s with
  | zero => exact (List.append_nil _).symm
  | succ fuel ih =>
      rw [readLoop]
      split
      · exact (List.append_nil _).symm
      · dsimp only
        split
        · simp [UdxStreamInner.readPart]
        · rw [ih]
          simp [UdxStreamInner.readWhole]

/-! ### Runs -/

/-- A packet nothing was read of yet. -/
abbrev freshPacket : IncomingPacket → Prop := fun packet => packet.readOffset = 0

theorem ackPacket_recvSide (s : UdxStreamInner) (i : UInt32) : (s.ackPacket now i).recvSide = s.recvSide := by
  unfold ackPacket
  split <;> rfl

theorem ackPacket_received (s : UdxStreamInner) (i : UInt32) :
    (s.ackPacket now i).ghost.received = s.ghost.received :=
  congrArg RecvSide.received (ackPacket_recvSide s i)

theorem handleIncoming_received {s : UdxStreamInner} (hfirewall : s.onFirewall = none)
    (packet : IncomingPacket) : (s.handleIncoming now packet).ghost.received =
      s.ghost.received ++ if packet.hasType udxHeaderData then [packet.seq] else [] := by
  let sacked : UdxStreamInner := packet.sacked.foldl (fun s i => s.ackPacket now i)
    { s with stats := { s.stats with rxPackets := s.stats.rxPackets + 1 } }
  have hsacked : sacked.ghost.received = s.ghost.received :=
    ackPackets_frame (fun t => t.ghost.received) ackPacket_received _ _
  have hended : (sacked.endPart packet).ghost.received = s.ghost.received := by
    rw [← hsacked, endPart]
    split <;> rfl
  rw [handleIncoming_parts hfirewall, ← hended]
  change ((sacked.endPart packet).dataPart packet).ghost.received = _
  unfold dataPart
  split
  · rfl
  · exact (List.append_nil _).symm

theorem Micro.received_prefix {s t : UdxStreamInner} (h : Micro ok now s t) :
    s.ghost.received <+: t.ghost.received := by
  cases h with
  | ackNext packet hok hlt =>
      rw [UdxStreamInner.ackNext, ackPacket_received]
  | sack packet i hok htype =>
      rw [ackPacket_received]
  | data packet hok htype => exact List.prefix_append _ _
  | _ => exact List.prefix_rfl

theorem Move.received_prefix {s t : UdxStreamInner} (h : Move ok now s t) :
    s.ghost.received <+: t.ghost.received := by
  cases h with
  | micro h => exact h.received_prefix
  | _ => exact List.prefix_rfl

theorem Micro.reassembled {m : UInt32} {s t : UdxStreamInner} (h : Micro freshPacket now s t)
    (hs : Reassembled s.recvSide) (hm : m ∉ t.ghost.received) : Reassembled t.recvSide := by
  cases h with
  | ackNext packet hok hlt =>
      rw [UdxStreamInner.ackNext, ackPacket_recvSide]
      exact hs
  | sack packet i hok htype =>
      rw [ackPacket_recvSide]
      exact hs
  | data packet hok htype => exact data_reassembled hs hok hm
  | _ => exact hs

theorem Move.reassembled {m : UInt32} {s t : UdxStreamInner} (h : Move freshPacket now s t)
    (hs : Reassembled s.recvSide) (hm : m ∉ t.ghost.received) : Reassembled t.recvSide := by
  cases h with
  | micro h => exact h.reassembled hs hm
  | readPart packet remaining hlookup hlong => exact readPart_reassembled hs hlookup hlong
  | readWhole packet hlookup => exact readWhole_reassembled hs hlookup
  | _ => exact hs

theorem connect_reassembled (start : Nat) (dest : SocketAddr) (remoteId localId : UInt32) :
    Reassembled (UdxStreamInner.connect start dest remoteId localId).recvSide where
  least := ⟨List.not_mem_nil, fun _ hk => absurd hk UInt32.not_lt_zero⟩
  cursor_le := UInt32.le_refl _
  keys_iff := fun k => ⟨fun h => absurd h (AList.notMem_empty k), fun h => absurd h.1 List.not_mem_nil⟩
  kept_iff := fun k => ⟨fun h => absurd h (AList.notMem_empty k), fun h => absurd h List.not_mem_nil⟩
  filed := fun k _ h => absurd (AList.mem_of_lookup h) (AList.notMem_empty k)
  bytes_eq := rfl
  slices_eq := fun k => by simp [RecvSide.slicesOf, RecvSide.readOf, RecvSide.payload, connect, recvSide]
  numbers_le := fun _ h => absurd h List.not_mem_nil
  numbers_sorted := List.Pairwise.nil

/-- What can happen to a stream, with packets handled and bytes read one call at a time, next to whole
calls of its users and its driver. -/
inductive Traffic
  | incoming (header : Header) (buf : List UInt8) (source : SocketAddr)
  | read (remaining : Nat)
  | task (e : Event)
  deriving DecidableEq, Repr

namespace UdxStream

def traffic (u : UdxStream) : Traffic → UdxStream
  | .incoming header buf source => { u with inner := u.inner.handleIncoming u.clock ⟨header, buf, 0, source⟩ }
  | .read remaining => { u with inner := (u.inner.readNext remaining).1 }
  | .task e => u.step e

/-- The states of every run with such traffic. -/
def InTraffic (u : UdxStream) : Prop :=
  ∃ (start : Nat) (dest : SocketAddr) (remoteId localId : UInt32) (events : List Traffic),
    Runs.run traffic (connect start dest remoteId localId) events = u

theorem traffic_advance (u : UdxStream) (e : Traffic)
    (hqueue : ∀ packet ∈ u.inner.recvRx.queue, freshPacket packet) :
    Advance freshPacket u.clock u.inner (u.traffic e).inner := by
  cases e with
  | incoming header buf source =>
      have hfresh : freshPacket ⟨header, buf, 0, source⟩ := rfl
      exact .moves (handleIncoming_chain hfresh u.inner).moves
  | read remaining => exact .moves (readLoop_moves _ remaining u.inner)
  | task e => exact u.step_advance e hqueue fun _ _ _ _ => rfl

end UdxStream

theorem reassembled_invariant (m : UInt32) :
    MoveInvariant freshPacket (fun s => Reassembled s.recvSide) (fun s => m ∉ s.ghost.received) where
  connect := connect_reassembled
  back := fun _ _ _ h hm hmem => hm (h.received_prefix.subset hmem)
  move := fun _ _ _ h => h.reassembled
  channel := fun _ _ => id
  channel_back := fun _ _ => id

theorem UdxStream.InTraffic.reassembled {u : UdxStream} (hu : u.InTraffic) {m : UInt32}
    (hm : m ∉ u.inner.ghost.received) : Reassembled u.inner.recvSide := by
  obtain ⟨start, dest, remoteId, localId, events, rfl⟩ := hu
  exact (reassembled_invariant m).run UdxStream.traffic_advance start dest remoteId localId events hm

/-! ### The state packet that answers data -/

theorem UdxStream.InTraffic.onFirewall {u : UdxStream} (hu : u.InTraffic) : u.inner.onFirewall = none := by
  obtain ⟨start, dest, remoteId, localId, events, rfl⟩ := hu
  exact (onFirewall_invariant freshPacket).run UdxStream.traffic_advance start dest remoteId localId events trivial

theorem ackPacket_sendQueue (s : UdxStreamInner) (i : UInt32) : (s.ackPacket now i).sendQueue = s.sendQueue := by
  unfold ackPacket
  split <;> rfl

/-- Handling data without the END flag puts one state packet on the queue, which carries the new `ack`. -/
theorem handleIncoming_sendQueue (now : Nat) {s : UdxStreamInner} {packet : IncomingPacket}
    (hfirewall : s.onFirewall = none)
    (hdata : packet.hasType udxHeaderData = true) (hend : packet.hasType udxHeaderEnd = false) :
    ∃ state : Packet, (s.handleIncoming now packet).sendQueue = s.sendQueue ++ [.owned state] ∧
      state.body = [] ∧ state.header.ack = (s.handleIncoming now packet).ack := by
  have hpass := firewallPass_of_none hfirewall packet.source
  -- the state after the SACK ranges, if there are any
  let counted : UdxStreamInner := { s with stats := { s.stats with rxPackets := s.stats.rxPackets + 1 } }
  let sacked : UdxStreamInner :=
    if packet.hasType udxHeaderSack then counted.handleIncomingSacks now packet else counted
  have hqueue : sacked.sendQueue = s.sendQueue := by
    change (if packet.hasType udxHeaderSack then counted.handleIncomingSacks now packet else counted).sendQueue = _
    split
    · exact handleIncomingSacks_frame sendQueue ackPacket_sendQueue counted packet
    · rfl
  have hhandled : s.handleIncoming now packet =
      (sacked.handleIncomingData packet).congestionControl packet.header := by
    simp only [handleIncoming, hpass, hdata, hend, sacked, counted, Bool.not_true, Bool.false_eq_true, if_false,
      if_true]
  rw [hhandled, ← hqueue]
  exact ⟨_, rfl, statePacket_body _, rfl⟩

/-- **Reassembly of any traffic.** As long as the number `m` is not received: `ack` is the least number that
was not received; the read cursor is not beyond it; the keys of `incoming` are the received numbers from the
cursor on; the numbers delivered are below `ack` and in order, and the bytes delivered are the payloads of
the packets before the cursor, each once and under its own number, and what was read of the packet at the
cursor; handling data without the END flag enqueues one state packet with the least missing number; and `ack`
depends only on the set of the numbers received. -/
theorem reassembly_exact {u : UdxStream} (hu : u.InTraffic) {m : UInt32} (hm : m ∉ u.inner.ghost.received) :
    LeastMissing u.inner.ghost.received u.inner.ack ∧
    u.inner.readCursor ≤ u.inner.ack ∧
    (∀ k, k ∈ u.inner.incoming ↔ k ∈ u.inner.ghost.received ∧ u.inner.readCursor ≤ k) ∧
    (∀ k ∈ u.inner.ghost.delivered.map Prod.fst, k < u.inner.ack) ∧
    (u.inner.ghost.delivered.map Prod.fst).Pairwise (· ≤ ·) ∧
    u.deliveredBytes = consumed u.inner.recvSide.payload u.inner.readCursor.toNat u.inner.recvSide.offset ∧
    (∀ k, u.inner.recvSide.slicesOf k = u.inner.recvSide.readOf k) ∧
    (∀ (header : Header) (buf : List UInt8) (source : SocketAddr) (now : Nat) (m' : UInt32),
      let packet : IncomingPacket := ⟨header, buf, 0, source⟩
      let handled := u.inner.handleIncoming now packet
      packet.hasType udxHeaderData = true → packet.hasType udxHeaderEnd = false → m' ∉ handled.ghost.received →
        ∃ state : Packet, handled.sendQueue = u.inner.sendQueue ++ [.owned state] ∧ state.body = [] ∧
          LeastMissing handled.ghost.received state.header.ack) ∧
    (∀ (u' : UdxStream) (m' : UInt32), u'.InTraffic → m' ∉ u'.inner.ghost.received →
      (∀ k, k ∈ u.inner.ghost.received ↔ k ∈ u'.inner.ghost.received) → u.inner.ack = u'.inner.ack) := by
  have h := hu.reassembled hm
  refine ⟨h.least, h.cursor_le, h.keys_iff, fun k hk => (h.numbers_le k hk).2, h.numbers_sorted, h.bytes_eq,
    h.slices_eq, ?_, ?_⟩
  · intro header buf source now m' packet handled hdata hend hm'
    have hchain : Moves freshPacket now u.inner handled :=
      (handleIncoming_chain (show freshPacket packet from rfl) u.inner).moves
    have hafter : Reassembled handled.recvSide := (reassembled_invariant m').advance (.moves hchain) h hm'
    obtain ⟨state, hqueue, hbody, hack⟩ := handleIncoming_sendQueue now hu.onFirewall hdata hend
    exact ⟨state, hqueue, hbody, hack ▸ hafter.least⟩
  · intro u' m' hu' hm' hsame
    exact h.least.unique (hu'.reassembled hm').least hsame

/-- Two packets in the wrong order, the second one twice, and reads that cut them. -/
def outOfOrderTraffic : List Traffic :=
  let header (seq : UInt32) : Header := ⟨udxHeaderData, 0, 1, 0xffffffff, seq, 0⟩
  [.incoming (header 1) [4, 5] ⟨.v4 0, 2⟩, .incoming (header 0) [1, 2, 3] ⟨.v4 0, 2⟩, .read 2,
    .incoming (header 1) [4, 5] ⟨.v4 0, 2⟩, .read 2]

theorem reassembly_exact_outOfOrder :
    let u := Runs.run UdxStream.traffic (.connect 0 ⟨.v4 0, 2⟩ 2 1) outOfOrderTraffic
    7 ∉ u.inner.ghost.received ∧ u.inner.ack = 2 ∧ u.deliveredBytes = [1, 2, 3, 4] ∧
      LeastMissing u.inner.ghost.received u.inner.ack :=
  ⟨by decide, by decide, by decide,
    (reassembly_exact (m := 7) ⟨0, ⟨.v4 0, 2⟩, 2, 1, outOfOrderTraffic, rfl⟩ (by decide)).1⟩

end AsyncUdx
