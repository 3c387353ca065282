import AsyncUdx.Wire

/-! The header codec in both directions. A byte string decodes exactly if it is long enough for a header and begins with
the magic and version bytes, and then its header is read off at fixed places. Writing a header fills those places one
after the other, so the bytes that a header was read from are the bytes it is written as. -/

namespace AsyncUdx

/-! ### What decodes -/

/-- A datagram begins like a packet of the protocol. -/
def WellFormed (data : List UInt8) : Prop :=
  udxHeaderSize ≤ data.length ∧ data[0]? = some udxMagicByte ∧ data[1]? = some udxVersion

instance decidableWellFormed (data : List UInt8) : Decidable (WellFormed data) :=
  inferInstanceAs (Decidable (_ ∧ _ ∧ _))

/-- The header at the start of a datagram. -/
def headerAt (data : List UInt8) : Header where
  typ := (data.getD 2 0).toUInt32
  dataOffset := (data.getD 3 0).toNat
  streamId := readU32Le (slice data 4 8)
  recvWin := readU32Le (slice data 8 12)
  seq := readU32Le (slice data 12 16)
  ack := readU32Le (slice data 16 20)

/-- Exactly the datagrams that begin like a packet have a header that decodes. -/
theorem fromBytes_eq (data : List UInt8) :
    Header.fromBytes data =
      if WellFormed data then .ok (headerAt data) else .error ⟨.invalidData, "Bad header"⟩ := by
  have hiff : (data.length < udxHeaderSize ∨ data.getD 0 0 ≠ udxMagicByte ∨ data.getD 1 0 ≠ udxVersion) ↔
      ¬WellFormed data := by
    rw [WellFormed, not_and_or, not_and_or, Nat.not_le]
    by_cases hshort : data.length < udxHeaderSize
    · exact iff_of_true (Or.inl hshort) (Or.inl hshort)
    · have hlen : 20 ≤ data.length := Nat.le_of_not_lt hshort
      have hget : ∀ i, i < 20 → data[i]? = some (data.getD i 0) := fun i hi => by
        rw [List.getD_eq_getElem?_getD, List.getElem?_eq_getElem (by omega)]
        rfl
      rw [hget 0 (by omega), hget 1 (by omega), Option.some_inj, Option.some_inj]
  unfold Header.fromBytes
  rw [if_congr hiff rfl rfl, ite_not]
  rfl

theorem fromBytes_eq_ok_iff {data : List UInt8} {header : Header} :
    Header.fromBytes data = .ok header ↔ WellFormed data ∧ headerAt data = header := by
  rw [fromBytes_eq]
  split_ifs with hformed
  · simp [hformed]
  · simp [hformed]

theorem wellFormed_iff_prefix (data : List UInt8) :
    WellFormed data ↔ udxHeaderSize ≤ data.length ∧ [udxMagicByte, udxVersion] <+: data := by
  apply and_congr_right
  intro hlen
  match data, hlen with
  | first :: second :: rest, _ =>
      simp only [List.getElem?_cons_zero, List.getElem?_cons_succ, Option.some.injEq, List.cons_prefix_cons,
        List.nil_prefix, and_true]
      exact and_congr eq_comm eq_comm

/-! ### Writing a header -/

/-- Bytes that are copied right after what was written before. -/
theorem copyFromSlice_next {written src : List UInt8} {n m : Nat} (hn : written.length = n) (hm : n + src.length = m)
    (buf : List UInt8) : copyFromSlice (written ++ buf.drop n) n src = (written ++ src) ++ buf.drop m := by
  subst hn hm
  rw [copyFromSlice, List.take_left, List.drop_length_add_append, List.drop_drop]

/-- A header is written over the first twenty bytes of a buffer and leaves the rest. -/
theorem Header.encode_eq (header : Header) {buf : List UInt8} (hlen : udxHeaderSize ≤ buf.length) :
    header.encode buf = (true, header.bytes ++ buf.drop udxHeaderSize) := by
  rw [Header.encode, if_neg (Nat.not_lt.mpr hlen)]
  dsimp only
  rw [show copyFromSlice buf 0 [udxMagicByte] = [udxMagicByte] ++ buf.drop 1 from rfl,
    copyFromSlice_next (n := 1) (m := 2) rfl rfl, copyFromSlice_next (n := 2) (m := 3) rfl rfl,
    copyFromSlice_next (n := 3) (m := 4) rfl rfl, copyFromSlice_next (n := 4) (m := 8) rfl rfl,
    copyFromSlice_next (n := 8) (m := 12) rfl rfl, copyFromSlice_next (n := 12) (m := 16) rfl rfl,
    copyFromSlice_next (n := 16) (m := 20) rfl rfl]
  rfl

/-! ### Bytes and numbers -/

theorem toLeBytes_readU32Le (a b c d : UInt8) : toLeBytes (readU32Le [a, b, c, d]) = [a, b, c, d] := by
  have hbytes := And.intro (And.intro a.toNat_lt b.toNat_lt) (And.intro c.toNat_lt d.toNat_lt)
  have hvalue : (readU32Le [a, b, c, d]).toNat =
      a.toNat + 2 ^ 8 * (b.toNat + 2 ^ 8 * (c.toNat + 2 ^ 8 * d.toNat)) := by
    simp only [readU32Le, List.foldr_cons, List.foldr_nil, Nat.mul_zero, Nat.add_zero]
    apply Counter.toNat_ofNat
    omega
  have hbyte : ∀ {n : Nat} (byte : UInt8), n % 2 ^ 8 = byte.toNat → UInt8.ofNat n = byte := by
    intro n byte h
    apply UInt8.toNat.inj
    rw [UInt8.toNat_ofNat', h]
  rw [toLeBytes, hvalue]
  congr 1
  · exact hbyte a (by omega)
  congr 1
  · exact hbyte b (by omega)
  congr 1
  · exact hbyte c (by omega)
  congr 1
  exact hbyte d (by omega)

/-- A number is written as the four bytes it was read from. -/
theorem toLeBytes_slice {data : List UInt8} {i : Nat} (h : i + 4 ≤ data.length) :
    toLeBytes (readU32Le (slice data i (i + 4))) = slice data i (i + 4) := by
  have hlen : (slice data i (i + 4)).length = 4 := by
    rw [slice, List.length_take, List.length_drop]
    omega
  match slice data i (i + 4), hlen with
  | [a, b, c, d], _ => exact toLeBytes_readU32Le a b c d

theorem take_append_slice (data : List UInt8) {i j : Nat} (h : i ≤ j) :
    data.take i ++ slice data i j = data.take j := by
  rw [slice, ← List.take_add, Nat.add_sub_cancel' h]

theorem WellFormed.take_four {data : List UInt8} (hformed : WellFormed data) :
    data.take 4 = [udxMagicByte, udxVersion, data.getD 2 0, data.getD 3 0] := by
  obtain ⟨hlen, hmagic, hversion⟩ := hformed
  match data, hlen with
  | first :: second :: third :: fourth :: rest, _ =>
      obtain rfl : first = udxMagicByte := Option.some.inj hmagic
      obtain rfl : second = udxVersion := Option.some.inj hversion
      rfl

/-- **Encoding inverts decoding.** A header is written as the bytes it was read from. -/
theorem headerAt_bytes {data : List UInt8} (hformed : WellFormed data) :
    (headerAt data).bytes = data.take udxHeaderSize := by
  have hlen : 20 ≤ data.length := hformed.1
  have htyp : (data.getD 2 0).toUInt32.toUInt8 = data.getD 2 0 := by
    apply UInt8.toNat.inj
    simp
  calc (headerAt data).bytes
      = data.take 4 ++ slice data 4 8 ++ slice data 8 12 ++ slice data 12 16 ++ slice data 16 20 := by
        simp only [Header.bytes, headerAt, htyp, UInt8.ofNat_toNat, hformed.take_four]
        rw [toLeBytes_slice (i := 4) (by omega), toLeBytes_slice (i := 8) (by omega),
          toLeBytes_slice (i := 12) (by omega), toLeBytes_slice (i := 16) (by omega)]
    _ = data.take 20 := by
        rw [take_append_slice data (by decide), take_append_slice data (by decide),
          take_append_slice data (by decide), take_append_slice data (by decide)]

/-- **The codec, both ways.** The bytes of a packet decode to its header, if the type and the data offset fit a byte,
and the body follows them. A byte string decodes exactly if it has twenty bytes and begins with the magic and version
bytes, and the header that is read is written as its first twenty bytes. -/
theorem codec_round_trip :
    (∀ (dest : SocketAddr) (header : Header) (body : List UInt8), header.typ < 256 → header.dataOffset < 256 →
      Header.fromBytes (Packet.new dest header body).buf.asSlice = .ok header ∧
        (Packet.new dest header body).buf.asSlice.drop udxHeaderSize = body) ∧
    (∀ data : List UInt8,
      ((∃ header, Header.fromBytes data = .ok header) ↔ 20 ≤ data.length ∧ [255, 1] <+: data) ∧
      ∀ header, Header.fromBytes data = .ok header →
        ∀ buf : List UInt8, buf.length = 20 → header.encode buf = (true, data.take 20)) := by
  refine ⟨fun dest header body htyp hoffset => ⟨?_, Packet.new_body dest header body⟩, fun data => ⟨?_, ?_⟩⟩
  · exact Packet.new_encoded dest header body htyp hoffset
  · simp only [fromBytes_eq_ok_iff, exists_and_left, exists_eq', and_true]
    exact wellFormed_iff_prefix data
  · intro header hdecodes buf hlen
    obtain ⟨hformed, rfl⟩ := fromBytes_eq_ok_iff.mp hdecodes
    have hrest : buf.drop udxHeaderSize = [] := List.drop_of_length_le (Nat.le_of_eq hlen)
    rw [Header.encode_eq _ (Nat.le_of_eq hlen.symm), headerAt_bytes hformed, hrest, List.append_nil]
    rfl

end AsyncUdx
