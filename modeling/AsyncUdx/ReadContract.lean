import AsyncUdx.Reassembly

/-! What a read reports. `read_next` says whether it has read a packet to its end, and `poll_read` turns that into
success, an error or waiting. The flag is not about bytes: a packet longer than the buffer gives bytes without
the flag, and an empty packet gives the flag without bytes. Everything else a reader relies on holds: when
there is no packet at the cursor nothing is taken, and there was nothing to take. -/

namespace AsyncUdx

open Relation UdxStreamInner

variable {ok : IncomingPacket → Prop} {now : Nat}

/-! ### Packets that wait for the reader -/

/-- A packet in the map: some of it is left to read, or it never had anything. -/
def Leftover (packet : IncomingPacket) : Prop :=
  packet.readOffset < packet.buf.length ∨ packet.readOffset = 0 ∧ packet.buf = []

theorem Leftover.unread_length {packet : IncomingPacket} (h : Leftover packet) :
    usizeSub packet.buf.length packet.readOffset = packet.buf.length - packet.readOffset := by
  rcases h with h | ⟨hzero, hnil⟩
  · exact if_pos h.le
  · rw [hzero, hnil]
    rfl

theorem Leftover.unread_eq_nil_iff {packet : IncomingPacket} (h : Leftover packet) :
    packet.buf.drop packet.readOffset = [] ↔ packet.buf = [] := by
  rw [List.drop_eq_nil_iff]
  rcases h with h | ⟨hzero, hnil⟩
  · constructor
    · intro hle
      omega
    · intro hnil
      rw [hnil] at h
      exact absurd h (Nat.not_lt_zero _)
  · simp [hzero, hnil]

theorem fresh_leftover {packet : IncomingPacket} (h : packet.readOffset = 0) : Leftover packet := by
  cases hbuf : packet.buf with
  | nil => exact Or.inr ⟨h, hbuf⟩
  | cons byte rest => exact Or.inl (by rw [h, hbuf]; exact Nat.succ_pos _)

def AllLeftover (incoming : SeqMap IncomingPacket) : Prop :=
  ∀ k packet, incoming.lookup k = some packet → Leftover packet

theorem AllLeftover.insert {incoming : SeqMap IncomingPacket} (h : AllLeftover incoming) {k : UInt32}
    {packet : IncomingPacket} (hpacket : Leftover packet) : AllLeftover (incoming.insert k packet) := by
  intro k' packet' hlookup
  rcases AList.lookup_insert_eq_some hlookup with ⟨-, rfl⟩ | ⟨-, hold⟩
  · exact hpacket
  · exact h k' packet' hold

theorem AllLeftover.erase {incoming : SeqMap IncomingPacket} (h : AllLeftover incoming) (k : UInt32) :
    AllLeftover (incoming.erase k) :=
  fun k' packet hlookup => h k' packet (AList.lookup_erase_eq_some hlookup).2

theorem Move.allLeftover {s t : UdxStreamInner} (h : Move freshPacket now s t) (hs : AllLeftover s.recvSide.incoming) :
    AllLeftover t.recvSide.incoming := by
  cases h with
  | micro h =>
      cases h with
      | ackNext packet hok hlt =>
          rw [UdxStreamInner.ackNext, ackPacket_recvSide]
          exact hs
      | sack packet i hok htype =>
          rw [ackPacket_recvSide]
          exact hs
      | data packet hok htype =>
          change AllLeftover (if s.ack ≤ packet.seq then s.incoming.insert packet.seq packet else s.incoming)
          split
          · exact hs.insert (fresh_leftover hok)
          · exact hs
      | _ => exact hs
  | readPart packet remaining hlookup hlong =>
      have hleft := hs _ _ hlookup
      refine (hs.erase _).insert (Or.inl ?_)
      rw [hleft.unread_length] at hlong
      exact Nat.add_lt_of_lt_sub' hlong
  | readWhole packet hlookup => exact hs.erase _
  | _ => exact hs

theorem allLeftover_invariant :
    MoveInvariant freshPacket (fun s => AllLeftover s.recvSide.incoming) (fun _ => True) where
  connect := fun _ _ _ _ k _ h => absurd (AList.mem_of_lookup h) (AList.notMem_empty k)
  back := fun _ _ _ _ _ => trivial
  move := fun _ _ _ h hs _ => h.allLeftover hs
  channel := fun _ _ => id
  channel_back := fun _ _ _ => trivial

theorem UdxStream.Reachable.allLeftover {u : UdxStream} (hu : u.Reachable) : AllLeftover u.inner.incoming :=
  allLeftover_invariant.reachable (fun _ _ _ => rfl) hu trivial

/-! ### One read -/

/-- Without a packet at the cursor a read takes nothing. -/
theorem readNext_none {s : UdxStreamInner} (h : s.incoming.lookup s.readCursor = none) (remaining : Nat) :
    s.readNext remaining = (s, [], false) := by
  unfold readNext
  cases s.incoming.size with
  | zero => rfl
  | succ fuel => rw [readLoop, h]

/-- A packet longer than the buffer is read in part. -/
theorem readNext_long {s : UdxStreamInner} {packet : IncomingPacket} {remaining : Nat}
    (h : s.incoming.lookup s.readCursor = some packet)
    (hlong : remaining < usizeSub packet.buf.length packet.readOffset) :
    s.readNext remaining = (s.readPart packet remaining,
      slice packet.buf packet.readOffset (packet.readOffset + remaining), false) := by
  rw [readNext, AList.size_of_lookup h, readLoop, h]
  exact if_pos hlong

/-- A packet that fits the buffer is read to its end, and the read goes on after it. -/
theorem readNext_fits {s : UdxStreamInner} {packet : IncomingPacket} {remaining : Nat}
    (h : s.incoming.lookup s.readCursor = some packet)
    (hfits : usizeSub packet.buf.length packet.readOffset ≤ remaining) :
    s.readNext remaining =
      let next := (s.readWhole packet).readNext (remaining - usizeSub packet.buf.length packet.readOffset)
      (next.1, packet.buf.drop packet.readOffset ++ next.2.1, true) := by
  rw [readNext, AList.size_of_lookup h, readLoop, h]
  exact if_neg (Nat.not_lt.mpr hfits)

theorem pollRead_bytes (s : UdxStreamInner) (waker : Waker) (remaining : Nat) :
    (s.pollRead waker remaining).2.1 = (s.readNext remaining).2.1 := by
  unfold pollRead
  split
  · rename_i h
    rw [h]
  · rename_i h
    rw [h]
    split <;> rfl

theorem pollRead_ok_iff (s : UdxStreamInner) (waker : Waker) (remaining : Nat) :
    (s.pollRead waker remaining).2.2 = .ready (.ok ()) ↔ (s.readNext remaining).2.2 = true := by
  unfold pollRead
  split
  · rename_i h
    rw [h]
    exact ⟨fun _ => rfl, fun _ => rfl⟩
  · rename_i h
    rw [h]
    split <;> simp

/-! ### Success without bytes -/

/-- Some packet with a payload can be reached from the cursor without a gap. -/
def HasData (incoming : SeqMap IncomingPacket) (cursor : UInt32) : Prop :=
  ∃ n : UInt32, (∀ m ≤ n, cursor + m ∈ incoming) ∧
    ∃ packet, incoming.lookup (cursor + n) = some packet ∧ packet.buf ≠ []

theorem not_hasData_of_none {incoming : SeqMap IncomingPacket} {cursor : UInt32}
    (h : incoming.lookup cursor = none) : ¬HasData incoming cursor := by
  rintro ⟨n, hrun, -⟩
  have hmem := hrun 0 UInt32.zero_le
  rw [UInt32.add_zero] at hmem
  exact AList.lookup_eq_none.mp h hmem

/-- The payload is in the packet at the cursor or in one after it. -/
theorem hasData_iff_of_some {incoming : SeqMap IncomingPacket} {cursor : UInt32} {packet : IncomingPacket}
    (h : incoming.lookup cursor = some packet) :
    HasData incoming cursor ↔ packet.buf ≠ [] ∨ HasData (incoming.erase cursor) (cursor + 1) := by
  have hcursor := AList.mem_of_lookup h
  have hshift : ∀ m : UInt32, cursor + (m + 1) = cursor + 1 + m := by
    intro m
    rw [UInt32.add_comm m 1, UInt32.add_assoc]
  have hne : ∀ m : UInt32, m + 1 ≠ 0 ↔ cursor + 1 + m ≠ cursor := by
    intro m
    rw [← hshift]
    simp
  constructor
  · rintro ⟨n, hrun, other, hother, hdata⟩
    by_cases hzero : n = 0
    · left
      rw [hzero, UInt32.add_zero, h] at hother
      cases hother
      exact hdata
    · right
      have hlast : n - 1 + 1 = n := UInt32.sub_add_cancel n 1
      refine ⟨n - 1, fun m hm => ?_, other, ?_, hdata⟩
      · obtain ⟨hm, hmem⟩ := ((Counter.forall_le_iff_succ hzero).mp hrun).2 m hm
        rw [hshift] at hmem
        exact AList.mem_erase.mpr ⟨(hne m).mp hm, hmem⟩
      · rw [AList.lookup_erase_ne ((hne (n - 1)).mp (by rw [hlast]; exact hzero)), ← hshift, hlast]
        exact hother
  · rintro (hdata | ⟨n, hrun, other, hother, hdata⟩)
    · refine ⟨0, fun m hm => ?_, packet, by rw [UInt32.add_zero]; exact h, hdata⟩
      rw [UInt32.le_antisymm hm UInt32.zero_le, UInt32.add_zero]
      exact hcursor
    · obtain ⟨hlast, hold⟩ := AList.lookup_erase_eq_some hother
      have hnext : n + 1 ≠ 0 := (hne n).mpr hlast
      rw [← hshift] at hold
      refine ⟨n + 1, (Counter.forall_le_iff_succ hnext).mpr ⟨?_, fun m hm => ?_⟩, other, hold, hdata⟩
      · rw [UInt32.add_zero]
        exact hcursor
      · rw [Counter.succ_sub_one] at hm
        obtain ⟨hm, hmem⟩ := AList.mem_erase.mp (hrun m hm)
        rw [hshift]
        exact ⟨(hne m).mpr hm, hmem⟩

/-- A read with room gives bytes exactly when a payload can be reached. -/
theorem readNext_bytes_iff {s : UdxStreamInner} {remaining : Nat} (hs : AllLeftover s.incoming) (hpos : 0 < remaining) :
    (s.readNext remaining).2.1 ≠ [] ↔ HasData s.incoming s.readCursor := by
  -- each round takes a packet out of the map
  induction hsize : s.incoming.size generalizing s with
  | zero =>
      have hnone : s.incoming.lookup s.readCursor = none := by
        cases h : s.incoming.lookup s.readCursor with
        | none => rfl
        | some packet =>
            rw [AList.size_of_lookup h] at hsize
            cases hsize
      rw [readNext_none hnone]
      exact iff_of_false (fun h => h rfl) (not_hasData_of_none hnone)
  | succ size ih =>
      cases h : s.incoming.lookup s.readCursor with
      | none =>
          rw [readNext_none h]
          exact iff_of_false (fun h => h rfl) (not_hasData_of_none h)
      | some packet =>
          have hleft := hs _ _ h
          have hlen := hleft.unread_length
          rw [hasData_iff_of_some h]
          by_cases hempty : packet.buf = []
          · -- an empty packet fits, and the room stays as it is
            have hzero : usizeSub packet.buf.length packet.readOffset = 0 := by
              rw [hlen, hempty]
              exact Nat.zero_sub _
            have hrest : (s.readWhole packet).incoming.size = size := by
              have hsucc := AList.size_of_lookup h
              change (s.incoming.erase s.readCursor).size = size
              omega
            rw [readNext_fits h (by omega), hzero, hempty]
            dsimp only
            rw [List.drop_nil, List.nil_append, Nat.sub_zero]
            refine (ih (s := s.readWhole packet) (hs.erase _) hrest).trans ?_
            exact (or_iff_right fun h => h rfl).symm
          · refine iff_of_true ?_ (Or.inl hempty)
            have hunread : packet.buf.drop packet.readOffset ≠ [] := fun h => hempty (hleft.unread_eq_nil_iff.mp h)
            by_cases hlong : remaining < usizeSub packet.buf.length packet.readOffset
            · rw [readNext_long h hlong]
              change slice packet.buf packet.readOffset (packet.readOffset + remaining) ≠ []
              rw [slice, Nat.add_sub_cancel_left]
              simp only [ne_eq, List.take_eq_nil_iff, not_or]
              exact ⟨by omega, hunread⟩
            · rw [readNext_fits h (Nat.not_lt.mp hlong)]
              exact fun h => hunread (List.append_eq_nil_iff.mp h).1

/-- A read that reports success has put a byte into the buffer. -/
def SuccessHasBytes (s : UdxStreamInner) (waker : Waker) (remaining : Nat) : Prop :=
  (s.pollRead waker remaining).2.2 = .ready (.ok ()) → (s.pollRead waker remaining).2.1 ≠ []

/-- **Success without bytes.** In every state of every run, a read with room that reports success has put a byte into
the buffer, exactly unless all packets that follow each other from the cursor on are empty and there is one. -/
theorem successHasBytes_iff {u : UdxStream} (hu : u.Reachable) (waker : Waker) {remaining : Nat}
    (hpos : 0 < remaining) : SuccessHasBytes u.inner waker remaining ↔
      u.inner.readCursor ∉ u.inner.incoming ∨ HasData u.inner.incoming u.inner.readCursor := by
  rw [SuccessHasBytes, pollRead_bytes, pollRead_ok_iff, readNext_bytes_iff hu.allLeftover hpos]
  constructor
  · intro hsuccess
    cases h : u.inner.incoming.lookup u.inner.readCursor with
    | none => exact Or.inl (AList.lookup_eq_none.mp h)
    | some packet =>
        right
        by_cases hempty : packet.buf = []
        · have hlen : usizeSub packet.buf.length packet.readOffset ≤ remaining := by
            rw [(hu.allLeftover _ _ h).unread_length, hempty]
            exact Nat.le_trans (Nat.sub_le _ _) (Nat.zero_le _)
          exact hsuccess (by rw [readNext_fits h hlen])
        · exact (hasData_iff_of_some h).mpr (Or.inl hempty)
  · rintro (hnot | hdata) hflag
    · rw [readNext_none (AList.lookup_eq_none.mpr hnot)] at hflag
      cases hflag
    · exact hdata

/-- A data packet arrives and is handled. -/
def receiveRun (payload : List UInt8) : List Event :=
  [.recv ⟨udxHeaderData, 0, 1, 0xffffffff, 0, 0⟩ payload ⟨.v4 0, 2⟩, .call (.poll 0 0 10 1)]

theorem successHasBytes_full :
    let u := (UdxStream.connect 0 ⟨.v4 0, 2⟩ 2 1).run (receiveRun [1, 2])
    (u.inner.pollRead 0 4).2 = ([1, 2], .ready (.ok ())) ∧ SuccessHasBytes u.inner 0 4 := by
  intro u
  have hlookup : u.inner.incoming.lookup u.inner.readCursor =
      some ⟨⟨udxHeaderData, 0, 1, 0xffffffff, 0, 0⟩, [1, 2], 0, ⟨.v4 0, 2⟩⟩ := by decide
  have hdata : HasData u.inner.incoming u.inner.readCursor := (hasData_iff_of_some hlookup).mpr (Or.inl (by decide))
  refine ⟨by decide, (successHasBytes_iff ⟨0, ⟨.v4 0, 2⟩, 2, 1, receiveRun [1, 2], rfl⟩ 0 (by decide)).mpr ?_⟩
  exact Or.inr hdata

theorem emptyPacket_succeeds_without_bytes :
    let u := (UdxStream.connect 0 ⟨.v4 0, 2⟩ 2 1).run (receiveRun [])
    u.Reachable ∧ (u.inner.pollRead 0 4).2 = ([], .ready (.ok ())) ∧ ¬SuccessHasBytes u.inner 0 4 := by
  intro u
  have hread : (u.inner.pollRead 0 4).2 = ([], .ready (.ok ())) := by decide
  refine ⟨⟨0, ⟨.v4 0, 2⟩, 2, 1, receiveRun [], rfl⟩, hread, fun h => ?_⟩
  exact h (by rw [hread]) (by rw [hread])

/-! ### Bytes without success -/

/-- A packet longer than the room left is at the cursor. -/
def TooLong (s : UdxStreamInner) (remaining : Nat) : Prop :=
  ∃ packet, s.incoming.lookup s.readCursor = some packet ∧ packet.readOffset + remaining < packet.buf.length

/-- A read that does not report success has taken nothing and passed over nothing, and no byte was there to be read:
every packet from the cursor up to `ack`, counted around the end of the range, has been read. -/
def FailureTakesNothing (s : UdxStreamInner) (waker : Waker) (remaining : Nat) : Prop :=
  (s.pollRead waker remaining).2.2 ≠ .ready (.ok ()) →
    (s.pollRead waker remaining).2.1 = [] ∧
    (s.pollRead waker remaining).1.incoming = s.incoming ∧
    (s.pollRead waker remaining).1.readCursor = s.readCursor ∧
    ∀ n < s.ack - s.readCursor, ∀ packet, s.incoming.lookup (s.readCursor + n) = some packet →
      packet.buf.drop packet.readOffset = []

/-- Every number from the cursor up to `ack` is a key, and `ack` is not. -/
structure InOrder (v : RecvSide) : Prop where
  seq_eq : ∀ k packet, v.incoming.lookup k = some packet → packet.header.seq = k
  contiguous : ∀ n < v.ack - v.readCursor, v.readCursor + n ∈ v.incoming
  settled : v.ack ∉ v.incoming

/-- How far the loop that advances `ack` gets, whether it ends or runs out of rounds. -/
theorem advanceAck_rounds (incoming : SeqMap IncomingPacket) (fuel : Nat) (ack : UInt32) :
    ∃ k ≤ fuel, advanceAck incoming fuel ack = ack + UInt32.ofNat k ∧
      (∀ j < k, ack + UInt32.ofNat j ∈ incoming) ∧ (k = fuel ∨ ack + UInt32.ofNat k ∉ incoming) := by
  have hshift : ∀ (ack : UInt32) (j : Nat), ack + 1 + UInt32.ofNat j = ack + UInt32.ofNat (j + 1) := by
    intro ack j
    rw [UInt32.ofNat_add, UInt32.add_assoc, UInt32.add_comm 1]
    rfl
  induction fuel generalizing ack with
  | zero => exact ⟨0, Nat.le_refl _, (UInt32.add_zero ack).symm, fun j hj => absurd hj (Nat.not_lt_zero j), Or.inl rfl⟩
  | succ fuel ih =>
      rw [advanceAck]
      split
      · rename_i hmem
        obtain ⟨k, hk, heq, hpassed, hend⟩ := ih (ack + 1)
        rw [hshift] at heq hend
        refine ⟨k + 1, Nat.succ_le_succ hk, heq, fun j hj => ?_, hend.imp_left (congrArg (· + 1))⟩
        cases j with
        | zero =>
            rw [show ack + UInt32.ofNat 0 = ack from UInt32.add_zero ack]
            exact hmem
        | succ j =>
            rw [← hshift]
            exact hpassed j (Nat.lt_of_succ_lt_succ hj)
      · rename_i hnot
        refine ⟨0, Nat.zero_le _, (UInt32.add_zero ack).symm, fun j hj => absurd hj (Nat.not_lt_zero j), Or.inr ?_⟩
        rw [show ack + UInt32.ofNat 0 = ack from UInt32.add_zero ack]
        exact hnot

/-- The loop ends at a number that is not a key, if there is one. -/
theorem advanceAck_settles {incoming : SeqMap IncomingPacket} {m : UInt32} (hm : m ∉ incoming) (ack : UInt32) :
    ∃ k < 2 ^ 32, advanceAck incoming (2 ^ 32) ack = ack + UInt32.ofNat k ∧
      (∀ j < k, ack + UInt32.ofNat j ∈ incoming) ∧ ack + UInt32.ofNat k ∉ incoming := by
  obtain ⟨k, hk, heq, hpassed, hend⟩ := advanceAck_rounds incoming (2 ^ 32) ack
  have hbefore : k ≠ 2 ^ 32 := by
    rintro rfl
    -- the missing number was passed
    refine hm ?_
    have hpass := hpassed (m - ack).toNat (m - ack).toNat_lt
    rwa [UInt32.ofNat_toNat, UInt32.add_comm, UInt32.sub_add_cancel] at hpass
  exact ⟨k, Nat.lt_of_le_of_ne hk hbefore, heq, hpassed, hend.resolve_left hbefore⟩

namespace InOrder

theorem data {v : RecvSide} (hv : InOrder v) (packet : IncomingPacket) {m : UInt32}
    (hm : m ∉ (v.file packet).incoming) :
    InOrder { v.file packet with ack := advanceAck (v.file packet).incoming (2 ^ 32) v.ack } := by
  have hgrows : ∀ k ∈ v.incoming, k ∈ (v.file packet).incoming := by
    intro k hk
    unfold RecvSide.file
    dsimp only
    split
    · exact (AList.mem_insert _).mpr (Or.inr hk)
    · exact hk
  obtain ⟨k, hk, heq, hpassed, hnot⟩ := advanceAck_settles hm v.ack
  rw [heq]
  refine ⟨fun key other hlookup => ?_, fun n hn => ?_, hnot⟩
  · change (if v.ack ≤ packet.seq then v.incoming.insert packet.seq packet else v.incoming).lookup key = _ at hlookup
    split at hlookup
    · rcases AList.lookup_insert_eq_some hlookup with ⟨rfl, rfl⟩ | ⟨-, hold⟩
      · rfl
      · exact hv.seq_eq key other hold
    · exact hv.seq_eq key other hlookup
  · change v.readCursor + n ∈ (v.file packet).incoming
    change n < v.ack + UInt32.ofNat k - v.readCursor at hn
    -- below the old `ack` by the invariant, from there on by the loop
    by_cases hold : n < v.ack - v.readCursor
    · exact hgrows _ (hv.contiguous n hold)
    · have hpast := hpassed (n - (v.ack - v.readCursor)).toNat ?_
      · rwa [UInt32.ofNat_toNat, show v.ack + (n - (v.ack - v.readCursor)) = v.readCursor + n by grind] at hpast
      · have hack := v.ack.toNat_lt
        have hcursor := v.readCursor.toNat_lt
        have hnlt := n.toNat_lt
        simp only [UInt32.lt_iff_toNat_lt, UInt32.toNat_sub, UInt32.toNat_add, UInt32.toNat_ofNat'] at hn hold ⊢
        omega

theorem readPart {v : RecvSide} (hv : InOrder v) {packet : IncomingPacket} (remaining : Nat)
    (hlookup : v.incoming.lookup v.readCursor = some packet) : InOrder (v.readPart packet remaining) := by
  have hentry := v.readPart_lookup packet remaining (hv.seq_eq _ _ hlookup)
  have hkeys : ∀ k, k ∈ (v.readPart packet remaining).incoming ↔ k ∈ v.incoming := by
    intro k
    rw [← AList.lookup_isSome, ← AList.lookup_isSome, hentry]
    split_ifs with hk
    · rw [hk, hlookup]
      simp
    · rfl
  refine ⟨fun k other h => ?_, fun n hn => (hkeys _).mpr (hv.contiguous n hn), fun h => hv.settled ((hkeys _).mp h)⟩
  rw [hentry] at h
  split_ifs at h with hk
  · cases h
    rw [hk]
    exact hv.seq_eq _ packet hlookup
  · exact hv.seq_eq k other h

theorem readWhole {v : RecvSide} (hv : InOrder v) {packet : IncomingPacket}
    (hlookup : v.incoming.lookup v.readCursor = some packet) : InOrder (v.readWhole packet) := by
  refine ⟨fun k other h => hv.seq_eq k other (AList.lookup_erase_eq_some h).2, fun n hn => ?_,
    fun h => hv.settled (AList.mem_erase.mp h).2⟩
  change n < v.ack - (v.readCursor + 1) at hn
  change v.readCursor + 1 + n ∈ v.incoming.erase v.readCursor
  -- the packet at the cursor is not the one at `ack`
  have hne : v.ack ≠ v.readCursor := fun h => hv.settled (h ▸ AList.mem_of_lookup hlookup)
  have hneNat : v.ack.toNat ≠ v.readCursor.toNat := fun h => hne (UInt32.toNat.inj h)
  have hack := v.ack.toNat_lt
  have hcursor := v.readCursor.toNat_lt
  have hnlt := n.toNat_lt
  rw [show v.readCursor + 1 + n = v.readCursor + (n + 1) by grind]
  simp only [UInt32.lt_iff_toNat_lt, UInt32.toNat_sub, UInt32.toNat_add, UInt32.toNat_one] at hn
  refine AList.mem_erase.mpr ⟨fun h => ?_, hv.contiguous _ ?_⟩
  · have h := congrArg UInt32.toNat h
    simp only [UInt32.toNat_add, UInt32.toNat_one] at h
    omega
  · simp only [UInt32.lt_iff_toNat_lt, UInt32.toNat_sub, UInt32.toNat_add, UInt32.toNat_one]
    omega

end InOrder

/-- No elementary change takes a key out of the map. -/
theorem Micro.mem_incoming {s t : UdxStreamInner} (h : Micro ok now s t) {k : UInt32} (hk : k ∈ s.recvSide.incoming) :
    k ∈ t.recvSide.incoming := by
  cases h with
  | ackNext packet hok hlt =>
      rw [UdxStreamInner.ackNext, ackPacket_recvSide]
      exact hk
  | sack packet i hok htype =>
      rw [ackPacket_recvSide]
      exact hk
  | data packet hok htype =>
      change k ∈ if s.ack ≤ packet.seq then s.incoming.insert packet.seq packet else s.incoming
      split
      · exact (AList.mem_insert _).mpr (Or.inr hk)
      · exact hk
  | _ => exact hk

theorem Micro.inOrder {m : UInt32} {s t : UdxStreamInner} (h : Micro ok now s t) (hs : InOrder s.recvSide)
    (hm : m ∉ t.recvSide.incoming) : InOrder t.recvSide := by
  cases h with
  | ackNext packet hok hlt =>
      rw [UdxStreamInner.ackNext, ackPacket_recvSide]
      exact hs
  | sack packet i hok htype =>
      rw [ackPacket_recvSide]
      exact hs
  | data packet hok htype => exact hs.data packet hm
  | _ => exact hs

/-- Without packets that are handled, the order is kept whatever the map holds. -/
theorem Move.inOrder_of_noPacket {s t : UdxStreamInner} (h : Move (fun _ => False) now s t) (hs : InOrder s.recvSide) :
    InOrder t.recvSide := by
  cases h with
  | micro h =>
      cases h with
      | ackNext packet hok hlt => exact hok.elim
      | sack packet i hok htype => exact hok.elim
      | data packet hok htype => exact hok.elim
      | _ => exact hs
  | readPart packet remaining hlookup hlong => exact hs.readPart remaining hlookup
  | readWhole packet hlookup => exact hs.readWhole hlookup
  | _ => exact hs

/-- The loop that advances `ack` has ended. With all numbers in the map it never does, and the call it is part of
does not return. -/
def AckSettled (u : UdxStream) : Prop := u.inner.ack ∉ u.inner.incoming

instance (u : UdxStream) : Decidable (AckSettled u) := inferInstanceAs (Decidable (u.inner.ack ∉ u.inner.incoming))

theorem step_inOrder (u : UdxStream) (e : Event) (hs : InOrder u.inner.recvSide) (hsettled : AckSettled (u.step e)) :
    InOrder (u.step e).inner.recvSide := by
  cases e with
  | recv header buf source => exact hs
  | call c =>
      by_cases hdrives : u.drives c
      · cases c with
        | poll waker timerLag budget maxGsoSegments =>
            rw [AckSettled, UdxStream.step, UdxStream.call_poll hdrives.1] at hsettled
            rw [UdxStream.step, UdxStream.call_poll hdrives.1]
            let cx : Context := ⟨waker, u.clock, timerLag, budget, maxGsoSegments⟩
            have hframe : (u.poll cx).inner.recvSide =
                ({ u.inner with driveWaker := none }.pollDrive cx).1.recvSide :=
              (UdxStream.poll_frame recvSide (fun _ _ => rfl) (fun _ _ _ => rfl) u cx).trans
                (pollDriver_frame recvSide (fun _ _ => rfl) (fun _ _ _ => rfl) u.inner cx hdrives.2)
            change (u.poll cx).inner.recvSide.ack ∉ (u.poll cx).inner.recvSide.incoming at hsettled
            change InOrder (u.poll cx).inner.recvSide
            rw [hframe] at hsettled ⊢
            have hchain : Chain UdxStream.anyPacket cx.now { u.inner with driveWaker := none }
                ({ u.inner with driveWaker := none }.pollDrive cx).1 := pollDrive_chain _ cx fun _ _ => trivial
            exact chain_invariant_bounded (fun s => InOrder s.recvSide) (fun s => _ ∉ s.recvSide.incoming)
              (fun _ _ h hnot hmem => hnot (h.mem_incoming hmem)) (fun _ _ h => h.inOrder) hchain hs hsettled
        | _ => exact hdrives.elim
      · exact chain_invariant (fun s => InOrder s.recvSide) (fun _ _ h => h.inOrder_of_noPacket)
          (u.call_moves c fun h => absurd h hdrives) hs

theorem connect_inOrder (start : Nat) (dest : SocketAddr) (remoteId localId : UInt32) :
    InOrder (UdxStreamInner.connect start dest remoteId localId).recvSide where
  seq_eq := fun k _ h => absurd (AList.mem_of_lookup h) (AList.notMem_empty k)
  contiguous := fun n h => absurd (show n < 0 - 0 from h) UInt32.not_lt_zero
  settled := AList.notMem_empty 0

/-- **Failure takes nothing.** In every run whose calls return, a read with room that reports an error or waits has
taken nothing, and there was nothing to take, exactly unless the packet at the cursor is longer than the room. -/
theorem failureTakesNothing_iff (start : Nat) (dest : SocketAddr) (remoteId localId : UInt32) (events : List Event)
    (hsettled : Runs.Always UdxStream.step AckSettled (.connect start dest remoteId localId) events) (waker : Waker)
    {remaining : Nat} (hpos : 0 < remaining) :
    let u := (UdxStream.connect start dest remoteId localId).run events
    FailureTakesNothing u.inner waker remaining ↔ ¬TooLong u.inner remaining := by
  intro u
  have hu : u.Reachable := ⟨start, dest, remoteId, localId, events, rfl⟩
  have horder : InOrder u.inner.recvSide :=
    Runs.run_invariant_of_always (fun u : UdxStream => InOrder u.inner.recvSide) step_inOrder
      (connect_inOrder start dest remoteId localId) hsettled
  have hbytes := readNext_bytes_iff hu.allLeftover hpos
  rw [FailureTakesNothing, Ne, pollRead_ok_iff, pollRead_bytes,
    pollRead_frame incoming (fun _ _ => rfl), pollRead_frame readCursor (fun _ _ => rfl)]
  cases h : u.inner.incoming.lookup u.inner.readCursor with
  | none =>
      -- the cursor is at `ack`
      have hend : ∀ n, ¬n < u.inner.ack - u.inner.readCursor := by
        intro n hn
        have hmem := horder.contiguous 0 (UInt32.lt_of_le_of_lt UInt32.zero_le hn)
        rw [UInt32.add_zero] at hmem
        exact AList.lookup_eq_none.mp h hmem
      rw [readNext_none h]
      refine iff_of_true (fun _ => ⟨rfl, rfl, rfl, fun n hn => absurd hn (hend n)⟩) ?_
      rintro ⟨packet, hlookup, -⟩
      rw [h] at hlookup
      cases hlookup
  | some packet =>
      have hlen := (hu.allLeftover _ _ h).unread_length
      by_cases hlong : remaining < usizeSub packet.buf.length packet.readOffset
      · have htoo : TooLong u.inner remaining := ⟨packet, h, by omega⟩
        refine iff_of_false (fun hnothing => ?_) (fun hfits => hfits htoo)
        refine hbytes.mpr ((hasData_iff_of_some h).mpr (Or.inl fun hempty => ?_)) (hnothing ?_).1
        · rw [hlen, hempty] at hlong
          exact absurd hlong (by simp)
        · rw [readNext_long h hlong]
          exact Bool.false_ne_true
      · refine iff_of_true (fun hfailed => absurd ?_ hfailed) ?_
        · rw [readNext_fits h (Nat.not_lt.mp hlong)]
        · rintro ⟨other, hother, htoo⟩
          rw [h] at hother
          cases hother
          omega

/-- A packet is received and read to its end. -/
def drainedRun : List Event := receiveRun [1, 2] ++ [.call (.read 0 2)]

theorem failureTakesNothing_drained :
    let u := (UdxStream.connect 0 ⟨.v4 0, 2⟩ 2 1).run drainedRun
    (u.inner.pollRead 0 1).2 = ([], .pending) ∧ FailureTakesNothing u.inner 0 1 := by
  intro u
  have hnone : u.inner.incoming.lookup u.inner.readCursor = none := by decide
  refine ⟨by decide, (failureTakesNothing_iff 0 ⟨.v4 0, 2⟩ 2 1 drainedRun (by decide) 0 (by decide)).mpr ?_⟩
  rintro ⟨packet, hlookup, -⟩
  rw [hnone] at hlookup
  cases hlookup

theorem longPacket_swallowed :
    let u := (UdxStream.connect 0 ⟨.v4 0, 2⟩ 2 1).run (receiveRun [1, 2, 3])
    Runs.Always UdxStream.step AckSettled (.connect 0 ⟨.v4 0, 2⟩ 2 1) (receiveRun [1, 2, 3]) ∧
      (u.inner.pollRead 0 2).2 = ([1, 2], .pending) ∧ ¬FailureTakesNothing u.inner 0 2 := by
  intro u
  have hread : (u.inner.pollRead 0 2).2 = ([1, 2], .pending) := by decide
  refine ⟨by decide, hread, fun h => ?_⟩
  have hnothing := (h (by rw [hread]; simp)).1
  rw [hread] at hnothing
  cases hnothing

end AsyncUdx
