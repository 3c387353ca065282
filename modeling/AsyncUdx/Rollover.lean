import AsyncUdx.Emission
import AsyncUdx.Reassembly
import AsyncUdx.StreamPoll

/-! The three counters of a stream. `seq`, `ack` and `read_cursor` have thirty-two bits, are incremented by one and are
compared as plain numbers; nothing makes a stream start anew before one of them wraps. Beside each loop that increments
a counter stands whether one of its increments overflows. In a run none does exactly as long as fewer than `2 ^ 32` data
packets have been created and some number has not been received; and then the numbers order the packets by age. -/

namespace AsyncUdx

open Relation UdxStreamInner Reassembly

variable {now : Nat}

/-! ### Increments that overflow -/

/-- An increment of `advanceAck` overflows. -/
def advanceAckOverflows (incoming : SeqMap IncomingPacket) : Nat → UInt32 → Bool
  | 0, _ => false
  | fuel + 1, i => if i ∈ incoming then i == 0xffffffff || advanceAckOverflows incoming fuel (i + 1) else false

namespace UdxStreamInner

/-- `ack` overflows while a packet is handled. The parts of the packet before its data change neither `incoming` nor
`ack`. -/
def handleIncomingOverflows (s : UdxStreamInner) (packet : IncomingPacket) : Bool :=
  s.firewallPass packet.source && packet.hasType udxHeaderData &&
    advanceAckOverflows (if s.ack ≤ packet.seq then s.incoming.insert packet.seq packet else s.incoming) (2 ^ 32) s.ack

/-- `ack` overflows while packets are handled one after the other. -/
def handleAllOverflows (now : Nat) : List IncomingPacket → UdxStreamInner → Bool
  | [], _ => false
  | packet :: rest, s => s.handleIncomingOverflows packet || handleAllOverflows now rest (s.handleIncoming now packet)

/-- `read_cursor` overflows in the loop of `read_next`. -/
def readLoopOverflows : Nat → Nat → UdxStreamInner → Bool
  | 0, _, _ => false
  | fuel + 1, remaining, s =>
      match s.incoming.lookup s.readCursor with
      | none => false
      | some packet =>
          let len := usizeSub packet.buf.length packet.readOffset
          if len > remaining then false
          else s.readCursor == 0xffffffff || readLoopOverflows fuel (remaining - len) (s.readWhole packet)

/-- `seq` overflows in the loop of `poll_write`. -/
def writeLoopOverflows (now : Nat) (buf : List UInt8) : Nat → Nat → UdxStreamInner → Bool
  | 0, _, _ => false
  | fuel + 1, written, s =>
      if written ≥ buf.length then false
      else
        let sent := s.sendDataPacket now (buf.drop written)
        if sent.2 = 0 then false
        else s.seq == 0xffffffff || writeLoopOverflows now buf fuel (written + sent.2) sent.1

end UdxStreamInner

/-- An event in which a counter overflows. -/
def UdxStream.overflows (u : UdxStream) : Event → Bool
  | .call (.write _ buf) =>
      decide (u.handles ≠ 0) && u.inner.error.isNone && writeLoopOverflows u.clock buf (buf.length + 1) 0 u.inner
  | .call (.read _ remaining) =>
      decide (u.handles ≠ 0) && readLoopOverflows u.inner.incoming.size remaining u.inner
  | .call (.poll _ _ budget _) =>
      decide (u.driver = .running) && !u.inner.closedAndDrained &&
        handleAllOverflows u.clock (u.inner.consumes budget) ({ u.inner with driveWaker := none }.drained budget)
  | _ => false

/-- Fewer packets have been created than there are numbers, and some number has not been received. -/
def Unwrapped (s : UdxStreamInner) : Prop := FewCreated s ∧ ∃ m, m ∉ s.ghost.received

/-- The numbers order the packets by age: those of the packets created increase, the range between `remote_acked` and
`seq` is that of the youngest ones, and of what is received all that is older than `ack` has come, and has been read as
far as `read_cursor`. -/
structure Ordered (s : UdxStreamInner) : Prop where
  increasing : (s.ghost.created.map Packet.seq).Pairwise (· < ·)
  window : Counter.range s.remoteAcked s.seq = (s.ghost.created.drop s.remoteAcked.toNat).map Packet.seq
  least : LeastMissing s.ghost.received s.ack
  cursor_le : s.readCursor ≤ s.ack

/-! ### Receiving -/

/-- Without an overflow the loop ends at a number that is not a key. -/
theorem advanceAck_stops {incoming : SeqMap IncomingPacket} (fuel : Nat) (ack : UInt32)
    (h : advanceAckOverflows incoming fuel ack = false) (hfuel : 2 ^ 32 ≤ ack.toNat + fuel) :
    advanceAck incoming fuel ack ∉ incoming ∧ ack ≤ advanceAck incoming fuel ack := by
  induction fuel generalizing ack with
  | zero =>
      have hlt := ack.toNat_lt
      omega
  | succ fuel ih =>
      rw [advanceAckOverflows] at h
      rw [advanceAck]
      split at h
      · rename_i hmem
        obtain ⟨hlast, hrest⟩ := Bool.or_eq_false_iff.mp h
        have hsucc := Counter.toNat_succ (Counter.ne_last_iff.mp (by simpa using hlast))
        obtain ⟨hstop, hle⟩ := ih (ack + 1) hrest (by omega)
        rw [if_pos hmem]
        refine ⟨hstop, UInt32.le_trans ?_ hle⟩
        rw [UInt32.le_iff_toNat_le, hsucc]
        omega
      · rename_i hmem
        rw [if_neg hmem]
        exact ⟨hmem, UInt32.le_refl _⟩

/-- A number ahead that is not a key ends the loop before it overflows. -/
theorem advanceAckOverflows_of_notMem {incoming : SeqMap IncomingPacket} {m : UInt32} (hm : m ∉ incoming) (fuel : Nat)
    (ack : UInt32) (hle : ack ≤ m) : advanceAckOverflows incoming fuel ack = false := by
  induction fuel generalizing ack with
  | zero => rfl
  | succ fuel ih =>
      rw [advanceAckOverflows]
      split
      · rename_i hmem
        have hlt : ack < m := Std.lt_of_le_of_ne hle fun h => hm (h ▸ hmem)
        have hltNat := UInt32.lt_iff_toNat_lt.mp hlt
        have hmlt := m.toNat_lt
        have hne : ack ≠ 0xffffffff := Counter.ne_last_iff.mpr (by omega)
        have hsucc := Counter.toNat_succ_of_lt hlt
        rw [ih (ack + 1) (UInt32.le_iff_toNat_le.mpr (by omega)), Bool.or_false]
        exact beq_false_of_ne hne
      · rfl

/-- Filing a packet lets `ack` overflow exactly if no number is missing then. -/
theorem file_overflows_iff {v : RecvSide} (hv : Reassembled v) (packet : IncomingPacket) :
    advanceAckOverflows (v.file packet).incoming (2 ^ 32) v.ack = false ↔ ∃ m, m ∉ (v.file packet).received := by
  have hkeys := RecvSide.mem_file_incoming hv packet
  constructor
  · intro h
    obtain ⟨hstop, hle⟩ := advanceAck_stops (2 ^ 32) v.ack h (Nat.le_add_left _ _)
    exact ⟨_, fun hmem => hstop ((hkeys _).mpr ⟨hmem, UInt32.le_trans hv.cursor_le hle⟩)⟩
  · rintro ⟨m, hm⟩
    have hmissing : m ∉ v.received := fun hmem => hm (List.mem_append_left _ hmem)
    exact advanceAckOverflows_of_notMem (fun hmem => hm ((hkeys m).mp hmem).1) _ _ (hv.least.le_of_notMem hmissing)

theorem handleIncoming_overflows_iff {s : UdxStreamInner} (hfirewall : s.onFirewall = none)
    (hs : Reassembled s.recvSide) (packet : IncomingPacket) :
    s.handleIncomingOverflows packet = false ↔ ∃ m, m ∉ (s.handleIncoming now packet).ghost.received := by
  rw [handleIncoming_received hfirewall, handleIncomingOverflows, firewallPass_of_none hfirewall]
  cases packet.hasType udxHeaderData with
  | true => exact file_overflows_iff hs packet
  | false => exact iff_of_true rfl ⟨s.ack, by rw [if_neg (by simp), List.append_nil]; exact hs.least.1⟩

theorem handleAll_received_grows (packets : List IncomingPacket) (s : UdxStreamInner) :
    s.ghost.received <+: (s.handleAll now packets).ghost.received := by
  refine handleAll_invariant (fun t => s.ghost.received <+: t.ghost.received) packets (fun t packet ht => ?_)
    List.prefix_rfl
  have hchain : Chain UdxStream.anyPacket now t (t.handleIncoming now packet) := handleIncoming_chain trivial t
  exact chain_invariant (fun t => s.ghost.received <+: t.ghost.received) (fun _ _ h ht => ht.trans h.received_prefix)
    hchain ht

/-- A batch lets `ack` overflow exactly if no number is missing after it. -/
theorem handleAll_overflows_iff {packets : List IncomingPacket} (hfresh : ∀ packet ∈ packets, freshPacket packet)
    {s : UdxStreamInner} (hfirewall : s.onFirewall = none) (hs : Reassembled s.recvSide) :
    handleAllOverflows now packets s = false ↔ ∃ m, m ∉ (s.handleAll now packets).ghost.received := by
  induction packets generalizing s with
  | nil => exact iff_of_true rfl ⟨s.ack, hs.least.1⟩
  | cons packet rest ih =>
      rw [List.forall_mem_cons] at hfresh
      let handled : UdxStreamInner := s.handleIncoming now packet
      have hone := @handleIncoming_overflows_iff now s hfirewall hs packet
      have hrest : ∀ m, m ∉ handled.ghost.received →
          (handleAllOverflows now rest handled = false ↔ ∃ m, m ∉ (handled.handleAll now rest).ghost.received) := by
        intro m hm
        have hchain : Chain freshPacket now s handled := handleIncoming_chain hfresh.1 s
        exact ih hfresh.2 ((handleIncoming_onFirewall s packet).trans hfirewall)
          ((reassembled_invariant m).advance (.moves hchain.moves) hs hm)
      rw [handleAllOverflows, Bool.or_eq_false_iff]
      change _ ↔ ∃ m, m ∉ (handled.handleAll now rest).ghost.received
      constructor
      · rintro ⟨hfirst, hlater⟩
        obtain ⟨m, hm⟩ := hone.mp hfirst
        exact (hrest m hm).mp hlater
      · rintro ⟨m, hm⟩
        have hbefore : m ∉ handled.ghost.received :=
          fun hmem => hm ((handleAll_received_grows rest handled).subset hmem)
        exact ⟨hone.mpr ⟨m, hbefore⟩, (hrest m hbefore).mpr ⟨m, hm⟩⟩

theorem poll_overflows_iff {u : UdxStream} (hfirewall : u.inner.onFirewall = none)
    (hqueue : ∀ packet ∈ u.inner.recvRx.queue, freshPacket packet) (hs : Reassembled u.inner.recvSide) (cx : Context)
    (hopen : u.inner.closedAndDrained = false) :
    handleAllOverflows cx.now (u.inner.consumes cx.budget) ({ u.inner with driveWaker := none }.drained cx.budget) =
      false ↔ ∃ m, m ∉ (u.poll cx).inner.ghost.received := by
  have hreceived : (u.poll cx).inner.ghost.received =
      (UdxStreamInner.handled { u.inner with driveWaker := none } cx).ghost.received := by
    rw [UdxStream.poll_received cx hopen, pollIncoming_state]
    exact handleIncomingMaxRemoteAck_frame (fun s => s.ghost.received) ackPacket_received (fun _ _ => rfl)
      (fun _ _ => rfl) (fun _ _ => rfl) _ _
  rw [hreceived]
  exact handleAll_overflows_iff (fun packet hpacket => hqueue packet (List.mem_of_mem_take hpacket)) hfirewall hs

/-! ### Reading and writing -/

/-- The cursor is only moved past a number below `ack`. -/
theorem readLoop_not_overflows (fuel remaining : Nat) {s : UdxStreamInner} (hs : Reassembled s.recvSide) :
    readLoopOverflows fuel remaining s = false := by
  induction fuel generalizing remaining s with
  | zero => rfl
  | succ fuel ih =>
      rw [readLoopOverflows]
      split
      · rfl
      · rename_i packet hlookup
        dsimp only
        split
        · rfl
        · have hlt := UInt32.lt_iff_toNat_lt.mp (hs.cursor_lt hlookup)
          have hack := s.ack.toNat_lt
          change s.readCursor.toNat < s.ack.toNat at hlt
          have hne : s.readCursor ≠ 0xffffffff := Counter.ne_last_iff.mpr (by omega)
          rw [ih _ (s := s.readWhole packet) (readWhole_reassembled hs hlookup), Bool.or_false]
          exact beq_false_of_ne hne

/-- A write lets `seq` overflow exactly if as many packets have been created as there are numbers. -/
theorem writeLoop_overflows_iff (waker : Waker) (buf : List UInt8) (fuel written : Nat) {s : UdxStreamInner}
    (herror : s.error = none) (hs : Accounted s.sendSide) (hfew : FewCreated s) :
    writeLoopOverflows now buf fuel written s = false ↔ FewCreated (writeLoop now waker buf fuel written s).1 := by
  induction fuel generalizing written s with
  | zero => exact iff_of_true rfl hfew
  | succ fuel ih =>
      rw [writeLoopOverflows, writeLoop]
      split
      · exact iff_of_true rfl hfew
      · rename_i hleft
        rcases sendDataPacket_cases now s (buf.drop written) with h | ⟨-, h⟩
        · rw [h]
          dsimp only
          rw [if_pos rfl, if_pos rfl]
          split <;> exact iff_of_true rfl hfew
        · let pushed : UdxStreamInner := s.pushData now ((buf.drop written).take udxMaxDataSize)
          have hlength : pushed.ghost.created.length = s.seq.toNat + 1 := by
            have hseq : s.seq.toNat = s.ghost.created.length := hs.seq_eq
            rw [hseq]
            exact List.length_append
          have hone : (s.seq == 0xffffffff) = false ↔ FewCreated pushed := by
            rw [beq_eq_false_iff_ne, Counter.ne_last_iff, FewCreated, hlength]
          have hsome : ((buf.drop written).take udxMaxDataSize).length ≠ 0 := by
            rw [List.length_take, List.length_drop, udxMaxDataSize]
            omega
          rw [h]
          dsimp only
          rw [if_neg hsome, if_neg hsome, Bool.or_eq_false_iff, hone]
          constructor
          · rintro ⟨hpushed, hlater⟩
            exact (ih _ (s := pushed) herror (pushData_accounted hs hpushed) hpushed).mp hlater
          · intro hend
            have hmoves := @writeLoop_moves UdxStream.anyPacket now waker buf fuel
              (written + ((buf.drop written).take udxMaxDataSize).length) pushed herror
            have hpushed : FewCreated pushed := hmoves.created_prefix.length_le.trans_lt hend
            exact ⟨hpushed, (ih _ (s := pushed) herror (pushData_accounted hs hpushed) hpushed).mpr hend⟩

theorem pollWrite_overflows_iff (waker : Waker) (buf : List UInt8) {s : UdxStreamInner} (hs : Accounted s.sendSide)
    (hfew : FewCreated s) :
    (s.error.isNone && writeLoopOverflows now buf (buf.length + 1) 0 s) = false ↔
      FewCreated (s.pollWrite now waker buf).1 := by
  unfold pollWrite
  cases herror : s.error with
  | some error => exact iff_of_true rfl hfew
  | none =>
      dsimp only
      split
      · rename_i hempty
        rw [List.isEmpty_iff.mp hempty]
        exact iff_of_true rfl hfew
      · exact writeLoop_overflows_iff waker buf _ _ herror hs hfew

/-! ### One event -/

theorem Move.received_eq {s t : UdxStreamInner} (h : Move (fun _ => False) now s t) :
    t.ghost.received = s.ghost.received := by
  cases h with
  | micro h =>
      cases h with
      | ackNext packet hok hlt => exact hok.elim
      | sack packet i hok htype => exact hok.elim
      | data packet hok htype => exact hok.elim
      | _ => rfl
  | _ => rfl

/-- Only a poll that drives the stream receives packets. -/
theorem UdxStream.call_received {u : UdxStream} {c : Call} (hidle : ¬u.drives c) :
    (u.call c).inner.ghost.received = u.inner.ghost.received :=
  chain_value (fun s => s.ghost.received) (fun _ _ h => h.received_eq)
    (u.call_moves c fun hdrives => (hidle hdrives).elim)

/-- Only a write creates packets. -/
theorem UdxStream.call_created {u : UdxStream} {c : Call} (hwrite : ∀ waker buf, c ≠ .write waker buf) :
    (u.call c).inner.ghost.created = u.inner.ghost.created :=
  u.call_frame (fun s => s.ghost.created) c (fun _ _ _ h => h.created_eq) (fun _ _ => rfl) (fun _ _ _ => rfl)
    (fun waker buf h => absurd h (hwrite waker buf)) (fun _ _ _ => ⟨fun _ _ _ => rfl, fun _ _ => rfl⟩) (fun _ _ => rfl)
    (fun _ _ _ _ _ _ => rfl)

theorem Unwrapped.of_eq {s t : UdxStreamInner} (hs : Unwrapped s) (hcreated : t.ghost.created = s.ghost.created)
    (hreceived : t.ghost.received = s.ghost.received) : Unwrapped t := by
  rwa [Unwrapped, FewCreated, hcreated, hreceived]

theorem Unwrapped.step_back {u : UdxStream} {e : Event} (h : Unwrapped (u.step e).inner) : Unwrapped u.inner := by
  obtain ⟨hfew, m, hm⟩ := h
  have hadvance := u.step_advance_any e
  refine ⟨accounted_invariant.advance_back hadvance hfew, m, fun hmem => hm ?_⟩
  exact (hadvance.invariant (fun s => u.inner.ghost.received <+: s.ghost.received)
    (fun _ _ h hs => hs.trans h.received_prefix) (fun _ _ => id) List.prefix_rfl).subset hmem

section Reachable

variable {u : UdxStream} (hu : u.Reachable)

include hu

theorem reachable_fresh : ∀ packet ∈ u.inner.recvRx.queue, freshPacket packet :=
  hu.invariant (fun u => ∀ packet ∈ u.inner.recvRx.queue, freshPacket packet)
    (fun _ _ _ _ _ h => absurd h List.not_mem_nil)
    fun u e hqueue => (u.step_advance e hqueue fun _ _ _ _ => rfl).queue hqueue

theorem Unwrapped.reassembled (hs : Unwrapped u.inner) : Reassembled u.inner.recvSide := by
  obtain ⟨-, m, hm⟩ := hs
  exact (reassembled_invariant m).reachable (fun _ _ _ => rfl) hu hm

/-- **One event.** It leaves the counters unwrapped exactly if it lets none of them overflow. -/
theorem step_unwrapped_iff (hs : Unwrapped u.inner) (e : Event) :
    Unwrapped (u.step e).inner ↔ u.overflows e = false := by
  cases e with
  | recv header buf source => exact iff_of_true hs rfl
  | call c =>
      change Unwrapped (u.call c).inner ↔ _
      cases c with
      | write waker buf =>
          have hreceived : (u.call (.write waker buf)).inner.ghost.received = u.inner.ghost.received :=
            UdxStream.call_received fun h => h
          have hwrite := @pollWrite_overflows_iff u.clock waker buf u.inner
            (accounted_invariant.reachable (fun _ _ _ => trivial) hu hs.1) hs.1
          rw [Unwrapped, hreceived, and_iff_left hs.2, UdxStream.overflows]
          by_cases hzero : u.handles = 0
          · rw [UdxStream.call, if_pos hzero, hzero]
            exact iff_of_true hs.1 rfl
          · rw [UdxStream.call, if_neg hzero, decide_eq_true hzero, Bool.true_and]
            exact hwrite.symm
      | read waker remaining =>
          have hsame := hs.of_eq (UdxStream.call_created (c := .read waker remaining) (fun _ _ h => by cases h))
            (UdxStream.call_received fun h => h)
          refine iff_of_true hsame ?_
          rw [UdxStream.overflows, readLoop_not_overflows _ _ (hs.reassembled hu), Bool.and_false]
      | poll waker timerLag budget maxGsoSegments =>
          have hcreated := UdxStream.call_created (u := u) (c := .poll waker timerLag budget maxGsoSegments)
            (fun _ _ h => by cases h)
          by_cases hdrives : u.drives (.poll waker timerLag budget maxGsoSegments)
          · obtain ⟨hrunning, hopen⟩ := hdrives
            have hpoll := poll_overflows_iff hu.onFirewall (reachable_fresh hu) (hs.reassembled hu)
              ⟨waker, u.clock, timerLag, budget, maxGsoSegments⟩ hopen
            rw [Unwrapped, FewCreated, hcreated, and_iff_right (show u.inner.ghost.created.length < 2 ^ 32 from hs.1),
              UdxStream.call_poll hrunning, UdxStream.overflows, decide_eq_true hrunning, hopen]
            exact hpoll.symm
          · refine iff_of_true (hs.of_eq hcreated (UdxStream.call_received hdrives)) ?_
            rw [UdxStream.overflows]
            by_cases hrunning : u.driver = .running
            · have hdone : u.inner.closedAndDrained = true := by
                by_contra hopen
                exact hdrives ⟨hrunning, Bool.eq_false_iff.mpr hopen⟩
              rw [hdone, Bool.not_true, Bool.and_false, Bool.false_and]
            · rw [decide_eq_false hrunning, Bool.false_and, Bool.false_and]
      | _ =>
          exact iff_of_true (hs.of_eq (UdxStream.call_created fun _ _ h => by cases h)
            (UdxStream.call_received fun h => h)) rfl

/-! ### The order of the packets -/

theorem created_numbers (hfew : FewCreated u.inner) :
    u.inner.ghost.created.map Packet.seq = Counter.range 0 u.inner.seq := by
  have hemits : Emits u.inner.emitSide := emits_invariant.reachable (fun _ _ _ => trivial) hu hfew
  have hseq : u.inner.seq.toNat = u.inner.ghost.created.length := hemits.seq_eq
  refine List.ext_getElem? fun n => ?_
  rw [Counter.range, hseq, List.getElem?_map, List.getElem?_map]
  by_cases hn : n < u.inner.ghost.created.length
  · have hdata : (u.inner.ghost.created[n]).seq.toNat = n :=
      (hemits.created n _ (List.getElem?_eq_getElem hn)).seq
    rw [List.getElem?_eq_getElem hn, List.getElem?_range' (by simpa using hn)]
    simp only [Option.map_some, UInt32.toNat_zero, Nat.zero_add, Nat.one_mul]
    exact congrArg some (UInt32.toNat.inj (hdata.trans (Counter.toNat_ofNat (hn.trans hfew)).symm))
  · rw [List.getElem?_eq_none (Nat.not_lt.mp hn), List.getElem?_eq_none (by simpa using hn)]
    rfl

theorem Unwrapped.ordered (hs : Unwrapped u.inner) : Ordered u.inner where
  increasing := by
    rw [created_numbers hu hs.1]
    exact Counter.range_increasing _ _
  window := by
    rw [List.map_drop, created_numbers hu hs.1, Counter.drop_range]
  least := (hs.reassembled hu).least
  cursor_le := (hs.reassembled hu).cursor_le

end Reachable

/-- **Counters that do not wrap.** In a run no increment of `seq`, `ack` or `read_cursor` overflows, and all along the
numbers order the packets by age, exactly if fewer than `2 ^ 32` data packets are created and at least one number is
never received. -/
theorem counters_exact_iff (start : Nat) (dest : SocketAddr) (remoteId localId : UInt32) (events : List Event) :
    let u := UdxStream.connect start dest remoteId localId
    (Runs.Along UdxStream.step (fun u e => u.overflows e = false) u events ∧
      Runs.Always UdxStream.step (fun u => Ordered u.inner) u events) ↔
    (u.run events).inner.ghost.created.length < 2 ^ 32 ∧ ∃ m, m ∉ (u.run events).inner.ghost.received := by
  intro u
  have hu : u.Reachable := ⟨start, dest, remoteId, localId, [], rfl⟩
  have hstart : Unwrapped u.inner := ⟨show 0 < 2 ^ 32 by decide, 0, List.not_mem_nil⟩
  have hiff : Runs.Always UdxStream.step (fun u => Unwrapped u.inner) u events ↔
      Runs.Along UdxStream.step (fun u e => u.overflows e = false) u events :=
    Runs.always_iff_along UdxStream.Reachable (fun _ => True) (fun _ _ _ => trivial) (fun u e hu _ => hu.step e)
      (fun u e hu hs _ => step_unwrapped_iff hu hs e) hu hstart trivial
  have hend : Runs.Always UdxStream.step (fun u => Unwrapped u.inner) u events ↔ Unwrapped (u.run events).inner :=
    Runs.always_iff_run fun _ _ h => h.step_back
  have hordered : Runs.Along UdxStream.step (fun u e => u.overflows e = false) u events →
      Runs.Always UdxStream.step (fun u => Ordered u.inner) u events :=
    Runs.always_of_along (fun u => u.Reachable ∧ Unwrapped u.inner) (fun u h => h.2.ordered h.1)
      (fun u e h hguard => ⟨h.1.step e, (step_unwrapped_iff h.1 h.2 e).mpr hguard⟩) ⟨hu, hstart⟩
  exact (and_iff_left_of_imp hordered).trans (hiff.symm.trans hend)

end AsyncUdx
