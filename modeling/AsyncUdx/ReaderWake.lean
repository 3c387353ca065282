import AsyncUdx.ReadContract
import AsyncUdx.StreamPoll

/-! Readers that wait for data. `poll_read` leaves a waker when it has read no packet to its end; the waker is taken by
a packet whose number is at most `ack` when it has been filed, and by a termination. A reader that finds no packet at
its cursor is always woken when one arrives there. A reader whose buffer ends before the packet does is told to wait
as well, although the rest of the packet is there, and nothing wakes it for that. -/

namespace AsyncUdx

open Relation UdxStreamInner

variable {now : Nat}

/-- A reader waits only when there is no packet at the cursor, on a stream that has not been terminated. -/
def ReaderServed (s : UdxStreamInner) : Prop :=
  s.readWaker.isSome = true → s.readCursor ∉ s.incoming ∧ s.error = none

instance (s : UdxStreamInner) (remaining : Nat) : Decidable (TooLong s remaining) :=
  decidable_of_iff ((s.incoming.lookup s.readCursor).any fun packet =>
    decide (packet.readOffset + remaining < packet.buf.length)) (by simp [TooLong, Option.any_eq_true])

/-- A read on an open stream whose buffer ends inside the first packet. -/
def ReadsPart (u : UdxStream) : Event → Prop
  | .call (.read _ remaining) => u.handles ≠ 0 ∧ u.inner.error = none ∧ TooLong u.inner remaining
  | _ => False

/-! ### Packets that arrive -/

/-- The numbers up to `ack` have been passed, and `m` has not been received. -/
structure Passed (m : UInt32) (s : UdxStreamInner) : Prop where
  cursor_le : s.readCursor ≤ s.ack
  ack_le : s.ack ≤ m
  missing : m ∉ s.incoming

theorem Reassembled.passed {s : UdxStreamInner} (hs : Reassembled s.recvSide) {m : UInt32}
    (hm : m ∉ s.ghost.received) : Passed m s :=
  ⟨hs.cursor_le, hs.least.le_of_notMem hm, fun h => hm ((hs.keys_iff m).mp h).1⟩

/-- A data packet that lands at the cursor wakes the reader: the cursor is not beyond `ack`, and `ack` passes it. -/
theorem handleIncomingData_reader {s : UdxStreamInner} {packet : IncomingPacket} {m : UInt32} (hs : Passed m s)
    (hserved : ReaderServed s) (hm : packet.seq ≠ m) :
    Passed m (s.handleIncomingData packet) ∧ ReaderServed (s.handleIncomingData packet) := by
  let incoming := if s.ack ≤ packet.seq then s.incoming.insert packet.seq packet else s.incoming
  have hmem (k : UInt32) (hk : k ∈ incoming) : k ∈ s.incoming ∨ k = packet.seq := by
    unfold incoming at hk
    split_ifs at hk
    · exact ((AList.mem_insert _).mp hk).symm
    · exact Or.inl hk
  have hmissing : m ∉ incoming := fun h => (hmem m h).elim hs.missing fun heq => hm heq.symm
  have hmlt := m.toNat_lt
  obtain ⟨-, hge, hpassed⟩ := advanceAck_spec hmissing (2 ^ 32) s.ack hs.ack_le (by omega)
  refine ⟨⟨UInt32.le_trans hs.cursor_le hge, ?_, hmissing⟩, ?_⟩
  · by_contra hlt
    exact hmissing (hpassed m hs.ack_le (UInt32.not_le.mp hlt))
  · intro hwaiting
    change (if decide (packet.seq ≤ advanceAck incoming (2 ^ 32) s.ack) then none else s.readWaker).isSome = true
      at hwaiting
    split_ifs at hwaiting with hwoken
    · cases hwaiting
    · obtain ⟨habsent, herror⟩ := hserved hwaiting
      refine ⟨fun hk => ?_, herror⟩
      rcases hmem _ hk with hold | hseq
      · exact habsent hold
      · rw [decide_eq_true_eq] at hwoken
        exact hwoken (hseq ▸ UInt32.le_trans hs.cursor_le hge)

/-- The fields of a stream that concern its reader. -/
def UdxStreamInner.readerSide (s : UdxStreamInner) : Option Waker × Option UdxError × RecvSide :=
  (s.readWaker, s.error, s.recvSide)

/-- As long as `m` is not received, the reader is served. -/
def ReaderSafe (m : UInt32) (s : UdxStreamInner) : Prop := m ∉ s.ghost.received → Passed m s ∧ ReaderServed s

theorem ReaderSafe.congr {m : UInt32} {s t : UdxStreamInner} (hs : ReaderSafe m s)
    (h : t.readerSide = s.readerSide) : ReaderSafe m t := by
  have hwaker : t.readWaker = s.readWaker := congrArg (fun v => v.1) h
  have herror : t.error = s.error := congrArg (fun v => v.2.1) h
  have hrecv : t.recvSide = s.recvSide := congrArg (fun v => v.2.2) h
  have hreceived : t.ghost.received = s.ghost.received := congrArg RecvSide.received hrecv
  have hcursor : t.readCursor = s.readCursor := congrArg RecvSide.readCursor hrecv
  have hincoming : t.incoming = s.incoming := congrArg RecvSide.incoming hrecv
  have hack : t.ack = s.ack := congrArg RecvSide.ack hrecv
  intro hm
  rw [hreceived] at hm
  obtain ⟨hpassed, hserved⟩ := hs hm
  refine ⟨⟨?_, ?_, ?_⟩, ?_⟩
  · rw [hcursor, hack]
    exact hpassed.cursor_le
  · rw [hack]
    exact hpassed.ack_le
  · rw [hincoming]
    exact hpassed.missing
  · rw [ReaderServed, hwaker, hcursor, hincoming, herror]
    exact hserved

theorem ackPacket_readerSide (s : UdxStreamInner) (i : UInt32) : (s.ackPacket now i).readerSide = s.readerSide := by
  unfold ackPacket
  split <;> rfl

theorem terminate_readerSafe {m : UInt32} {s : UdxStreamInner} (error : UdxError) (hs : ReaderSafe m s) :
    ReaderSafe m (s.terminate error) := by
  intro hm
  obtain ⟨hpassed, -⟩ := hs hm
  exact ⟨⟨hpassed.cursor_le, hpassed.ack_le, hpassed.missing⟩, fun h => by cases h⟩

theorem pollIncoming_readerSafe {m : UInt32} {s : UdxStreamInner} (cx : Context) (hs : ReaderSafe m s) :
    ReaderSafe m (s.pollIncoming cx).1 := by
  refine incomingLoop_invariant (ReaderSafe m) (fun s packet rest _ hs => ?_) (fun s ack hs => ?_) _ _ hs
  · refine handleIncoming_invariant (fun _ _ hs => hs.congr rfl)
      (fun _ _ hs => hs.congr (ackPacket_readerSide _ _)) (fun s hs => ?_) (fun s packet hs hm => ?_)
      (fun _ _ hs => hs.congr rfl) packet (hs.congr rfl)
    · exact terminate_readerSafe _ (hs.congr rfl)
    · have hboth : m ∉ s.ghost.received ++ [packet.seq] := hm
      rw [List.mem_append, List.mem_singleton, not_or] at hboth
      obtain ⟨hpassed, hserved⟩ := hs hboth.1
      exact handleIncomingData_reader hpassed hserved fun h => hboth.2 h.symm
  · refine hs.congr ?_
    exact handleIncomingMaxRemoteAck_frame readerSide ackPacket_readerSide (fun _ _ => rfl) (fun _ _ => rfl)
      (fun _ _ => rfl) s ack

theorem pollDrive_readerSafe {m : UInt32} {s : UdxStreamInner} (cx : Context) (hs : ReaderSafe m s) :
    ReaderSafe m (s.pollDrive cx).1 := by
  refine (pollIncoming_readerSafe cx hs).congr ?_
  exact pollDrive_frame readerSide (fun _ _ => rfl) (fun _ _ _ _ => rfl) (fun _ _ _ _ => rfl) (fun _ _ _ => rfl) s cx

/-! ### Calls -/

theorem onDrop_readerSafe {m : UInt32} {u : UdxStream} (hs : ReaderSafe m u.inner) : ReaderSafe m u.onDrop.inner := by
  unfold UdxStream.onDrop
  split
  · exact terminate_readerSafe _ hs
  · exact hs

theorem release_readerSafe {m : UInt32} {u : UdxStream} (hs : ReaderSafe m u.inner) : ReaderSafe m u.release.inner :=
  hs.congr (u.release_frame readerSide fun _ _ _ => rfl)

/-- Everything but a read keeps the reader served. -/
theorem call_readerSafe {m : UInt32} {u : UdxStream} {c : Call} (hread : ∀ waker remaining, c ≠ .read waker remaining)
    (hs : ReaderSafe m u.inner) : ReaderSafe m (u.call c).inner := by
  cases c with
  | write waker buf =>
      rw [UdxStream.call]
      split
      · exact hs
      · exact hs.congr (pollWrite_frame readerSide (fun _ _ => rfl) (fun _ _ => rfl) _ _ _)
  | read waker remaining => exact absurd rfl (hread waker remaining)
  | close =>
      rw [UdxStream.call]
      split
      · exact hs
      · exact (terminate_readerSafe .closeGraceful hs).congr rfl
  | clone =>
      rw [UdxStream.call]
      split <;> exact hs
  | drop =>
      rw [UdxStream.call]
      split
      · exact hs
      · exact release_readerSafe (u := { u.onDrop with handles := u.handles - 1 }) (onDrop_readerSafe hs)
  | poll waker timerLag budget maxGsoSegments =>
      rw [UdxStream.call]
      split
      · cases hdone : u.inner.closedAndDrained with
        | true =>
            rw [UdxStream.poll, pollDriver_complete _ _ hdone]
            exact release_readerSafe (u := { UdxStream.onDrop _ with driver := .completed })
              (onDrop_readerSafe (hs.congr rfl))
        | false =>
            exact UdxStream.poll_invariant (ReaderSafe m) (fun _ _ hs => terminate_readerSafe _ hs)
              (fun _ _ _ hs => hs.congr rfl) (fun _ _ _ hs => hs.congr rfl) hdone
              (pollDrive_readerSafe _ (hs.congr rfl))
      · exact hs
  | tick elapsed => exact hs
  | markSent seq sent =>
      refine hs.congr ?_
      change (UdxStream.markSent u.inner sent seq).readerSide = _
      unfold UdxStream.markSent
      split <;> rfl
  | socketGone recvClosed sendClosed => exact hs.congr rfl

/-- **One read.** A read that is told to wait is told so for good reason, unless its buffer ends inside a packet. -/
theorem pollRead_readerServed_iff {s : UdxStreamInner} (hleft : AllLeftover s.incoming)
    (hseq : ∀ packet, s.incoming.lookup s.readCursor = some packet → packet.header.seq = s.readCursor)
    (hserved : ReaderServed s) (waker : Waker) (remaining : Nat) :
    ReaderServed (s.pollRead waker remaining).1 ↔ ¬(s.error = none ∧ TooLong s remaining) := by
  cases hlookup : s.incoming.lookup s.readCursor with
  | none =>
      have hshort : ¬TooLong s remaining := by
        rintro ⟨packet, hpacket, -⟩
        rw [hlookup] at hpacket
        cases hpacket
      refine iff_of_true ?_ fun h => hshort h.2
      unfold pollRead
      rw [readNext_none hlookup]
      dsimp only
      split
      · exact hserved
      · rename_i herror
        exact fun _ => ⟨AList.lookup_eq_none.mp hlookup, herror⟩
  | some packet =>
      -- whoever reads a packet is not waiting
      have hidle : s.readWaker = none := by
        by_contra hsome
        exact (hserved (Option.isSome_iff_ne_none.mpr hsome)).1 (AList.mem_of_lookup hlookup)
      have hlen := (hleft _ packet hlookup).unread_length
      by_cases hlong : remaining < usizeSub packet.buf.length packet.readOffset
      · have htoo : TooLong s remaining := ⟨packet, hlookup, by omega⟩
        unfold pollRead
        rw [readNext_long hlookup hlong]
        dsimp only
        split
        · rename_i error herror
          refine iff_of_true (fun hwaiting => ?_) fun h => ?_
          · change s.readWaker.isSome = true at hwaiting
            rw [hidle] at hwaiting
            cases hwaiting
          · exact absurd (h.1.symm.trans herror) (Option.some_ne_none error).symm
        · rename_i herror
          refine iff_of_false (fun h => ?_) fun h => h ⟨herror, htoo⟩
          refine (h rfl).1 ?_
          change s.readCursor ∈ (s.incoming.erase s.readCursor).insert packet.header.seq _
          rw [hseq packet hlookup]
          exact (AList.mem_insert _).mpr (Or.inl rfl)
      · have hshort : ¬TooLong s remaining := by
          rintro ⟨other, hother, htoo⟩
          cases Option.some.inj (hlookup.symm.trans hother)
          omega
        have hframe : (s.readNext remaining).1.readWaker = none :=
          (readNext_frame readWaker (fun _ _ _ => rfl) (fun _ _ => rfl) s remaining).trans hidle
        have hread : (s.pollRead waker remaining).1.readWaker = none := by
          unfold pollRead
          rw [readNext_fits hlookup (Nat.not_lt.mp hlong)] at hframe ⊢
          exact hframe
        refine iff_of_true (fun hwaiting => ?_) fun h => hshort h.2
        rw [hread] at hwaiting
        cases hwaiting

/-! ### Runs -/

theorem step_notReceived {m : UInt32} (u : UdxStream) (e : Event) (hm : m ∉ (u.step e).inner.ghost.received) :
    m ∉ u.inner.ghost.received := by
  have hgrows := (u.step_advance_any e).invariant (fun s => u.inner.ghost.received <+: s.ghost.received)
    (fun _ _ h hs => hs.trans h.received_prefix) (fun _ _ => id) List.prefix_rfl
  exact fun hmem => hm (hgrows.subset hmem)

theorem step_readerServed_iff {m : UInt32} {u : UdxStream} (hu : u.Reachable) (hserved : ReaderServed u.inner)
    (e : Event) (hm : m ∉ (u.step e).inner.ghost.received) :
    ReaderServed (u.step e).inner ↔ ¬ReadsPart u e := by
  have hreassembled : Reassembled u.inner.recvSide :=
    (reassembled_invariant m).reachable (fun _ _ _ => rfl) hu (step_notReceived u e hm)
  have hsafe : ReaderSafe m u.inner := fun hm => ⟨hreassembled.passed hm, hserved⟩
  cases e with
  | recv header buf source => exact iff_of_true hserved id
  | call c =>
      have hcall (hread : ∀ waker remaining, c ≠ .read waker remaining) : ReaderServed (u.call c).inner :=
        (call_readerSafe hread hsafe hm).2
      cases c with
      | read waker remaining =>
          change ReaderServed (u.call (.read waker remaining)).inner ↔ _
          rw [UdxStream.call, ReadsPart]
          split
          · rename_i hhandles
            exact iff_of_true hserved fun h => h.1 hhandles
          · rename_i hhandles
            rw [pollRead_readerServed_iff hu.allLeftover (fun packet h => (hreassembled.filed _ packet h).seq_eq)
              hserved]
            exact not_congr (and_iff_right hhandles).symm
      | _ => exact iff_of_true (hcall fun _ _ => Call.noConfusion) id

/-- **When no reader is forgotten.** In a run in which some number is never received: in every state a registered
reader waits on an open stream with no packet at its cursor, exactly if no read of the run on the open stream has a
buffer that ends inside the packet at the cursor. -/
theorem reader_not_forgotten_iff (start : Nat) (dest : SocketAddr) (remoteId localId : UInt32) (events : List Event)
    {m : UInt32} (hm : m ∉ ((UdxStream.connect start dest remoteId localId).run events).inner.ghost.received) :
    Runs.Always UdxStream.step (fun u => ReaderServed u.inner) (.connect start dest remoteId localId) events ↔
      Runs.Along UdxStream.step (fun u e => ¬ReadsPart u e) (.connect start dest remoteId localId) events := by
  refine Runs.always_iff_along UdxStream.Reachable (fun u => m ∉ u.inner.ghost.received) step_notReceived
    (fun u e hu _ => hu.step e) (fun u e hu hserved hm => step_readerServed_iff hu hserved e hm) ?_ ?_ hm
  · exact ⟨start, dest, remoteId, localId, [], rfl⟩
  · exact fun h => by cases h

/-- A reader that comes before the data, and is woken. -/
def earlyReaderRun : List Event := .call (.read 5 2) :: receiveRun [1, 2] ++ [.call (.read 6 2)]

theorem reader_not_forgotten_early :
    Runs.Always UdxStream.step (fun u => ReaderServed u.inner) (.connect 0 ⟨.v4 0, 2⟩ 2 1) earlyReaderRun :=
  (reader_not_forgotten_iff 0 ⟨.v4 0, 2⟩ 2 1 earlyReaderRun (m := 7) (by decide)).mpr
    ⟨fun h => absurd h.2.2 (by decide), id, id, fun h => absurd h.2.2 (by decide), trivial⟩

-- a reader with a buffer of two bytes for a packet of three waits, and the third byte is there
example :
    let u := (UdxStream.connect 0 ⟨.v4 0, 2⟩ 2 1).run (receiveRun [1, 2, 3] ++ [.call (.read 5 2)])
    u.inner.readWaker = some 5 ∧ u.inner.error = none ∧ (u.inner.pollRead 5 1).2 = ([3], .ready (.ok ())) := by
  decide

end AsyncUdx
