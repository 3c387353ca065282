import AsyncUdx.Emission
import AsyncUdx.PacketLife

/-! Termination is final. The error of a stream, the local end of its state and the mask on the types of its packets
are set by one function and never reset, so they agree; and a stream that was terminated creates nothing but
END packets. What it still puts on its queue besides are copies of the data packets it had created before. -/

namespace AsyncUdx

open Relation UdxStreamInner

variable {ok : IncomingPacket → Prop} {now : Nat}

/-! ### The error and the state -/

/-- A stream has an error exactly when its local end is closed, and a closed remote end has closed the local one. -/
structure ClosedTogether (s : UdxStreamInner) : Prop where
  error_iff : s.error.isSome = true ↔ s.state.isLocalClosed = true
  remote : s.state.isRemoteClosed = true → s.error.isSome = true

theorem closeLocal_isLocalClosed (state : StreamState) : state.closeLocal.isLocalClosed = true := by
  cases state <;> rfl

theorem terminate_closedTogether (s : UdxStreamInner) (error : UdxError) : ClosedTogether (s.terminate error) :=
  ⟨iff_of_true rfl (closeLocal_isLocalClosed s.state), fun _ => rfl⟩

theorem ackPacket_error_state (s : UdxStreamInner) (i : UInt32) :
    (s.ackPacket now i).error = s.error ∧ (s.ackPacket now i).state = s.state := by
  unfold ackPacket
  split <;> exact ⟨rfl, rfl⟩

theorem ackPacket_closedTogether {s : UdxStreamInner} (i : UInt32) (hs : ClosedTogether s) :
    ClosedTogether (s.ackPacket now i) := by
  obtain ⟨herror, hstate⟩ := @ackPacket_error_state now s i
  constructor
  · rw [herror, hstate]
    exact hs.error_iff
  · rw [herror, hstate]
    exact hs.remote

theorem Move.closedTogether {s t : UdxStreamInner} (h : Move ok now s t) (hs : ClosedTogether s) :
    ClosedTogether t := by
  cases h with
  | micro h =>
      cases h with
      | ackNext packet hok hlt => exact ackPacket_closedTogether _ ⟨hs.error_iff, hs.remote⟩
      | sack packet i hok htype => exact ackPacket_closedTogether i hs
      | finish packet hok htype => exact terminate_closedTogether _ _
      | _ => exact ⟨hs.error_iff, hs.remote⟩
  | terminate error => exact terminate_closedTogether s error
  | _ => exact ⟨hs.error_iff, hs.remote⟩

theorem closedTogether_invariant : MoveInvariant UdxStream.anyPacket ClosedTogether (fun _ => True) where
  connect := fun _ _ _ _ => ⟨iff_of_false Bool.false_ne_true Bool.false_ne_true, fun h => absurd h Bool.false_ne_true⟩
  back := fun _ _ _ _ _ => trivial
  move := fun _ _ _ h hs _ => h.closedTogether hs
  channel := fun _ _ hs => ⟨hs.error_iff, hs.remote⟩
  channel_back := fun _ _ _ => trivial

/-! ### What a terminated stream sends -/

/-- With an error set, a state packet has the type END and no other flag. -/
theorem statePacket_typ_of_error {s : UdxStreamInner} (herror : s.error.isSome = true) :
    s.statePacket.header.typ = udxHeaderEnd := by
  have htyp : s.statePacket.header.typ =
      if s.state.isLocalClosed then (if s.error.isSome then 0 ||| udxHeaderEnd else 0) &&& udxHeaderEnd
      else if s.error.isSome then 0 ||| udxHeaderEnd else 0 := rfl
  rw [htyp, herror]
  cases s.state.isLocalClosed <;> decide

/-- What the two functions that create packets can do in a state: state packets have the type END and no payload, and
writes are refused. -/
structure CreatesOnlyEnd (s : UdxStreamInner) : Prop where
  state_packet : s.statePacket.header.typ = udxHeaderEnd ∧ s.statePacket.body = []
  write_refused : ∀ now waker buf, ∃ error, s.pollWrite now waker buf = (s, .ready (.error error))

theorem createsOnlyEnd_of_error {s : UdxStreamInner} (herror : s.error.isSome = true) : CreatesOnlyEnd s := by
  refine ⟨⟨statePacket_typ_of_error herror, statePacket_body s⟩, fun now waker buf => ?_⟩
  obtain ⟨error, hsome⟩ := Option.isSome_iff_exists.mp herror
  exact ⟨error.toIo, by rw [pollWrite, hsome]⟩

/-- A packet put on the queue after a termination: an END packet without payload, or a copy of a data packet that
was created before. -/
def SentAfterEnd (created : List Packet) (ref : PacketRef) : Prop :=
  (∃ packet, ref = .owned packet ∧ packet.header.typ = udxHeaderEnd ∧ packet.body = []) ∨
  ∃ packet, ref = .shared packet ∧ ∃ original ∈ created, SameContent packet original

/-- From `u` to `s` no data packet was created and nothing else was queued than `SentAfterEnd` allows. -/
structure SilentSince (u s : UdxStreamInner) : Prop where
  seq_eq : s.seq = u.seq
  keys : ∀ k ∈ s.outgoing, k ∈ u.outgoing
  created_eq : s.ghost.created = u.ghost.created
  queued : ∀ ref ∈ s.sendQueue, ref ∈ u.sendQueue ∨ SentAfterEnd u.ghost.created ref

/-- The packets of `outgoing` are copies of some that were created. -/
def CopiesOf (created : List Packet) (s : UdxStreamInner) : Prop :=
  AllOutgoing (fun packet => ∃ original ∈ created, SameContent packet original) s

theorem CopiesOf.replace {created : List Packet} {s : UdxStreamInner} (hs : CopiesOf created s) {i : UInt32}
    {packet packet' : Packet} (hlookup : s.outgoing.lookup i = some packet) (hsame : SameContent packet' packet) :
    CopiesOf created { s with outgoing := s.outgoing.insert i packet' } := by
  obtain ⟨original, horiginal, hcopy⟩ := hs i packet hlookup
  exact allOutgoing_insert hs rfl ⟨original, horiginal, hsame.1.trans hcopy.1, hsame.2.trans hcopy.2⟩

/-- `SilentSince` with what keeps it: the error that was set, and the origin of what can be sent again. -/
structure EndedSince (u s : UdxStreamInner) : Prop extends SilentSince u s where
  error : s.error.isSome = true
  copies : CopiesOf u.ghost.created s

namespace EndedSince

variable {u s : UdxStreamInner} (hs : EndedSince u s)

include hs

theorem queue {ref : PacketRef} (href : SentAfterEnd u.ghost.created ref) :
    ∀ other ∈ s.sendQueue ++ [ref], other ∈ u.sendQueue ∨ SentAfterEnd u.ghost.created other := by
  intro other hother
  rcases List.mem_append.mp hother with hold | hnew
  · exact hs.queued other hold
  · exact Or.inr (List.mem_singleton.mp hnew ▸ href)

/-- A state packet joins the queue. -/
theorem statePacket {t : UdxStreamInner} (herror : t.error.isSome = true) :
    ∀ other ∈ s.sendQueue ++ [.owned t.statePacket], other ∈ u.sendQueue ∨ SentAfterEnd u.ghost.created other :=
  hs.queue (Or.inl ⟨_, rfl, statePacket_typ_of_error herror, statePacket_body t⟩)

/-- A packet of `outgoing` is replaced by one with the same content. -/
theorem replace {i : UInt32} {packet packet' : Packet} (hlookup : s.outgoing.lookup i = some packet)
    (hsame : SameContent packet' packet) :
    (∀ k ∈ s.outgoing.insert i packet', k ∈ u.outgoing) ∧
      CopiesOf u.ghost.created { s with outgoing := s.outgoing.insert i packet' } := by
  refine ⟨fun k hk => ?_, hs.copies.replace hlookup hsame⟩
  rcases (AList.mem_insert s.outgoing).mp hk with rfl | hk
  · exact hs.keys k (AList.mem_of_lookup hlookup)
  · exact hs.keys k hk

theorem ackPacket (now : Nat) (i : UInt32) : EndedSince u (s.ackPacket now i) where
  seq_eq := (ackPacket_seq s i).trans hs.seq_eq
  keys := fun k hk => hs.keys k (ackPacket_mem hk).1
  created_eq := (ackPacket_created s i).trans hs.created_eq
  queued := by
    unfold UdxStreamInner.ackPacket
    split
    · exact hs.queued
    · exact hs.queued
  error := by
    rw [(ackPacket_error_state s i).1]
    exact hs.error
  copies := ackPacket_allOutgoing i hs.copies

theorem terminate (error : UdxError) : EndedSince u (s.terminate error) :=
  ⟨⟨hs.seq_eq, hs.keys, hs.created_eq, hs.statePacket rfl⟩, rfl, hs.copies⟩

end EndedSince

theorem Micro.endedSince {u s t : UdxStreamInner} (h : Micro ok now s t) (hs : EndedSince u s) : EndedSince u t := by
  cases h with
  | ackNext packet hok hlt =>
      refine EndedSince.ackPacket ?_ now _
      exact ⟨⟨hs.seq_eq, hs.keys, hs.created_eq, hs.queued⟩, hs.error, hs.copies⟩
  | sack packet i hok htype => exact hs.ackPacket now i
  | park i packet hlookup hwaiting hmax hdue =>
      have hsame : SameContent { packet with transmits := packet.transmits + 1, waiting := true } packet := ⟨rfl, rfl⟩
      obtain ⟨hkeys, hcopies⟩ := hs.replace hlookup hsame
      exact ⟨⟨hs.seq_eq, hkeys, hs.created_eq, hs.queued⟩, hs.error, hcopies⟩
  | requeue i packet hlookup hwaiting hroom =>
      let again : Packet := { packet with waiting := false, queuedAt := now :: packet.queuedAt }
      have hsame : SameContent again packet := ⟨rfl, rfl⟩
      obtain ⟨hkeys, hcopies⟩ := hs.replace hlookup hsame
      have hagain : SentAfterEnd u.ghost.created (.shared again) := Or.inr ⟨again, rfl, hs.copies i packet hlookup⟩
      exact ⟨⟨hs.seq_eq, hkeys, hs.created_eq, hs.queue hagain⟩, hs.error, hcopies⟩
  | mark i packet sent hlookup =>
      have hsame : SameContent { packet with timeSent := some sent } packet := ⟨rfl, rfl⟩
      obtain ⟨hkeys, hcopies⟩ := hs.replace hlookup hsame
      exact ⟨⟨hs.seq_eq, hkeys, hs.created_eq, hs.queued⟩, hs.error, hcopies⟩
  | finish packet hok htype =>
      refine EndedSince.terminate ?_ _
      exact ⟨⟨hs.seq_eq, hs.keys, hs.created_eq, hs.queued⟩, hs.error, hs.copies⟩
  | data packet hok htype =>
      refine ⟨⟨hs.seq_eq, hs.keys, hs.created_eq, ?_⟩, hs.error, hs.copies⟩
      exact hs.queue (Or.inl ⟨_, rfl, statePacket_typ_of_error hs.error, statePacket_body _⟩)
  | transmit rest sets hrest hsets =>
      exact ⟨⟨hs.seq_eq, hs.keys, hs.created_eq, fun ref href => hs.queued ref (hrest ref href)⟩, hs.error, hs.copies⟩
  | quiet | rearm | backOff | grow =>
      exact ⟨⟨hs.seq_eq, hs.keys, hs.created_eq, hs.queued⟩, hs.error, hs.copies⟩

theorem Move.endedSince {u s t : UdxStreamInner} (h : Move ok now s t) (hs : EndedSince u s) : EndedSince u t := by
  cases h with
  | micro h => exact h.endedSince hs
  | send body herror hbody hlen hroom =>
      -- nothing is written to a stream with an error
      have := hs.error
      rw [herror] at this
      cases this
  | terminate error => exact hs.terminate error
  | readPart | readWhole | slot | complete | gone =>
      exact ⟨⟨hs.seq_eq, hs.keys, hs.created_eq, hs.queued⟩, hs.error, hs.copies⟩

/-- What is in `outgoing` was created. -/
theorem Move.copies {s t : UdxStreamInner} (h : Move ok now s t) (hs : CopiesOf s.ghost.created s) :
    CopiesOf t.ghost.created t := by
  cases h with
  | micro h =>
      cases h with
      | ackNext packet hok hlt =>
          rw [UdxStreamInner.ackNext, ackPacket_created]
          exact ackPacket_allOutgoing (s := { s with remoteAcked := s.remoteAcked + 1 }) _ hs
      | sack packet i hok htype =>
          rw [ackPacket_created]
          exact ackPacket_allOutgoing i hs
      | park i packet hlookup hwaiting hmax hdue => exact hs.replace hlookup ⟨rfl, rfl⟩
      | requeue i packet hlookup hwaiting hroom => exact hs.replace hlookup ⟨rfl, rfl⟩
      | mark i packet sent hlookup => exact hs.replace hlookup ⟨rfl, rfl⟩
      | _ => exact hs
  | send body herror hbody hlen hroom =>
      let packet : Packet := { s.createPacket udxHeaderData body with queuedAt := [now] }
      have hgrow : CopiesOf (s.ghost.created ++ [packet]) s := by
        intro k other hlookup
        obtain ⟨original, horiginal, hcopy⟩ := hs k other hlookup
        exact ⟨original, List.mem_append_left _ horiginal, hcopy⟩
      exact allOutgoing_insert hgrow rfl ⟨packet, List.mem_append_right _ (List.mem_singleton.mpr rfl), rfl, rfl⟩
  | _ => exact hs

theorem copies_invariant :
    MoveInvariant UdxStream.anyPacket (fun s => CopiesOf s.ghost.created s) (fun _ => True) where
  connect := fun _ _ _ _ k _ h => absurd (AList.mem_of_lookup h) (AList.notMem_empty k)
  back := fun _ _ _ _ _ => trivial
  move := fun _ _ _ h hs _ => h.copies hs
  channel := fun _ _ => id
  channel_back := fun _ _ _ => trivial

/-- **Termination is final.** In every state of every run a stream has an error exactly if its local end is closed, and
has one if its remote end is. From such a state on, whatever happens next and in every state that the calls pass
through: `seq` stays, no key is added to `outgoing`, nothing but END packets without payload is created, and what is
put on the send queue is one of them or a copy of a data packet created before. -/
theorem termination_final {u : UdxStream} (hu : u.Reachable) :
    (u.inner.error.isSome = true ↔ u.inner.state.isLocalClosed = true) ∧
    (u.inner.state.isRemoteClosed = true → u.inner.error.isSome = true) ∧
    (u.inner.error.isSome = true → ∀ (events : List Event) (now : Nat) (s : UdxStreamInner),
      Moves UdxStream.anyPacket now (u.run events).inner s → SilentSince u.inner s ∧ CreatesOnlyEnd s) := by
  have hclosed : ClosedTogether u.inner := closedTogether_invariant.of_reachable hu
  have hcopies : CopiesOf u.inner.ghost.created u.inner :=
    copies_invariant.of_reachable hu
  refine ⟨hclosed.error_iff, hclosed.remote, fun herror events now s hmoves => ?_⟩
  have hstart : EndedSince u.inner u.inner :=
    ⟨⟨rfl, fun _ h => h, rfl, fun _ h => Or.inl h⟩, herror, hcopies⟩
  have hrun : EndedSince u.inner (u.run events).inner := by
    refine Runs.run_invariant (fun v : UdxStream => EndedSince u.inner v.inner) (fun v e hv => ?_) hstart events
    refine (v.step_advance_any e).invariant (EndedSince u.inner) (fun _ _ h => h.endedSince) ?_ hv
    exact fun t rx ht => ⟨⟨ht.seq_eq, ht.keys, ht.created_eq, ht.queued⟩, ht.error, ht.copies⟩
  have hs : EndedSince u.inner s := chain_invariant (EndedSince u.inner) (fun _ _ h => h.endedSince) hmoves hrun
  exact ⟨hs.toSilentSince, createsOnlyEnd_of_error hs.error⟩

/-- A packet is sent, the stream is closed, and the packet has to be sent again. -/
def closedWithDataRun : List Event :=
  [.call (.write 0 [1]), .call (.poll 0 0 10 1), .call .close, .call (.tick (millis 1000))]

theorem termination_final_closed :
    let u := (UdxStream.connect 0 ⟨.v4 0, 2⟩ 2 1).run closedWithDataRun
    u.inner.error.isSome = true ∧ 0 ∈ u.inner.outgoing ∧
      SilentSince u.inner (u.run [.call (.write 0 [2]), .call (.poll 0 0 10 1)]).inner :=
  ⟨by decide, by decide, (termination_final (u := (UdxStream.connect 0 ⟨.v4 0, 2⟩ 2 1).run closedWithDataRun)
    ⟨0, ⟨.v4 0, 2⟩, 2, 1, closedWithDataRun, rfl⟩).2.2 (by decide) _ 0 _ .refl |>.1⟩

end AsyncUdx
