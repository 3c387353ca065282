import AsyncUdx.PollIncoming
import AsyncUdx.StreamTask

/-! Why a stream was terminated. Every termination stores its error in the stream, in place of the one
before: a local `close`, the drop of the last handle, an END packet of the peer, a failure of the driver and
the end of the driver. Each event is given the reasons for which it terminates the stream, in order; the
error that reads and writes report is the last of all of them, and it is the first one as long as every event
that terminates the stream again does so for the same reason. -/

namespace AsyncUdx

open Relation UdxStreamInner

variable {ok : IncomingPacket → Prop} {now : Nat}

/-- The END packets among those handled. -/
def endReasons (packets : List IncomingPacket) : List ErrorKind :=
  (packets.filter fun packet => packet.hasType udxHeaderEnd).map fun _ => .unexpectedEof

/-- A handle is dropped and at most one is left. -/
def dropReasons (u : UdxStream) : List ErrorKind := if u.strongCount ≤ 2 then [.connectionReset] else []

/-- The reasons for which an event terminates a stream, in order. -/
def reasonsOf (u : UdxStream) : Event → List ErrorKind
  | .call .close => if u.handles = 0 then [] else [.connectionReset]
  | .call .drop => if u.handles = 0 then [] else dropReasons u
  | .call (.poll waker timerLag budget maxGsoSegments) =>
      if u.driver = .running then
        if u.inner.closedAndDrained then dropReasons u
        else
          endReasons (u.inner.recvRx.queue.take budget) ++
            match ({ u.inner with driveWaker := none }.pollDrive
              ⟨waker, u.clock, timerLag, budget, maxGsoSegments⟩).2 with
            | .ok _ => []
            | .error (.io err) => [err.kind]
            | .error (.panic _) => dropReasons u
      else []
  | _ => []

/-- After the first termination every write, and every read that reports an error, reports its kind. -/
def ReasonStable (u : UdxStream) : Prop :=
  ∀ kind, u.inner.ghost.reasons.head? = some kind →
    (∀ waker buf, ∃ err, (u.inner.pollWrite u.clock waker buf).2 = .ready (.error err) ∧ err.kind = kind) ∧
    (∀ waker remaining err, (u.inner.pollRead waker remaining).2.2 = .ready (.error err) → err.kind = kind)

/-- The last reason for which an event terminates the stream, if there is any, is the first one ever. -/
def SameReason (u : UdxStream) (e : Event) : Prop :=
  ∀ kind, (reasonsOf u e).getLast? = some kind → (u.inner.ghost.reasons ++ reasonsOf u e).head? = some kind

/-! ### What the driver does to the error -/

/-- The error of a stream and its history. -/
def UdxStreamInner.errorSide (s : UdxStreamInner) : Option UdxError × List ErrorKind := (s.error, s.ghost.reasons)

theorem ackPacket_errorSide (s : UdxStreamInner) (i : UInt32) : (s.ackPacket now i).errorSide = s.errorSide := by
  unfold ackPacket
  split <;> rfl

/-- Only END packets terminate a stream while packets are handled. -/
theorem Micro.errorSide_eq {s t : UdxStreamInner} (h : Micro ok now s t)
    (hok : ∀ packet, ok packet → packet.hasType udxHeaderEnd = false) : t.errorSide = s.errorSide := by
  cases h with
  | ackNext packet hpacket hlt => exact ackPacket_errorSide _ _
  | sack packet i hpacket htype => exact ackPacket_errorSide _ _
  | finish packet hpacket htype => exact absurd htype (by rw [hok packet hpacket]; decide)
  | _ => rfl

theorem Chain.errorSide_eq {s t : UdxStreamInner} (h : Chain ok now s t)
    (hok : ∀ packet, ok packet → packet.hasType udxHeaderEnd = false) : t.errorSide = s.errorSide :=
  chain_value errorSide (fun _ _ h => h.errorSide_eq hok) h

theorem handleIncomingMaxRemoteAck_errorSide (s : UdxStreamInner) (ack : UInt32) :
    (s.handleIncomingMaxRemoteAck now ack).errorSide = s.errorSide :=
  handleIncomingMaxRemoteAck_frame errorSide ackPacket_errorSide (fun _ _ => rfl) (fun _ _ => rfl) (fun _ _ => rfl) s
    ack

theorem ackPacket_reasons (s : UdxStreamInner) (i : UInt32) :
    (s.ackPacket now i).ghost.reasons = s.ghost.reasons :=
  congrArg Prod.snd (ackPacket_errorSide s i)

theorem handleIncoming_reasons {s : UdxStreamInner} (hfirewall : s.onFirewall = none) (packet : IncomingPacket) :
    (s.handleIncoming now packet).ghost.reasons = s.ghost.reasons ++ endReasons [packet] := by
  let sacked : UdxStreamInner := packet.sacked.foldl (fun s i => s.ackPacket now i)
    { s with stats := { s.stats with rxPackets := s.stats.rxPackets + 1 } }
  have hsacked : sacked.ghost.reasons = s.ghost.reasons :=
    ackPackets_frame (fun s => s.ghost.reasons) ackPacket_reasons _ _
  have hend : (sacked.endPart packet).ghost.reasons = sacked.ghost.reasons ++ endReasons [packet] := by
    rw [endPart, endReasons, List.filter_singleton]
    cases packet.hasType udxHeaderEnd with
    | true => rfl
    | false => exact (List.append_nil _).symm
  have hdata : ∀ s : UdxStreamInner, (s.dataPart packet).ghost.reasons = s.ghost.reasons := by
    intro s
    unfold dataPart
    split <;> rfl
  rw [handleIncoming_parts hfirewall]
  exact (hdata _).trans (hend.trans (congrArg (· ++ endReasons [packet]) hsacked))

theorem endReasons_cons (packet : IncomingPacket) (rest : List IncomingPacket) :
    endReasons (packet :: rest) = endReasons [packet] ++ endReasons rest := by
  rw [endReasons, endReasons, endReasons, ← List.map_append, ← List.filter_append, List.singleton_append]

theorem foldl_endReasons (packets : List IncomingPacket) (reasons : List ErrorKind) :
    packets.foldl (fun reasons packet => reasons ++ endReasons [packet]) reasons = reasons ++ endReasons packets := by
  induction packets generalizing reasons with
  | nil => exact (List.append_nil _).symm
  | cons packet rest ih => rw [List.foldl_cons, ih, endReasons_cons packet rest, List.append_assoc]

theorem pollIncoming_reasons {s : UdxStreamInner} (hfirewall : s.onFirewall = none) (cx : Context) :
    (s.pollIncoming cx).1.ghost.reasons = s.ghost.reasons ++ endReasons (s.consumes cx.budget) := by
  rw [pollIncoming_state, ← foldl_endReasons]
  refine (congrArg Prod.snd (handleIncomingMaxRemoteAck_errorSide (s.handled cx) _)).trans ?_
  exact handled_view (fun s => s.ghost.reasons) _ (fun _ _ => rfl)
    (fun s packet hfirewall => handleIncoming_reasons hfirewall packet) hfirewall

/-- A poll that drives the stream terminates it for the END packets it handles, and then if it fails. -/
theorem pollDrive_reasons {s : UdxStreamInner} (hfirewall : s.onFirewall = none) (cx : Context) :
    (s.pollDrive cx).1.ghost.reasons = s.ghost.reasons ++ endReasons (s.recvRx.queue.take cx.budget) := by
  have hrest : Chain (fun _ => False) cx.now _ (s.pollDrive cx).1 := pollDrive_rest s cx
  have hsame := congrArg Prod.snd (hrest.errorSide_eq fun _ h => h.elim)
  exact hsame.trans (pollIncoming_reasons hfirewall cx)

/-! ### What each event does to the error -/

theorem onDrop_reasons (u : UdxStream) :
    u.onDrop.inner.ghost.reasons = u.inner.ghost.reasons ++ dropReasons u := by
  unfold UdxStream.onDrop dropReasons
  split
  · rfl
  · exact (List.append_nil _).symm

theorem release_reasons (u : UdxStream) : u.release.inner.ghost.reasons = u.inner.ghost.reasons :=
  u.release_frame (fun s => s.ghost.reasons) fun _ _ _ => rfl

theorem dropDriver_reasons (u : UdxStream) (driver : Driver) :
    (u.dropDriver driver).inner.ghost.reasons = u.inner.ghost.reasons ++ dropReasons u :=
  (release_reasons _).trans (onDrop_reasons u)

theorem poll_reasons (u : UdxStream) (hfirewall : u.inner.onFirewall = none) (waker : Waker)
    (timerLag budget maxGsoSegments : Nat) (hrunning : u.driver = .running) :
    (u.poll ⟨waker, u.clock, timerLag, budget, maxGsoSegments⟩).inner.ghost.reasons =
      u.inner.ghost.reasons ++ reasonsOf u (.call (.poll waker timerLag budget maxGsoSegments)) := by
  rw [reasonsOf, if_pos hrunning]
  cases hdone : u.inner.closedAndDrained with
  | true =>
      rw [if_pos rfl, UdxStream.poll, pollDriver_complete _ _ hdone]
      exact dropDriver_reasons _ _
  | false =>
      rw [if_neg (by decide), UdxStream.poll]
      have hdrive := pollDrive_reasons (s := { u.inner with driveWaker := none }) hfirewall
        ⟨waker, u.clock, timerLag, budget, maxGsoSegments⟩
      rcases pollDriver_cases u.inner ⟨waker, u.clock, timerLag, budget, maxGsoSegments⟩ hdone with
        ⟨flag, waker', woken, hresult, h⟩ | ⟨err, woken, hresult, h⟩ | ⟨message, hresult, h⟩ <;>
        rw [h, hresult]
      · exact hdrive.trans (congrArg _ (List.append_nil _).symm)
      · exact (congrArg (· ++ [err.kind]) hdrive).trans (List.append_assoc _ _ _)
      · refine (dropDriver_reasons _ _).trans ?_
        exact (congrArg (· ++ dropReasons u) hdrive).trans (List.append_assoc _ _ _)

/-- **Every event terminates the stream for its reasons**, one after the other. -/
theorem step_reasons (u : UdxStream) (e : Event) (hfirewall : u.inner.onFirewall = none) :
    (u.step e).inner.ghost.reasons = u.inner.ghost.reasons ++ reasonsOf u e := by
  have hnil : u.inner.ghost.reasons = u.inner.ghost.reasons ++ [] := (List.append_nil _).symm
  cases e with
  | recv header buf source => exact hnil
  | call c =>
      change (u.call c).inner.ghost.reasons = _
      cases c with
      | write waker buf =>
          rw [UdxStream.call]
          split
          · exact hnil
          · exact (pollWrite_frame (fun s => s.ghost.reasons) (fun _ _ => rfl) (fun _ _ => rfl) _ _ _).trans hnil
      | read waker remaining =>
          rw [UdxStream.call]
          split
          · exact hnil
          · rw [pollRead_frame (fun s => s.ghost.reasons) fun _ _ => rfl]
            exact (readNext_frame (fun s => s.ghost.reasons) (fun _ _ _ => rfl) (fun _ _ => rfl) _ _).trans hnil
      | close =>
          rw [UdxStream.call, reasonsOf]
          split
          · exact hnil
          · rfl
      | clone =>
          rw [UdxStream.call]
          split <;> exact hnil
      | drop =>
          rw [UdxStream.call, reasonsOf]
          split
          · exact hnil
          · exact (release_reasons _).trans (onDrop_reasons u)
      | poll waker timerLag budget maxGsoSegments =>
          rw [UdxStream.call]
          split
          · exact poll_reasons u hfirewall waker timerLag budget maxGsoSegments ‹_›
          · rename_i hstopped
            rw [reasonsOf, if_neg hstopped]
            exact hnil
      | tick elapsed => exact hnil
      | markSent seq sent =>
          have h : Chain (fun _ => False) u.clock u.inner _ := UdxStream.markSent_chain u.inner seq sent
          exact (congrArg Prod.snd (h.errorSide_eq fun _ h => h.elim)).trans hnil
      | socketGone recvClosed sendClosed => exact hnil

/-! ### The error that is reported -/

/-- The error of a stream is that of the last termination. -/
def ErrorLast (s : UdxStreamInner) : Prop := s.error.map UdxError.kind = s.ghost.reasons.getLast?

theorem error_isSome_iff {s : UdxStreamInner} (hs : ErrorLast s) :
    s.error.isSome = true ↔ s.ghost.reasons ≠ [] := by
  rw [← Option.isSome_map, hs, Option.isSome_iff_ne_none, Ne, List.getLast?_eq_none_iff]

theorem errorLast_of_errorSide {s t : UdxStreamInner} (h : t.errorSide = s.errorSide) (hs : ErrorLast s) :
    ErrorLast t := by
  have herror : t.error = s.error := congrArg Prod.fst h
  have hreasons : t.ghost.reasons = s.ghost.reasons := congrArg Prod.snd h
  rw [ErrorLast, herror, hreasons]
  exact hs

theorem terminate_errorLast (s : UdxStreamInner) (error : UdxError) : ErrorLast (s.terminate error) :=
  List.getLast?_concat.symm

theorem Move.errorLast {s t : UdxStreamInner} (h : Move ok now s t) (hs : ErrorLast s) : ErrorLast t := by
  cases h with
  | micro h =>
      cases h with
      | ackNext packet hok hlt => exact errorLast_of_errorSide (ackPacket_errorSide _ _) hs
      | sack packet i hok htype => exact errorLast_of_errorSide (ackPacket_errorSide _ _) hs
      | finish packet hok htype => exact terminate_errorLast _ _
      | _ => exact hs
  | terminate error => exact terminate_errorLast s error
  | _ => exact hs

theorem errorLast_invariant : MoveInvariant UdxStream.anyPacket ErrorLast (fun _ => True) where
  connect := fun _ _ _ _ => rfl
  back := fun _ _ _ _ _ => trivial
  move := fun _ _ _ h hs _ => h.errorLast hs
  channel := fun _ _ => id
  channel_back := fun _ _ _ => trivial

theorem pollWrite_error {s : UdxStreamInner} {error : UdxError} (h : s.error = some error) (waker : Waker)
    (buf : List UInt8) : (s.pollWrite now waker buf).2 = .ready (.error error.toIo) := by
  rw [pollWrite, h]

/-- An error of a read is the error of the stream. -/
theorem pollRead_error {s : UdxStreamInner} {waker : Waker} {remaining : Nat} {err : IoError}
    (h : (s.pollRead waker remaining).2.2 = .ready (.error err)) :
    ∃ error, s.error = some error ∧ err = error.toIo := by
  have hsame : (s.readNext remaining).1.error = s.error :=
    readNext_frame error (fun _ _ _ => rfl) (fun _ _ => rfl) s remaining
  unfold pollRead at h
  split at h
  · cases h
  · rename_i s1 bytes h1
    rw [h1] at hsame
    split at h
    · rename_i error herror
      cases h
      exact ⟨error, hsame.symm.trans herror, rfl⟩
    · cases h

/-- What users see is stable exactly when the last termination is for the reason of the first. -/
theorem reasonStable_iff {u : UdxStream} (hu : ErrorLast u.inner) :
    ReasonStable u ↔ u.inner.ghost.reasons.getLast? = u.inner.ghost.reasons.head? := by
  cases hreasons : u.inner.ghost.reasons with
  | nil =>
      refine ⟨fun _ => rfl, fun _ kind hkind => ?_⟩
      rw [hreasons] at hkind
      cases hkind
  | cons first rest =>
      -- a stream that was terminated has an error, that of the last termination
      have hlast : u.inner.error.map UdxError.kind = some ((first :: rest).getLast (List.cons_ne_nil _ _)) := by
        rw [show u.inner.error.map UdxError.kind = _ from hu, hreasons, List.getLast?_eq_some_getLast]
      obtain ⟨error, herror, hkind⟩ := Option.map_eq_some_iff.mp hlast
      rw [List.getLast?_eq_some_getLast (List.cons_ne_nil _ _), List.head?_cons, ← hkind]
      constructor
      · intro h
        obtain ⟨err, hwrite, herr⟩ := (h first (by rw [hreasons]; rfl)).1 0 []
        rw [pollWrite_error herror] at hwrite
        cases hwrite
        exact congrArg some herr
      · intro h kind hfirst
        rw [hreasons, List.head?_cons] at hfirst
        have hsame : error.kind = kind := Option.some.inj (h.trans hfirst)
        refine ⟨fun waker buf => ⟨error.toIo, pollWrite_error herror waker buf, hsame⟩, ?_⟩
        intro waker remaining err herr
        obtain ⟨error', herror', rfl⟩ := pollRead_error herr
        rw [herror] at herror'
        cases herror'
        exact hsame

/-- A step keeps the reason exactly if it terminates the stream, if at all, for the same one. -/
theorem step_reasonStable_iff (u : UdxStream) (e : Event)
    (hi : ErrorLast u.inner ∧ u.inner.onFirewall = none) (hnext : ErrorLast (u.step e).inner)
    (hu : ReasonStable u) : ReasonStable (u.step e) ↔ SameReason u e := by
  rw [reasonStable_iff hi.1] at hu
  rw [reasonStable_iff hnext, step_reasons u e hi.2, SameReason]
  cases hlast : (reasonsOf u e).getLast? with
  | none =>
      rw [List.getLast?_eq_none_iff.mp hlast, List.append_nil]
      exact ⟨fun _ kind h => absurd h (Option.some_ne_none kind).symm, fun _ => hu⟩
  | some last =>
      rw [List.getLast?_append, hlast, Option.some_or]
      constructor
      · intro h kind hkind
        rw [← h, hkind]
      · intro h
        exact (h last rfl).symm

/-- **The reason users see is the first one, in every state of a run, exactly when every event of the run
that terminates the stream again does so for that reason**, its last one if it has several. -/
theorem reasonStable_always_iff (start : Nat) (dest : SocketAddr) (remoteId localId : UInt32)
    (events : List Event) :
    Runs.Always UdxStream.step ReasonStable (.connect start dest remoteId localId) events ↔
      Runs.Along UdxStream.step SameReason (.connect start dest remoteId localId) events := by
  have hkept : ∀ (u : UdxStream) (e : Event), ErrorLast u.inner ∧ u.inner.onFirewall = none →
      ErrorLast (u.step e).inner ∧ (u.step e).inner.onFirewall = none := fun u e hi =>
    ⟨errorLast_invariant.advance (u.step_advance_any e) hi.1 trivial,
      u.step_onFirewall e hi.2⟩
  exact Runs.always_iff_along (fun u : UdxStream => ErrorLast u.inner ∧ u.inner.onFirewall = none) (fun _ => True)
    (fun _ _ _ => trivial) (fun u e hi _ => hkept u e hi)
    (fun u e hi hu _ => step_reasonStable_iff u e hi (hkept u e hi).1 hu) ⟨rfl, rfl⟩ (fun _ h => by cases h) trivial

/-- A write and a local `close`, answered by the END packet of the peer. -/
def closeAnsweredRun : List Event :=
  [.call (.write 0 [1]), .call .close, .call (.poll 0 0 10 1),
    .recv ⟨udxHeaderEnd, 0, 1, 0xffffffff, 0, 0⟩ [] ⟨.v4 0, 2⟩, .call (.poll 0 0 10 1)]

/-- A write reports a reset connection before the answer and an end of file after it. -/
theorem closeAnsweredRun_changes_reason :
    let closed := (UdxStream.connect 0 ⟨.v4 0, 2⟩ 2 1).run (closeAnsweredRun.take 2)
    let answered := (UdxStream.connect 0 ⟨.v4 0, 2⟩ 2 1).run closeAnsweredRun
    answered.inner.ghost.reasons.head? = some .connectionReset ∧
      (closed.inner.pollWrite 0 0 [1]).2 = .ready (.error ⟨.connectionReset, ""⟩) ∧
      (answered.inner.pollWrite 0 0 [1]).2 = .ready (.error ⟨.unexpectedEof, ""⟩) := by
  decide

end AsyncUdx
