import AsyncUdx.BaseRegistry
import AsyncUdx.SocketSend
import AsyncUdx.StreamChannel

/-! The registry of a socket under the reuse of stream ids. A stream whose driver completes reports its id on
the channel to the socket; the socket removes whatever is registered under that id when its driver gets to the
report. An id may be reused before that, as soon as the driver has completed, and the report then removes the
new stream. If an id is reused only when no report about it is left, every stream whose driver has not completed
stays registered. -/

namespace AsyncUdx

open Relation Registry

/-- While the socket exists, every stream whose driver has not completed is the one registered under its id, its
channel is open, and a datagram with its id reaches it. -/
def Registered (h : UdxSocket) : Prop :=
  h.strongCount ≠ 0 → ∀ (n : Nat) (u : UdxStream), h.tasks[n]? = some u → u.driver ≠ .completed →
    h.inner.streams.lookup u.inner.localId = some ⟨n⟩ ∧ u.inner.recvRx.closed = false ∧
    ∀ data source header, Header.fromBytes data = .ok header → header.streamId = u.inner.localId →
      (h.processPacket data source).1.tasks[n]? = some (u.step (.recv header (data.drop udxHeaderSize) source))

/-- An id is reused only after every stream with that id has completed. -/
def ReusesCompleted (h : UdxSocket) : SocketEvent → Prop
  | .connect _ localId _ => ∀ u ∈ h.tasks, u.inner.localId = localId → u.driver = .completed
  | _ => True

/-- An id is reused only when the socket has handled every report about it. -/
def ReusesCleared (h : UdxSocket) : SocketEvent → Prop
  | .connect _ localId _ => ∀ sent ∈ h.inner.sendRx, sent.event ≠ .streamDropped localId
  | _ => True

instance (h : UdxSocket) (e : SocketEvent) : Decidable (ReusesCompleted h e) :=
  match e with
  | .connect _ localId _ =>
      inferInstanceAs (Decidable (∀ u ∈ h.tasks, u.inner.localId = localId → u.driver = .completed))
  | .stream .. | .send .. | .recv _ | .clone | .drop | .poll _ | .tick _ => isTrue trivial

instance (h : UdxSocket) (e : SocketEvent) : Decidable (ReusesCleared h e) :=
  match e with
  | .connect _ localId _ => inferInstanceAs (Decidable (∀ sent ∈ h.inner.sendRx, sent.event ≠ .streamDropped localId))
  | .stream .. | .send .. | .recv _ | .clone | .drop | .poll _ | .tick _ => isTrue trivial

/-! ### What concerns the registry -/

/-- The fields of a stream that concern its registration. -/
structure Standing where
  localId : UInt32
  driver : Driver
  closedEnds : Bool × Bool

def UdxStream.standing (u : UdxStream) : Standing := ⟨u.inner.localId, u.driver, u.inner.closedEnds⟩

/-- The fields of a socket and its streams that concern the registry. -/
structure RegistrySide where
  table : SeqMap StreamHandle
  standings : List Standing
  reports : List UInt32

def UdxSocket.registrySide (h : UdxSocket) : RegistrySide where
  table := h.inner.streams
  standings := h.tasks.map UdxStream.standing
  reports := h.inner.sendRx.filterMap fun sent => sent.event.report

namespace RegistrySide

/-- The registry as its specification sees it. -/
def view (v : RegistrySide) : View UInt32 Nat where
  table := fun localId => (v.table.lookup localId).map StreamHandle.recvTx
  key := fun n => (v.standings[n]?).map Standing.localId
  live := fun n => ∃ standing, v.standings[n]? = some standing ∧ standing.driver ≠ .completed
  announced := fun localId => localId ∈ v.reports

/-- What holds of a registry while ids are reused with care. -/
structure Kept (v : RegistrySide) : Prop where
  consistent : Consistent v.view
  opened : ∀ (n : Nat) (standing : Standing), v.standings[n]? = some standing → standing.driver ≠ .completed →
    standing.driver = .running ∧ standing.closedEnds = (false, false)

/-- The channel of a stream is closed by the socket. -/
def shut (v : RegistrySide) : Option StreamHandle → List Standing
  | none => v.standings
  | some handle => v.standings.modify handle.recvTx fun standing =>
      { standing with closedEnds := (true, standing.closedEnds.2) }

def remove (v : RegistrySide) (localId : UInt32) : RegistrySide :=
  { v with table := v.table.erase localId, standings := v.shut (v.table.lookup localId) }

def connect (v : RegistrySide) (localId : UInt32) : RegistrySide :=
  { v with
    table := v.table.insert localId ⟨v.standings.length⟩
    standings := v.shut (v.table.lookup localId) ++ [⟨localId, .running, (false, false)⟩] }

/-- A stream completes and reports it. -/
def complete (v : RegistrySide) (n : Nat) (localId : UInt32) : RegistrySide :=
  { v with
    standings := v.standings.modify n fun standing => { standing with driver := .completed }
    reports := v.reports ++ [localId] }

/-! ### The steps of the registry -/

theorem shut_getElem? (v : RegistrySide) (handle : Option StreamHandle) (n : Nat) :
    (v.shut handle)[n]? = (v.standings[n]?).map fun standing =>
      if handle = some ⟨n⟩ then { standing with closedEnds := (true, standing.closedEnds.2) } else standing := by
  cases handle with
  | none => simp [shut]
  | some handle =>
      rw [shut, List.getElem?_modify]
      refine congrArg (Option.map · _) (funext fun standing => ?_)
      have hiff : (handle.recvTx = n) = (some handle = some ⟨n⟩) := by
        rw [Option.some_inj]
        exact propext ⟨fun h => h ▸ rfl, fun h => h ▸ rfl⟩
      simp only [hiff]

theorem shut_localId (v : RegistrySide) (handle : Option StreamHandle) (n : Nat) :
    ((v.shut handle)[n]?).map Standing.localId = (v.standings[n]?).map Standing.localId := by
  rw [shut_getElem?, Option.map_map]
  refine congrArg (Option.map · _) (funext fun standing => ?_)
  dsimp only [Function.comp]
  split <;> rfl

/-- A channel that is shut leaves the stream as it was, apart from the flag. -/
theorem shut_driver {v : RegistrySide} {handle : Option StreamHandle} {n : Nat} {standing : Standing}
    (h : (v.shut handle)[n]? = some standing) : ∃ before, v.standings[n]? = some before ∧
      before.driver = standing.driver ∧ (handle ≠ some ⟨n⟩ → before = standing) := by
  rw [shut_getElem?] at h
  obtain ⟨before, hbefore, rfl⟩ := Option.map_eq_some_iff.mp h
  refine ⟨before, hbefore, ?_, fun hne => (if_neg hne).symm⟩
  split <;> rfl

theorem shut_length (v : RegistrySide) (handle : Option StreamHandle) :
    (v.shut handle).length = v.standings.length := by
  cases handle with
  | none => rfl
  | some handle => exact List.length_modify _ _ _

namespace Kept

variable {v : RegistrySide} (hv : v.Kept)

include hv

/-- The stream in the entry of a vacant id has completed. -/
theorem completed_of_vacant {localId : UInt32} (hvacant : v.view.Vacant localId) {n : Nat}
    (hlookup : v.table.lookup localId = some ⟨n⟩) {standing : Standing} (hn : v.standings[n]? = some standing) :
    standing.driver = .completed := by
  by_contra hlive
  have hentry : v.view.table localId = some n := congrArg (Option.map StreamHandle.recvTx) hlookup
  exact hvacant n (hv.consistent.owner localId n hentry) ⟨standing, hn, hlive⟩

/-- Streams that have not completed are not shut with the entry of a vacant id. -/
theorem shut_opened {localId : UInt32} (hvacant : v.view.Vacant localId) {n : Nat} {standing : Standing}
    (hn : (v.shut (v.table.lookup localId))[n]? = some standing) (hlive : standing.driver ≠ .completed) :
    v.standings[n]? = some standing := by
  obtain ⟨before, hbefore, hdriver, hsame⟩ := shut_driver hn
  have hne : v.table.lookup localId ≠ some ⟨n⟩ := fun hlookup =>
    hlive (hdriver ▸ hv.completed_of_vacant hvacant hlookup hbefore)
  rw [hbefore, hsame hne]

theorem remove {localId : UInt32} (hvacant : v.view.Vacant localId) : (v.remove localId).Kept where
  consistent := by
    refine hv.consistent.step (.remove localId hvacant ?_ (funext fun n => shut_localId v _ n) ?_ fun _ h => h)
    · funext k
      change ((v.table.erase localId).lookup k).map _ = _
      by_cases hk : k = localId
      · rw [hk, AList.lookup_erase, Function.update_self, Option.map_none]
      · rw [AList.lookup_erase_ne hk, Function.update_of_ne hk]
        rfl
    · rintro n ⟨standing, hn, hlive⟩
      exact ⟨standing, hv.shut_opened hvacant hn hlive, hlive⟩
  opened := fun n standing hn hlive => hv.opened n standing (hv.shut_opened hvacant hn hlive) hlive

theorem connect {localId : UInt32} (hvacant : v.view.Vacant localId) (hclear : localId ∉ v.reports) :
    (v.connect localId).Kept := by
  -- the new stream comes last, the others are as they were
  have hcases : ∀ {n : Nat} {standing : Standing}, (v.connect localId).standings[n]? = some standing →
      standing.driver ≠ .completed → v.standings[n]? = some standing ∨
        n = v.standings.length ∧ standing = ⟨localId, .running, (false, false)⟩ := by
    intro n standing hn hlive
    change (v.shut _ ++ [_])[n]? = _ at hn
    rcases Nat.lt_or_ge n v.standings.length with hlt | hge
    · rw [List.getElem?_append_left (by rw [shut_length]; exact hlt)] at hn
      exact Or.inl (hv.shut_opened hvacant hn hlive)
    · rw [List.getElem?_append_right (by rw [shut_length]; exact hge), shut_length] at hn
      rw [List.getElem?_singleton] at hn
      split at hn
      · cases hn
        exact Or.inr ⟨by omega, rfl⟩
      · cases hn
  constructor
  · refine hv.consistent.step (.register localId v.standings.length ?_ hvacant hclear ?_ ?_ ?_ fun _ h => h)
    · change (v.standings[v.standings.length]?).map _ = none
      rw [List.getElem?_eq_none (Nat.le_refl _), Option.map_none]
    · funext k
      change ((v.table.insert localId ⟨v.standings.length⟩).lookup k).map _ = _
      by_cases hk : k = localId
      · rw [hk, AList.lookup_insert, Function.update_self, Option.map_some]
      · rw [AList.lookup_insert_ne hk, Function.update_of_ne hk]
        rfl
    · funext n
      change ((v.shut _ ++ [_])[n]?).map _ = _
      by_cases hn : n = v.standings.length
      · rw [hn, ← shut_length v (v.table.lookup localId), List.getElem?_concat_length, Function.update_self]
        rfl
      · rw [Function.update_of_ne hn]
        change _ = (v.standings[n]?).map _
        rcases Nat.lt_or_ge n v.standings.length with hlt | hge
        · rw [List.getElem?_append_left (by rw [shut_length]; exact hlt), shut_localId]
        · rw [List.getElem?_eq_none (by rw [List.length_append, shut_length, List.length_singleton]; omega),
            List.getElem?_eq_none hge]
    · rintro n ⟨standing, hn, hlive⟩
      rcases hcases hn hlive with hold | ⟨hnew, -⟩
      · exact Or.inr ⟨standing, hold, hlive⟩
      · exact Or.inl hnew
  · intro n standing hn hlive
    rcases hcases hn hlive with hold | ⟨-, rfl⟩
    · exact hv.opened n standing hold hlive
    · exact ⟨rfl, rfl⟩

theorem complete {n : Nat} {standing : Standing} (hn : v.standings[n]? = some standing)
    (hlive : standing.driver ≠ .completed) : (v.complete n standing.localId).Kept := by
  have hlookup : ∀ m, (v.complete n standing.localId).standings[m]? = (v.standings[m]?).map fun standing =>
      if n = m then { standing with driver := .completed } else standing := fun m => List.getElem?_modify _ _ _ _
  -- a stream that is still live is another one
  have hother : ∀ {m : Nat} {other : Standing}, (v.complete n standing.localId).standings[m]? = some other →
      other.driver ≠ .completed → m ≠ n ∧ v.standings[m]? = some other := by
    intro m other hm hother
    rw [hlookup] at hm
    obtain ⟨before, hbefore, rfl⟩ := Option.map_eq_some_iff.mp hm
    by_cases hne : n = m
    · rw [if_pos hne] at hother
      exact absurd rfl hother
    · rw [if_neg hne]
      exact ⟨fun h => hne h.symm, hbefore⟩
  constructor
  · refine hv.consistent.step (.stop standing.localId n ?_ ⟨standing, hn, hlive⟩ rfl ?_ ?_ ?_)
    · change (v.standings[n]?).map _ = _
      rw [hn, Option.map_some]
    · funext m
      change ((v.complete n standing.localId).standings[m]?).map _ = (v.standings[m]?).map _
      rw [hlookup, Option.map_map]
      refine congrArg (Option.map · _) (funext fun other => ?_)
      dsimp only [Function.comp]
      split <;> rfl
    · rintro m ⟨other, hm, hlives⟩
      exact ⟨(hother hm hlives).1, other, (hother hm hlives).2, hlives⟩
    · intro k hk
      rcases List.mem_append.mp hk with h | h
      · exact Or.inr h
      · exact Or.inl (List.mem_singleton.mp h)
  · intro m other hm hlives
    exact hv.opened m other (hother hm hlives).2 hlives

/-- A report that was handled is forgotten. -/
theorem forget (reports : List UInt32) (hreports : ∀ k ∈ reports, k ∈ v.reports) :
    ({ v with reports := reports } : RegistrySide).Kept :=
  ⟨hv.consistent.step (.idle rfl rfl (fun _ h => h) hreports), hv.opened⟩

end Kept

end RegistrySide

/-! ### The functions of the socket -/

namespace UdxSocket

theorem modify_registrySide (h : UdxSocket) (n : Nat) {f : UdxStream → UdxStream}
    (hf : ∀ u, (f u).standing = u.standing) : (h.modify n f).registrySide = h.registrySide := by
  have hmap : (h.tasks.modify n f).map UdxStream.standing = h.tasks.map UdxStream.standing := by
    rw [map_modify f UdxStream.standing id hf, List.modify_id]
  rw [registrySide, registrySide]
  exact congrArg (RegistrySide.mk _ · _) hmap

theorem dropHandle_standings (h : UdxSocket) (handle : Option StreamHandle) :
    (h.dropHandle handle).tasks.map UdxStream.standing = h.registrySide.shut handle := by
  cases handle with
  | none => rfl
  | some handle =>
      refine map_modify _ _ _ (fun u => ?_) _ _
      change Standing.mk _ _ (u.inner.recvRx.closed || true, u.inner.sendTx.closed || false) = _
      rw [Bool.or_true, Bool.or_false]
      rfl

theorem remove_registrySide (h : UdxSocket) (localId : UInt32) :
    (h.remove localId).registrySide = h.registrySide.remove localId :=
  congrArg (RegistrySide.mk (h.inner.streams.erase localId) · _) (dropHandle_standings h _)

theorem connect_registrySide (h : UdxSocket) (dest : SocketAddr) (localId remoteId : UInt32) :
    (h.connect dest localId remoteId).registrySide = h.registrySide.connect localId := by
  have hlength : h.tasks.length = h.registrySide.standings.length := (List.length_map _).symm
  have hstandings : ((h.dropHandle (h.inner.streams.lookup localId)).tasks ++
      [UdxStream.connect h.clock dest remoteId localId]).map UdxStream.standing =
        h.registrySide.shut (h.inner.streams.lookup localId) ++ [⟨localId, .running, (false, false)⟩] := by
    rw [List.map_append, dropHandle_standings]
    rfl
  rw [RegistrySide.connect, ← hlength]
  exact congrArg (RegistrySide.mk (h.inner.streams.insert localId ⟨h.tasks.length⟩) · _) hstandings

/-- An entry that leads to a stream without receiver is vacant. -/
theorem vacant_of_not_receives {h : UdxSocket} (hkept : h.registrySide.Kept) {localId : UInt32}
    {handle : StreamHandle} (hlookup : h.inner.streams.lookup localId = some handle)
    (hgone : h.receives handle = false) : h.registrySide.view.Vacant localId := by
  rintro n hkey ⟨standing, hn, hlive⟩
  have hentry := hkept.consistent.registered n localId ⟨standing, hn, hlive⟩ hkey
  change (h.inner.streams.lookup localId).map _ = some n at hentry
  rw [hlookup, Option.map_some, Option.some_inj] at hentry
  change (h.tasks.map UdxStream.standing)[n]? = some standing at hn
  rw [List.getElem?_map] at hn
  obtain ⟨u, hu, rfl⟩ := Option.map_eq_some_iff.mp hn
  have hrunning : u.driver = .running := (hkept.opened n _ (by rw [registrySide, List.getElem?_map, hu]; rfl) hlive).1
  rw [receives, hentry, hu] at hgone
  simp [UdxStream.strongCount, hrunning] at hgone

theorem handleEvent_kept {h : UdxSocket} (hkept : h.registrySide.Kept) {sent : Sent} {rest : List Sent}
    (hcons : h.inner.sendRx = sent :: rest) :
    (({ h with inner := { h.inner with sendRx := rest } } : UdxSocket).handleEvent sent).registrySide.Kept := by
  let popped : UdxSocket := { h with inner := { h.inner with sendRx := rest } }
  have hreports : h.registrySide.reports = (sent :: rest).filterMap fun sent => sent.event.report :=
    congrArg (List.filterMap _) hcons
  have hpopped : popped.registrySide.Kept := by
    refine hkept.forget (rest.filterMap fun sent => sent.event.report) fun k hk => ?_
    obtain ⟨other, hother, hreport⟩ := List.mem_filterMap.mp hk
    rw [hreports]
    exact List.mem_filterMap.mpr ⟨other, List.mem_cons_of_mem _ hother, hreport⟩
  change (popped.handleEvent sent).registrySide.Kept
  unfold handleEvent
  split
  · rename_i localId hevent
    rw [remove_registrySide]
    refine hpopped.remove (hkept.consistent.vacant localId ?_)
    change localId ∈ h.registrySide.reports
    rw [hreports]
    exact List.mem_filterMap.mpr ⟨sent, List.mem_cons_self, by rw [hevent]; rfl⟩
  · exact hpopped
  · exact hpopped

theorem markSent_standing (u : UdxStream) (seq : UInt32) (sent : Nat) :
    (u.call (.markSent seq sent)).standing = u.standing := by
  have hends := u.call_closedEnds (.markSent seq sent) fun _ _ => Call.noConfusion
  have hlocalId := u.step_localId (.call (.markSent seq sent))
  rw [UdxStream.standing, UdxStream.standing, hends]
  exact congrArg (Standing.mk · _ _) hlocalId

theorem pollTransmit_kept {h : UdxSocket} (hkept : h.registrySide.Kept) (cx : SocketContext) :
    (h.pollTransmit cx).1.registrySide.Kept := by
  refine pollTransmit_invariant (fun h => h.registrySide.Kept) (fun _ _ _ hcons hkept => ?_)
    (fun _ _ _ _ _ hkept => hkept) (fun h n seq sentAt hkept => ?_) cx hkept
  · exact handleEvent_kept hkept hcons
  · rw [modify_registrySide h n fun u => markSent_standing u seq sentAt]
    exact hkept

theorem pollRecv_kept {h : UdxSocket} (hkept : h.registrySide.Kept) (cx : SocketContext) :
    (h.pollRecv cx).1.registrySide.Kept := by
  refine pollRecv_invariant (fun h => h.registrySide.Kept) (fun _ _ _ _ _ hkept => hkept)
    (fun h n header buf source hkept => ?_) (fun h localId handle hlookup hgone hkept => ?_) cx hkept
  · have hsame : ∀ u : UdxStream, (u.step (.recv header buf source)).standing = u.standing := fun _ => rfl
    rw [modify_registrySide h n hsame]
    exact hkept
  · rw [remove_registrySide]
    exact hkept.remove (vacant_of_not_receives hkept hlookup hgone)

theorem onDrop_registrySide (h : UdxSocket) : h.onDrop.registrySide = h.registrySide := by
  unfold onDrop
  split <;> rfl

/-- A handle that goes leaves the streams alone, as long as another one keeps the socket. -/
theorem release_kept {h : UdxSocket} (hkept : h.registrySide.Kept) (hcount : h.release.strongCount ≠ 0) :
    h.release.registrySide.Kept := by
  unfold release at hcount ⊢
  split at hcount
  · rename_i hzero
    exact absurd hzero hcount
  · rename_i hzero
    rw [if_neg hzero]
    exact hkept

theorem finish_kept {h : UdxSocket} (hkept : h.registrySide.Kept) (result : Except IoError Unit)
    (hcount : (h.finish result).strongCount ≠ 0) : (h.finish result).registrySide.Kept := by
  have hdropped : h.onDrop.registrySide.Kept := h.onDrop_registrySide ▸ hkept
  exact release_kept (h := { h.onDrop with driver := .finished result }) hdropped hcount

theorem settle_kept {h : UdxSocket} (hkept : h.registrySide.Kept) (cx : SocketContext) (shouldContinue : Bool)
    (hcount : (h.settle cx shouldContinue).strongCount ≠ 0) : (h.settle cx shouldContinue).registrySide.Kept := by
  unfold settle at hcount ⊢
  split
  · rename_i hdone
    rw [if_pos hdone] at hcount
    exact finish_kept hkept _ hcount
  · split
    · exact hkept
    · exact hkept

theorem poll_kept {h : UdxSocket} (hkept : h.registrySide.Kept) (cx : SocketContext)
    (hcount : (h.poll cx).strongCount ≠ 0) : (h.poll cx).registrySide.Kept := by
  have hrecv := pollRecv_kept hkept cx
  rcases h.poll_cases cx with ⟨-, err, hpoll⟩ | ⟨-, deadline, shouldContinue, -, -, hpoll⟩ | ⟨-, hpoll⟩ |
    ⟨-, -, ⟨err, -, hpoll⟩ | ⟨more, shouldContinue, -, hpoll⟩⟩ <;> rw [hpoll] at hcount ⊢
  · exact finish_kept hrecv _ hcount
  · exact settle_kept hrecv cx _ hcount
  · have hcleared : ({ (h.pollRecv cx).1 with
        inner := { (h.pollRecv cx).1.inner with sendOverflowTimer := none } } : UdxSocket).registrySide.Kept := hrecv
    exact settle_kept hcleared cx _ hcount
  · exact finish_kept (pollTransmit_kept hrecv cx) _ hcount
  · exact settle_kept (pollTransmit_kept hrecv cx) cx _ hcount

/-! ### Streams -/

/-- What a stream has reported is what its new events report. -/
theorem reports_drop {u u' : UdxStream} (h : u.inner.sendTx.events <+: u'.inner.sendTx.events) :
    u'.inner.reports =
      u.inner.reports ++
        (u'.inner.sendTx.events.drop u.inner.sendTx.events.length).filterMap EventOutgoing.report := by
  obtain ⟨new, hnew⟩ := h
  rw [UdxStreamInner.reports, UdxStreamInner.reports, ← hnew, List.drop_left, List.filterMap_append]

theorem callStream_registrySide {h : UdxSocket} {n : Nat} {u : UdxStream} (hu : h.tasks[n]? = some u) (c : Call) :
    ∃ new, (u.call c).inner.reports = u.inner.reports ++ new ∧ (h.callStream n c).registrySide =
      ⟨h.inner.streams, h.registrySide.standings.set n (u.call c).standing, h.registrySide.reports ++ new⟩ := by
  refine ⟨_, reports_drop (u.step_events_prefix (.call c)), ?_⟩
  rw [callStream, hu]
  have hstandings : (h.tasks.set n (u.call c)).map UdxStream.standing =
      h.registrySide.standings.set n (u.call c).standing := List.map_set
  have hreports : ∀ events : List EventOutgoing,
      (h.inner.sendRx ++ events.map fun event => Sent.mk (some n) event).filterMap (fun sent => sent.event.report) =
        h.registrySide.reports ++ events.filterMap EventOutgoing.report := by
    intro events
    rw [List.filterMap_append, List.filterMap_map]
    rfl
  rw [← hstandings, ← hreports]
  rfl

/-- A call on a stream keeps the registry: it completes the stream, or it does not concern it. -/
theorem callStream_kept {h : UdxSocket} (hkept : h.registrySide.Kept) (n : Nat) {c : Call} (hown : c.isOwn = true) :
    (h.callStream n c).registrySide.Kept := by
  cases hu : h.tasks[n]? with
  | none =>
      rw [callStream, hu]
      exact hkept
  | some u =>
      have hn : h.registrySide.standings[n]? = some u.standing := by
        rw [registrySide, List.getElem?_map, hu, Option.map_some]
      obtain ⟨new, hnew, hside⟩ := callStream_registrySide hu c
      have hends : (u.call c).inner.closedEnds = u.inner.closedEnds :=
        u.call_closedEnds c fun recvClosed sendClosed heq => by rw [heq] at hown; cases hown
      have hlocalId : (u.call c).inner.localId = u.inner.localId := u.step_localId (.call c)
      rw [hside]
      rcases u.call_reports c with ⟨hdone, hdriver, hreport⟩ | ⟨hnot, hreport⟩
      · have hrunning : u.driver = .running := by
          cases c with
          | poll waker timerLag budget maxGsoSegments => exact hdone.1
          | _ => exact hdone.elim
        have hlive : u.standing.driver ≠ .completed := by
          rw [show u.standing.driver = .running from hrunning]
          decide
        have hstanding : (u.call c).standing = { u.standing with driver := .completed } := by
          rw [UdxStream.standing, hends, hlocalId, hdriver]
          rfl
        have hset : h.registrySide.standings.set n { u.standing with driver := .completed } =
            h.registrySide.standings.modify n fun standing => { standing with driver := .completed } := by
          rw [List.modify_eq_set_getElem?, hn]
          rfl
        rw [List.append_cancel_left (hnew.symm.trans hreport), hstanding, hset]
        exact hkept.complete hn hlive
      · have hdriver : (u.call c).driver = u.driver := by
          by_cases hrunning : u.driver = .running
          · have hopen := (hkept.opened n _ hn (by rw [show u.standing.driver = .running from hrunning]; decide)).2
            rw [hrunning]
            exact (UdxStream.call_running hrunning (congrArg Prod.snd hopen) c).resolve_right hnot
          · exact UdxStream.call_stopped hrunning c
        have hstanding : (u.call c).standing = u.standing := by
          rw [UdxStream.standing, hends, hlocalId, hdriver]
          rfl
        rw [List.append_right_eq_self.mp (hnew.symm.trans hreport), hstanding, List.append_nil]
        obtain ⟨hlt, hget⟩ := List.getElem?_eq_some_iff.mp hn
        rw [← hget, List.set_getElem_self]
        exact hkept

/-! ### Runs -/

theorem strongCount_of_handles {h : UdxSocket} (hhandles : h.handles ≠ 0) : h.strongCount ≠ 0 :=
  fun hcount => hhandles (Nat.eq_zero_of_add_eq_zero_right hcount)

theorem strongCount_of_running {h : UdxSocket} (hrunning : h.isRunning = true) : h.strongCount ≠ 0 := by
  rw [strongCount, if_pos hrunning]
  exact Nat.succ_ne_zero _

/-- A socket that was freed stays so. -/
theorem step_strongCount {h : UdxSocket} {e : SocketEvent} (hcount : (h.step e).strongCount ≠ 0) :
    h.strongCount ≠ 0 := by
  cases e with
  | stream n c =>
      rw [step] at hcount
      split at hcount
      · unfold callStream at hcount
        split at hcount <;> exact hcount
      · exact hcount
  | poll cx =>
      rw [step] at hcount
      split at hcount
      · exact strongCount_of_running ‹_›
      · exact hcount
  | tick elapsed => exact hcount
  | _ =>
      rw [step] at hcount
      split at hcount
      · exact hcount
      · exact strongCount_of_handles ‹_›

theorem connect_kept {h : UdxSocket} (hkept : h.registrySide.Kept) (dest : SocketAddr) {localId : UInt32}
    (remoteId : UInt32) (hcompleted : ∀ u ∈ h.tasks, u.inner.localId = localId → u.driver = .completed)
    (hcleared : ∀ sent ∈ h.inner.sendRx, sent.event ≠ .streamDropped localId) :
    (h.connect dest localId remoteId).registrySide.Kept := by
  rw [connect_registrySide]
  refine hkept.connect ?_ ?_
  · rintro n hkey ⟨standing, hn, hlive⟩
    change (h.tasks.map UdxStream.standing)[n]? = some standing at hn
    change ((h.tasks.map UdxStream.standing)[n]?).map _ = some localId at hkey
    rw [hn, Option.map_some, Option.some_inj] at hkey
    obtain ⟨u, hu, rfl⟩ := List.mem_map.mp (List.mem_of_getElem? hn)
    exact hlive (hcompleted u hu hkey)
  · intro hmem
    obtain ⟨sent, hsent, hreport⟩ := List.mem_filterMap.mp hmem
    refine hcleared sent hsent ?_
    cases hevent : sent.event <;> rw [hevent] at hreport <;> cases hreport
    rfl

/-- A datagram reports nothing. -/
theorem send_kept {h : UdxSocket} (hkept : h.registrySide.Kept) (dest : SocketAddr) (buf : List UInt8) :
    (h.send dest buf).registrySide.Kept := by
  have hreports : (h.inner.sendRx ++ [Sent.mk none (.transmitDgram ⟨buf, dest⟩)]).filterMap
      (fun sent => sent.event.report) = h.registrySide.reports := by
    rw [List.filterMap_append]
    exact List.append_nil _
  exact hkept.forget _ fun k hk => hreports ▸ hk

theorem tick_registrySide (h : UdxSocket) (elapsed : Nat) :
    (h.step (.tick elapsed)).registrySide = h.registrySide := by
  have hstandings : (h.tasks.map fun u => u.call (.tick elapsed)).map UdxStream.standing =
      h.tasks.map UdxStream.standing := by
    rw [List.map_map]
    rfl
  exact congrArg (RegistrySide.mk h.inner.streams · _) hstandings

/-- **One event keeps the registry**, if a stream id is reused with care. -/
theorem step_kept {h : UdxSocket} {e : SocketEvent} (hkept : h.registrySide.Kept)
    (hguard : ReusesCompleted h e ∧ ReusesCleared h e) (hcount : (h.step e).strongCount ≠ 0) :
    (h.step e).registrySide.Kept := by
  cases e with
  | connect dest localId remoteId =>
      rw [step]
      split
      · exact hkept
      · exact connect_kept hkept dest remoteId hguard.1 hguard.2
  | stream n c =>
      rw [step]
      split
      · exact callStream_kept hkept n ‹_›
      · exact hkept
  | send dest buf =>
      rw [step]
      split
      · exact hkept
      · exact send_kept hkept dest buf
  | recv waker =>
      rw [step]
      split
      · exact hkept
      · unfold recv
        split
        · exact hkept
        · exact hkept
  | clone =>
      rw [step]
      split
      · exact hkept
      · exact hkept
  | drop =>
      rw [step] at hcount ⊢
      split
      · exact hkept
      · rename_i hhandles
        rw [if_neg hhandles] at hcount
        have hdropped : h.onDrop.registrySide.Kept := h.onDrop_registrySide ▸ hkept
        exact release_kept (h := { h.onDrop with handles := h.handles - 1 }) hdropped hcount
  | poll cx =>
      rw [step] at hcount ⊢
      split
      · rename_i hrunning
        rw [if_pos hrunning] at hcount
        exact poll_kept hkept cx hcount
      · exact hkept
  | tick elapsed =>
      rw [tick_registrySide]
      exact hkept

/-- What the registry says of a stream that has not completed. -/
theorem registered_of_kept {h : UdxSocket} (hkept : h.registrySide.Kept) : Registered h := by
  intro _ n u hu hlive
  have hn : h.registrySide.standings[n]? = some u.standing := by
    rw [registrySide, List.getElem?_map, hu, Option.map_some]
  obtain ⟨hrunning, hends⟩ := hkept.opened n _ hn hlive
  have hlookup : h.inner.streams.lookup u.inner.localId = some ⟨n⟩ := by
    have hkey : h.registrySide.view.key n = some u.inner.localId := congrArg (Option.map Standing.localId) hn
    obtain ⟨handle, hhandle, hrecvTx⟩ := Option.map_eq_some_iff.mp
      (hkept.consistent.registered n u.inner.localId ⟨u.standing, hn, hlive⟩ hkey)
    exact hhandle.trans (congrArg (fun m => some (StreamHandle.mk m)) hrecvTx)
  refine ⟨hlookup, congrArg Prod.fst hends, fun data source header hheader hid => ?_⟩
  have hreceives : (h.countRx data).receives ⟨n⟩ = true := by
    rw [receives, show (h.countRx data).tasks[n]? = some u from hu]
    simp [UdxStream.strongCount, show u.driver = .running from hrunning]
  rw [processPacket, hheader]
  dsimp only
  rw [dispatch, hid, show (h.countRx data).inner.streams.lookup u.inner.localId = some ⟨n⟩ from hlookup]
  dsimp only
  rw [if_pos hreceives]
  exact (List.getElem?_modify_eq _ _ _).trans (congrArg (Option.map _) hu)

end UdxSocket

/-- **The registry is right in every state of a run that reuses an id only after its streams have completed and
the socket has handled every report about it.** -/
theorem registered_always (now batchSize : Nat) (events : List SocketEvent)
    (hreuse : Runs.Along UdxSocket.step (fun h e => ReusesCompleted h e ∧ ReusesCleared h e) (.bind now batchSize)
      events) :
    Runs.Always UdxSocket.step Registered (.bind now batchSize) events := by
  refine Runs.always_of_along (fun h : UdxSocket => h.strongCount ≠ 0 → h.registrySide.Kept)
    (fun h hkept hcount => UdxSocket.registered_of_kept (hkept hcount) hcount) ?_ (fun _ => ?_) hreuse
  · intro h e hkept hguard hcount
    exact UdxSocket.step_kept (hkept (UdxSocket.step_strongCount hcount)) hguard hcount
  · refine ⟨⟨?_, ?_, ?_⟩, ?_⟩
    · rintro n k ⟨standing, hn, -⟩
      cases hn
    · intro k n hk
      cases hk
    · intro k hk
      cases hk
    · intro n standing hn
      cases hn

/-- A poll of the socket driver that finds no datagrams and can send everything. -/
def quietPoll : SocketEvent := .poll ⟨0, 10, 0, [], .sent 10, 0⟩

/-- A stream that is closed, up to the completion of its driver. -/
def completedRun : List SocketEvent :=
  [.connect ⟨.v4 0, 2⟩ 1 2, .stream 0 .close, .stream 0 (.poll 0 0 10 1), .stream 0 (.poll 0 0 10 1)]

/-- The id is reused after a poll of the socket driver. -/
theorem registered_always_reused :
    let events := completedRun ++ [quietPoll, .connect ⟨.v4 0, 2⟩ 1 2, quietPoll]
    Runs.Along UdxSocket.step (fun h e => ReusesCompleted h e ∧ ReusesCleared h e) (.bind 0 32) events ∧
      Runs.Always UdxSocket.step Registered (.bind 0 32) events :=
  ⟨by decide, registered_always 0 32 _ (by decide)⟩

/-- The id is reused right after the close future has resolved. The report about the first stream then removes
the second one, whose driver is running, and its channel is closed. -/
theorem completedRun_reused_unregisters :
    let events := completedRun ++ [.connect ⟨.v4 0, 2⟩ 1 2, quietPoll]
    let h := Runs.run UdxSocket.step (.bind 0 32) events
    Runs.Along UdxSocket.step ReusesCompleted (.bind 0 32) events ∧ h.strongCount ≠ 0 ∧
      (h.tasks[0]?).map (fun u => (u.driver, u.inner.ghost.resolved)) = some (.completed, [0]) ∧
      (h.tasks[1]?).map (fun u => (u.driver, u.inner.localId, u.inner.recvRx.closed)) = some (.running, 1, true) ∧
      h.inner.streams.lookup 1 = none := by
  decide

end AsyncUdx
