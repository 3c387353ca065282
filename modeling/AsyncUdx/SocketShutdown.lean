import AsyncUdx.BaseMap
import AsyncUdx.BaseRun
import AsyncUdx.SocketSend

/-! The end of the socket driver. It is decided from the registry and from whether there is more to do, and there is
not more to do when the UDP socket does not take anything: what is waiting to be sent at that moment is lost. -/

namespace AsyncUdx

namespace UdxSocket

/-- The transmits that are waiting, in the queue or as events in the channel. -/
def backlog (h : UdxSocket) : Nat := h.inner.outgoingTransmits.length + (sources h.inner.sendRx).length

/-- Nothing is left to be sent: the queue is empty, and the channel holds no event that asks for a transmit. -/
def Flushed (h : UdxSocket) : Prop :=
  h.inner.outgoingTransmits = [] ∧ ∀ sent ∈ h.inner.sendRx, ∃ localId, sent.event = .streamDropped localId

theorem flushed_iff (h : UdxSocket) : h.Flushed ↔ h.backlog = 0 := by
  have hsource : ∀ sent : Sent, (∃ localId, sent.event = .streamDropped localId) ↔ sent.source = none := by
    rintro ⟨origin, event⟩
    cases event <;> simp [Sent.source]
  simp only [Flushed, backlog, sources, Nat.add_eq_zero_iff, List.length_eq_zero_iff, List.filterMap_eq_nil_iff,
    hsource]

/-- When the driver ends well, everything was sent. -/
def FlushedAtEnd (h : UdxSocket) : SocketEvent → Prop
  | .poll cx => h.isRunning = true → (h.poll cx).driver = .finished (.ok ()) → (h.poll cx).Flushed
  | _ => True

/-- The stream registered under an id is alive. -/
def Attached (localId : UInt32) (handle : StreamHandle) (h : UdxSocket) : Prop :=
  h.inner.streams.lookup localId = some handle ∧ h.receives handle = true

/-- The poll sends all it can: a timer that held back sending is over, or all events fit into its budget and the UDP
socket takes everything, a batch at most. -/
def SendsAll (h : UdxSocket) (cx : SocketContext) : Prop :=
  match h.inner.sendOverflowTimer with
  | some deadline => deadline + cx.timerLag ≤ h.clock
  | none => h.inner.sendRx.length ≤ cx.budget ∧ ∃ n, cx.sendOutcome = .sent n ∧ min h.backlog h.batchSize ≤ n

/-- A poll that cannot end the driver early: a handle is left, nothing is waiting, a stream stays registered, or all
is sent. -/
def EndsInOrder (h : UdxSocket) : SocketEvent → Prop
  | .poll cx => h.inner.hasRefs = true ∨ h.backlog = 0 ∨
      (∃ localId handle, h.Attached localId handle ∧
        ∀ sent ∈ h.inner.sendRx, sent.event ≠ .streamDropped localId) ∨ h.SendsAll cx
  | _ => True

/-! ### A stream that stays registered -/

theorem modify_receives (h : UdxSocket) (n : Nat) {f : UdxStream → UdxStream}
    (hf : ∀ u, (f u).strongCount = u.strongCount) (handle : StreamHandle) :
    (h.modify n f).receives handle = h.receives handle := by
  unfold receives modify
  dsimp only
  rw [List.getElem?_modify]
  cases h.tasks[handle.recvTx]? with
  | none => rfl
  | some u =>
      rw [Option.map_eq_map, Option.map_some]
      dsimp only
      split
      · rw [hf]
      · rfl

theorem remove_attached {h : UdxSocket} {localId other : UInt32} {handle : StreamHandle} (hne : localId ≠ other)
    (hattached : h.Attached localId handle) : (h.remove other).Attached localId handle := by
  constructor
  · change (h.inner.streams.erase other).lookup localId = _
    rw [AList.lookup_erase_ne hne]
    exact hattached.1
  · change (h.dropHandle (h.inner.streams.lookup other)).receives handle = true
    unfold dropHandle
    split
    · exact hattached.2
    · rw [modify_receives]
      · exact hattached.2
      · exact fun _ => rfl

theorem pollRecv_attached {h : UdxSocket} {localId : UInt32} {handle : StreamHandle}
    (hattached : h.Attached localId handle) (cx : SocketContext) : (h.pollRecv cx).1.Attached localId handle := by
  refine pollRecv_invariant (Attached localId handle) (fun _ _ _ _ _ h => h) ?_ ?_ cx hattached
  · intro h n header buf source hattached
    refine ⟨hattached.1, ?_⟩
    rw [modify_receives]
    · exact hattached.2
    · exact fun _ => rfl
  · intro h other gone hlookup hgone hattached
    refine remove_attached ?_ hattached
    rintro rfl
    rw [hattached.1] at hlookup
    cases hlookup
    rw [hattached.2] at hgone
    cases hgone

theorem takeEvents_attached (budget : Nat) {h : UdxSocket} {localId : UInt32} {handle : StreamHandle}
    (hattached : h.Attached localId handle) (hkept : ∀ sent ∈ h.inner.sendRx, sent.event ≠ .streamDropped localId) :
    (h.takeEvents budget).1.Attached localId handle := by
  refine (takeEvents_invariant (fun t => t.Attached localId handle ∧
    ∀ sent ∈ t.inner.sendRx, sent.event ≠ .streamDropped localId) (fun t sent rest hqueue ht => ?_) budget
      ⟨hattached, hkept⟩).1
  obtain ⟨hattached, hkept⟩ := ht
  have hrest : (({ t with inner := { t.inner with sendRx := rest } } : UdxSocket).handleEvent sent).inner.sendRx =
      rest := (List.cons.inj (hqueue.symm.trans (handleEvent_takes hqueue).sendRx)).2.symm
  rw [hqueue, List.forall_mem_cons] at hkept
  refine ⟨?_, by rw [hrest]; exact hkept.2⟩
  obtain ⟨origin, event⟩ := sent
  cases event with
  | streamDropped other =>
      refine remove_attached (h := { t with inner := { t.inner with sendRx := rest } }) ?_ hattached
      rintro rfl
      exact hkept.1 rfl
  | transmitDgram dgram => exact hattached
  | transmit set => exact hattached

/-! ### The backlog -/

theorem Takes.backlog_eq {h t : UdxSocket} {events : List Sent} (htake : Takes h events t) : t.backlog = h.backlog := by
  rw [backlog, backlog, htake.length, htake.sendRx, sources, sources, sources, List.filterMap_append,
    List.length_append, Nat.add_assoc]

theorem drain_backlog_le (h : UdxSocket) (n sentAt : Nat) : (h.drain n sentAt).backlog ≤ h.backlog := by
  change (h.inner.outgoingTransmits.drop n).length + _ ≤ _
  rw [List.length_drop, backlog]
  exact Nat.add_le_add_right (Nat.sub_le _ _) _

/-- A send leaves no more waiting than there was, and nothing when it takes all that the channel and the queue hold. -/
theorem pollTransmit_backlog {h : UdxSocket} {cx : SocketContext} (hbatch : 0 < h.batchSize)
    (hdone : (h.pollTransmit cx).2 = .ok false) :
    (h.pollTransmit cx).1.backlog ≤ h.backlog ∧
    ∀ n, h.inner.sendRx.length ≤ cx.budget → cx.sendOutcome = .sent n → min h.backlog h.batchSize ≤ n →
      (h.pollTransmit cx).1.backlog = 0 := by
  obtain ⟨events, htake⟩ := takeEvents_takes cx.budget h
  obtain ⟨hpending, hfull⟩ := takeEvents_stops cx.budget h
  unfold pollTransmit at hdone ⊢
  generalize h.takeEvents cx.budget = taken at *
  obtain ⟨t, stopped⟩ := taken
  dsimp only at *
  rw [← htake.backlog_eq]
  -- nothing stays in the channel, so that what was waiting is all in the queue
  have hqueue : h.inner.sendRx.length ≤ cx.budget → stopped = true →
      t.inner.sendRx = [] ∧ t.backlog = t.inner.outgoingTransmits.length := by
    intro hlen hstopped
    have hnil := (hpending hstopped).2 hlen
    exact ⟨hnil, by rw [backlog, hnil]; rfl⟩
  split at hdone
  · rename_i hempty
    rw [if_pos hempty]
    refine ⟨Nat.le_refl _, fun n hlen _ _ => ?_⟩
    have hnone := List.isEmpty_iff.mp hempty
    cases stopped with
    | true => rw [(hqueue hlen rfl).2, hnone, List.length_nil]
    | false =>
        have hroom := hfull rfl
        rw [hnone, List.length_nil] at hroom
        omega
  · rename_i hempty
    rw [if_neg hempty]
    cases houtcome : cx.sendOutcome with
    | pending => exact ⟨Nat.le_refl _, fun n _ hsent => by cases hsent⟩
    | interrupted => exact ⟨Nat.le_refl _, fun n _ hsent => by cases hsent⟩
    | failed err =>
        rw [houtcome] at hdone
        cases hdone
    | sent m =>
        rw [houtcome] at hdone
        refine ⟨drain_backlog_le t m cx.sentAt, fun n hlen hsent hmin => ?_⟩
        cases hsent
        have hstopped : stopped = true := by simpa using hdone
        obtain ⟨hnil, hall⟩ := hqueue hlen hstopped
        have hroom := (hpending hstopped).1
        change (t.inner.outgoingTransmits.drop m).length + (sources t.inner.sendRx).length = 0
        rw [List.length_drop, hnil, sources, List.filterMap_nil, List.length_nil]
        omega

/-! ### The end -/

theorem pollTransmit_attached {h : UdxSocket} {localId : UInt32} {handle : StreamHandle}
    (hattached : h.Attached localId handle) (hkept : ∀ sent ∈ h.inner.sendRx, sent.event ≠ .streamDropped localId)
    (cx : SocketContext) : (h.pollTransmit cx).1.inner.streams.lookup localId = some handle := by
  have htaken := (takeEvents_attached cx.budget hattached hkept).1
  unfold pollTransmit
  generalize h.takeEvents cx.budget = taken at *
  obtain ⟨t, stopped⟩ := taken
  dsimp only
  split
  · exact htaken
  · split <;> exact htaken

/-- A poll that ends the driver although it was not to end early has sent all there was, or there was nothing. -/
theorem EndsInOrder.of_end {h t : UdxSocket} {cx : SocketContext} (hends : h.EndsInOrder (.poll cx))
    (hrefs : t.inner.hasRefs = h.inner.hasRefs) (hnorefs : t.inner.hasRefs = false)
    (hempty : t.inner.streams.entries = [])
    (hstays : ∀ localId handle, h.Attached localId handle →
      (∀ sent ∈ h.inner.sendRx, sent.event ≠ .streamDropped localId) →
      t.inner.streams.lookup localId = some handle) : h.backlog = 0 ∨ h.SendsAll cx := by
  rcases hends with hleft | hzero | ⟨localId, handle, hattached, hkept⟩ | hall
  · rw [hrefs, hleft] at hnorefs
    cases hnorefs
  · exact Or.inl hzero
  · have hlookup := hstays localId handle hattached hkept
    rw [AList.lookup_of_entries_nil hempty] at hlookup
    cases hlookup
  · exact Or.inr hall

/-- **One poll.** If it may end the driver only in order, it ends it with nothing left to be sent. -/
theorem poll_flushed {h : UdxSocket} {cx : SocketContext} (hbatch : 0 < h.batchSize)
    (hends : h.EndsInOrder (.poll cx)) : h.FlushedAtEnd (.poll cx) := by
  intro hisRunning hend
  have hrunning : h.driver = .running := by
    unfold isRunning at hisRunning
    split at hisRunning
    · assumption
    · cases hisRunning
  rw [flushed_iff]
  -- receiving leaves alone all that matters but the registry
  have hdriver := (pollRecv_frame driver (fun _ _ _ _ _ _ _ => rfl) h cx).trans hrunning
  have hbacklog := pollRecv_frame backlog (fun _ _ _ _ _ _ _ => rfl) h cx
  have hrefs := pollRecv_frame (fun h => h.inner.hasRefs) (fun _ _ _ _ _ _ _ => rfl) h cx
  have htimer := pollRecv_frame (fun h => h.inner.sendOverflowTimer) (fun _ _ _ _ _ _ _ => rfl) h cx
  have hchannel := pollRecv_frame (fun h => h.inner.sendRx) (fun _ _ _ _ _ _ _ => rfl) h cx
  have hclock := pollRecv_frame clock (fun _ _ _ _ _ _ _ => rfl) h cx
  have hsize := pollRecv_frame batchSize (fun _ _ _ _ _ _ _ => rfl) h cx
  rcases poll_cases h cx with ⟨-, err, hpoll⟩ | ⟨-, deadline, shouldContinue, hdeadline, hpending, hpoll⟩ | ⟨-, hpoll⟩ |
    ⟨-, hdeadline, ⟨err, -, hpoll⟩ | ⟨more, shouldContinue, hmore, hpoll⟩⟩ <;> rw [hpoll] at hend ⊢
  · rw [finish_driver] at hend
    cases hend
  · obtain ⟨-, hnorefs, hempty⟩ := settle_finished hdriver hend
    rw [settle_frame backlog (fun _ _ _ _ _ _ => rfl)]
    rcases hends.of_end hrefs hnorefs hempty fun _ _ h _ => (pollRecv_attached h cx).1 with hzero | hall
    · exact hbacklog.trans hzero
    · rw [SendsAll, ← htimer, hdeadline, ← hclock] at hall
      exact absurd hpending (Nat.not_lt.mpr hall)
  · obtain ⟨hcontinue, -⟩ := settle_finished (by exact hdriver) hend
    cases hcontinue
  · rw [finish_driver] at hend
    cases hend
  · have hdriver' := pollTransmit_frame driver (fun _ _ _ h => h.driver) (fun _ _ _ _ _ _ => rfl) (h.pollRecv cx).1 cx
    have hrefs' := pollTransmit_frame (fun h => h.inner.hasRefs) (fun _ _ _ h => h.hasRefs) (fun _ _ _ _ _ _ => rfl)
      (h.pollRecv cx).1 cx
    obtain ⟨hcontinue, hnorefs, hempty⟩ := settle_finished (hdriver'.trans hdriver) hend
    obtain ⟨hle, hnone⟩ := pollTransmit_backlog (h := (h.pollRecv cx).1) (by rw [hsize]; exact hbatch)
      (hmore.trans (congrArg Except.ok (Bool.or_eq_false_iff.mp hcontinue).2))
    rw [settle_frame backlog (fun _ _ _ _ _ _ => rfl)]
    have hreason := hends.of_end (hrefs'.trans hrefs) hnorefs hempty fun _ _ h hkept =>
      pollTransmit_attached (pollRecv_attached h cx) (by rw [hchannel]; exact hkept) cx
    rcases hreason with hzero | hall
    · rw [hbacklog, hzero] at hle
      exact Nat.le_zero.mp hle
    · rw [SendsAll, ← htimer, hdeadline] at hall
      obtain ⟨hlen, n, houtcome, hmin⟩ := hall
      exact hnone n (by rw [hchannel]; exact hlen) houtcome (by rw [hbacklog, hsize]; exact hmin)

theorem poll_batchSize (h : UdxSocket) (cx : SocketContext) : (h.poll cx).batchSize = h.batchSize := by
  have hrecv := pollRecv_frame batchSize (fun _ _ _ _ _ _ _ => rfl) h cx
  have hsend := (pollTransmit_frame batchSize (fun _ _ _ h => h.batchSize) (fun _ _ _ _ _ _ => rfl) _ cx).trans hrecv
  have hfinish := finish_frame batchSize fun _ _ _ _ _ _ => rfl
  have hsettle := settle_frame batchSize fun _ _ _ _ _ _ => rfl
  rcases poll_cases h cx with ⟨-, err, hpoll⟩ | ⟨-, deadline, shouldContinue, -, -, hpoll⟩ | ⟨-, hpoll⟩ |
    ⟨-, -, ⟨err, -, hpoll⟩ | ⟨more, shouldContinue, -, hpoll⟩⟩ <;> rw [hpoll]
  · exact (hfinish _ _).trans hrecv
  · exact (hsettle _ _ _).trans hrecv
  · exact (hsettle _ _ _).trans hrecv
  · exact (hfinish _ _).trans hsend
  · exact (hsettle _ _ _).trans hsend

theorem step_batchSize (h : UdxSocket) (e : SocketEvent) : (h.step e).batchSize = h.batchSize := by
  by_cases he : ∃ cx, e = .poll cx
  · obtain ⟨cx, rfl⟩ := he
    rw [step]
    split
    · exact poll_batchSize h cx
    · rfl
  · exact step_frame batchSize (fun _ _ _ _ _ _ _ => rfl) h e fun cx h => he ⟨cx, h⟩

/-- **Nothing accepted is lost** in a run whose polls may end the driver only in order: whenever the driver ends well,
everything was sent. -/
theorem flushed_at_end (now batchSize : Nat) (hbatch : 0 < batchSize) (events : List SocketEvent)
    (hends : Runs.Along UdxSocket.step EndsInOrder (.bind now batchSize) events) :
    Runs.Along UdxSocket.step FlushedAtEnd (.bind now batchSize) events := by
  refine Runs.along_of_along (fun h => 0 < h.batchSize) (fun h e hpos => ?_) (fun h e hpos hguard => ?_) hbatch hends
  · rw [step_batchSize]
    exact hpos
  · cases e with
    | poll cx => exact poll_flushed hpos hguard
    | _ => trivial

/-- A datagram is sent and taken before the last handle goes. -/
def sentRun : List SocketEvent := [.send ⟨.v4 0, 2⟩ [1], .drop, .poll ⟨0, 10, 0, [], .sent 1, 0⟩]

theorem flushed_at_end_sentRun :
    Runs.Along UdxSocket.step EndsInOrder (.bind 0 32) sentRun ∧
    Runs.Along UdxSocket.step FlushedAtEnd (.bind 0 32) sentRun := by
  have hends : Runs.Along UdxSocket.step EndsInOrder (.bind 0 32) sentRun :=
    ⟨trivial, trivial, Or.inr (Or.inr (Or.inr ⟨by decide, 1, rfl, by decide⟩)), trivial⟩
  exact ⟨hends, flushed_at_end 0 32 (by decide) sentRun hends⟩

/-- The UDP socket would block when the driver is polled after the last handle has gone: the driver ends, and the
datagram is lost. -/
theorem blockedRun_loses_datagram :
    let h := Runs.run UdxSocket.step (.bind 0 32) [.send ⟨.v4 0, 2⟩ [1], .drop]
    let cx : SocketContext := ⟨0, 10, 0, [], .pending, 0⟩
    h.isRunning = true ∧ (h.poll cx).driver = .finished (.ok ()) ∧
    (h.poll cx).inner.outgoingTransmits = [⟨⟨.v4 0, 2⟩, [1], none⟩] ∧ ¬h.FlushedAtEnd (.poll cx) := by
  intro h cx
  refine ⟨rfl, rfl, rfl, fun hflushed => ?_⟩
  exact absurd (hflushed rfl rfl).1 (List.cons_ne_nil _ _)

end UdxSocket

end AsyncUdx
