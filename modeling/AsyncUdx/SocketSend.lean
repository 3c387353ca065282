import AsyncUdx.Socket
import Mathlib.Data.List.ReduceOption

/-! What a poll of the socket driver does to what is waiting to be sent: receiving leaves it alone, taking events
from the channel moves it to the queue of transmits, and a send takes it from there. -/

namespace AsyncUdx

/-- What a transmit is built from: a packet set with the number of its stream, or a datagram of the user. -/
abbrev Source := Option (Option Nat × PacketSet)

/-- What the transmit that an event asks for is built from. -/
def Sent.source (sent : Sent) : Option Source :=
  match sent.event with
  | .streamDropped _ => none
  | .transmitDgram _ => some none
  | .transmit set => some (some (sent.origin, set))

def sources (events : List Sent) : List Source := events.filterMap Sent.source

/-- A transmit was built from its source, whatever packets were skipped. -/
def BuiltFrom (transmit : Transmit) : Source → Prop
  | none => ∃ dgram : Dgram, transmit = dgram.intoTransmit
  | some entry => ∃ skip, transmit = entry.2.toTransmit skip

namespace UdxSocket

theorem map_modify {α β : Type} (f : α → α) (g : α → β) (f' : β → β) (hf : ∀ a, g (f a) = f' (g a)) (l : List α)
    (n : Nat) : (l.modify n f).map g = (l.map g).modify n f' := by
  apply List.ext_getElem?
  intro m
  rw [List.getElem?_map, List.getElem?_modify, List.getElem?_modify, List.getElem?_map]
  cases l[m]? with
  | none => rfl
  | some a =>
      change some (g (if n = m then f a else a)) = some (if n = m then f' (g a) else g a)
      split
      · rw [hf]
      · rfl

/-! ### Receiving -/

theorem remove_eq (h : UdxSocket) (localId : UInt32) :
    h.remove localId = { h with
      tasks := (h.remove localId).tasks
      inner := { h.inner with streams := h.inner.streams.erase localId } } := by
  unfold remove dropHandle
  split <;> rfl

section Receive

variable {Inv : UdxSocket → Prop}
  (hrx : ∀ (h : UdxSocket) stats recvDgrams recvWaker woken, Inv h → Inv { h with
    inner := { h.inner with stats := stats, recvDgrams := recvDgrams, recvWaker := recvWaker, woken := woken } })
  (hrecv : ∀ (h : UdxSocket) n header buf source, Inv h →
    Inv (h.modify n fun u => u.step (.recv header buf source)))
  (hremove : ∀ (h : UdxSocket) localId handle, h.inner.streams.lookup localId = some handle →
    h.receives handle = false → Inv h → Inv (h.remove localId))

include hrx hrecv hremove

theorem receive_invariant {h : UdxSocket} (arrival : Arrival) (hs : Inv h) : Inv (h.receive arrival) := by
  have hcount : ∀ data, Inv (h.countRx data) := fun data =>
    hrx h _ h.inner.recvDgrams h.inner.recvWaker h.inner.woken hs
  have hdispatch : ∀ (h : UdxSocket) header data source, Inv h → Inv (h.dispatch header data source).1 := by
    intro h header data source hs
    unfold dispatch
    split
    · rename_i handle hlookup
      cases hreceives : h.receives handle with
      | true => exact hrecv h _ _ _ _ hs
      | false => exact hremove h _ handle hlookup hreceives hs
    · exact hs
  have hprocess : Inv (h.processPacket arrival.data arrival.source).1 := by
    unfold processPacket
    split
    · exact hcount _
    · exact hdispatch _ _ _ _ (hcount _)
  have hdgram : ∀ (h : UdxSocket) data source, Inv h → Inv (h.onRecvDgram data source) := by
    intro h data source hs
    unfold onRecvDgram
    split
    · exact hrx h h.inner.stats _ _ _ hs
    · exact hs
  unfold receive
  split <;> rename_i heq <;> rw [heq] at hprocess
  · exact hprocess
  · exact hdgram _ _ _ hprocess

variable (Inv) in
/-- **Invariants of receiving.** What counting a datagram, handing it to a stream and removing a stream that is gone
keep, receiving keeps. -/
theorem pollRecv_invariant {h : UdxSocket} (cx : SocketContext) (hs : Inv h) : Inv (h.pollRecv cx).1 := by
  have hloop : ∀ (iters : Nat) (received : List (Except IoError (List Arrival))) (h : UdxSocket), Inv h →
      Inv (recvLoop iters received h).1 := by
    intro iters
    induction iters with
    | zero => exact fun _ _ hs => hs
    | succ iters ih =>
        intro received h hs
        match received with
        | [] => exact hs
        | .error err :: rest => exact hs
        | .ok arrivals :: rest =>
            exact ih rest _ (List.foldlRecOn arrivals receive hs
              fun h hs arrival _ => receive_invariant hrx hrecv hremove arrival hs)
  exact hloop _ _ h hs

end Receive

/-- What depends on neither the streams nor what was received is left alone by receiving. -/
theorem pollRecv_frame {β : Type} (f : UdxSocket → β)
    (hsame : ∀ (h : UdxSocket) tasks streams stats recvDgrams recvWaker woken, f { h with
      tasks := tasks
      inner := { h.inner with
        streams := streams, stats := stats, recvDgrams := recvDgrams, recvWaker := recvWaker, woken := woken } } = f h)
    (h : UdxSocket) (cx : SocketContext) : f (h.pollRecv cx).1 = f h := by
  refine pollRecv_invariant (fun t => f t = f h) (fun t stats dgrams waker woken ht => ?_)
    (fun t n header buf source ht => ?_) (fun t localId handle _ _ ht => ?_) cx rfl
  · exact (hsame t t.tasks t.inner.streams stats dgrams waker woken).trans ht
  · exact (hsame t _ t.inner.streams t.inner.stats t.inner.recvDgrams t.inner.recvWaker t.inner.woken).trans ht
  · rw [remove_eq]
    exact (hsame t _ _ t.inner.stats t.inner.recvDgrams t.inner.recvWaker t.inner.woken).trans ht

/-! ### Taking events from the channel -/

/-- Some events have left the channel, and their transmits have joined the queue. -/
structure Takes (h : UdxSocket) (events : List Sent) (t : UdxSocket) : Prop where
  sendRx : h.inner.sendRx = events ++ t.inner.sendRx
  transmits : ∃ new, t.inner.outgoingTransmits = h.inner.outgoingTransmits ++ new ∧
    List.Forall₂ BuiltFrom new (sources events)
  packetSets : t.inner.outgoingPacketSets = h.inner.outgoingPacketSets ++ (sources events).reduceOption
  hasRefs : t.inner.hasRefs = h.inner.hasRefs
  driver : t.driver = h.driver
  batchSize : t.batchSize = h.batchSize

theorem Takes.length {h t : UdxSocket} {events : List Sent} (htake : Takes h events t) :
    t.inner.outgoingTransmits.length = h.inner.outgoingTransmits.length + (sources events).length := by
  obtain ⟨new, hnew, hbuilt⟩ := htake.transmits
  rw [hnew, List.length_append, hbuilt.length_eq]

theorem Takes.refl (h : UdxSocket) : Takes h [] h :=
  ⟨rfl, ⟨[], (List.append_nil _).symm, .nil⟩, (List.append_nil _).symm, rfl, rfl, rfl⟩

theorem Takes.trans {h t t' : UdxSocket} {events events' : List Sent} (htake : Takes h events t)
    (hnext : Takes t events' t') : Takes h (events ++ events') t' where
  sendRx := by rw [htake.sendRx, hnext.sendRx, List.append_assoc]
  transmits := by
    obtain ⟨new, hnew, hbuilt⟩ := htake.transmits
    obtain ⟨new', hnew', hbuilt'⟩ := hnext.transmits
    refine ⟨new ++ new', by rw [hnew', hnew, List.append_assoc], ?_⟩
    rw [sources, List.filterMap_append]
    exact List.rel_append hbuilt hbuilt'
  packetSets := by
    rw [hnext.packetSets, htake.packetSets, sources, sources, sources, List.filterMap_append,
      List.reduceOption_append, List.append_assoc]
  hasRefs := hnext.hasRefs.trans htake.hasRefs
  driver := hnext.driver.trans htake.driver
  batchSize := hnext.batchSize.trans htake.batchSize

theorem handleEvent_takes {h : UdxSocket} {sent : Sent} {rest : List Sent} (hcons : h.inner.sendRx = sent :: rest) :
    Takes h [sent] (({ h with inner := { h.inner with sendRx := rest } }).handleEvent sent) := by
  obtain ⟨origin, event⟩ := sent
  cases event with
  | streamDropped localId =>
      change Takes h _ (({ h with inner := { h.inner with sendRx := rest } }).remove localId)
      rw [remove_eq]
      exact ⟨hcons, ⟨[], (List.append_nil _).symm, .nil⟩, (List.append_nil _).symm, rfl, rfl, rfl⟩
  | transmitDgram dgram =>
      exact ⟨hcons, ⟨_, rfl, .cons ⟨dgram, rfl⟩ .nil⟩, (List.append_nil _).symm, rfl, rfl, rfl⟩
  | transmit set => exact ⟨hcons, ⟨_, rfl, .cons ⟨_, rfl⟩ .nil⟩, rfl, rfl, rfl, rfl⟩

theorem takeEvents_takes (budget : Nat) (h : UdxSocket) : ∃ events, Takes h events (h.takeEvents budget).1 := by
  induction budget generalizing h with
  | zero =>
      unfold takeEvents
      split <;> exact ⟨[], .refl h⟩
  | succ budget ih =>
      unfold takeEvents
      split
      · cases hqueue : h.inner.sendRx with
        | nil => exact ⟨[], .refl h⟩
        | cons sent rest =>
            obtain ⟨events, hnext⟩ := ih (({ h with inner := { h.inner with sendRx := rest } }).handleEvent sent)
            exact ⟨_, (handleEvent_takes hqueue).trans hnext⟩
      · exact ⟨[], .refl h⟩

/-- **Invariants of taking events.** What handling an event from the channel keeps, the loop keeps. -/
theorem takeEvents_invariant (Inv : UdxSocket → Prop)
    (hevent : ∀ h sent rest, h.inner.sendRx = sent :: rest → Inv h →
      Inv (({ h with inner := { h.inner with sendRx := rest } } : UdxSocket).handleEvent sent))
    (budget : Nat) {h : UdxSocket} (hs : Inv h) : Inv (h.takeEvents budget).1 := by
  induction budget generalizing h with
  | zero =>
      unfold takeEvents
      split <;> exact hs
  | succ budget ih =>
      unfold takeEvents
      split
      · cases hqueue : h.inner.sendRx with
        | nil => exact hs
        | cons sent rest => exact ih (hevent h sent rest hqueue hs)
      · exact hs

/-- The loop stops when the channel is empty or its budget is used up, or when there is no room for another
transmit. -/
theorem takeEvents_stops (budget : Nat) (h : UdxSocket) :
    ((h.takeEvents budget).2 = true →
      (h.takeEvents budget).1.inner.outgoingTransmits.length < h.batchSize ∧
        (h.inner.sendRx.length ≤ budget → (h.takeEvents budget).1.inner.sendRx = [])) ∧
    ((h.takeEvents budget).2 = false →
      h.batchSize ≤ (h.takeEvents budget).1.inner.outgoingTransmits.length) := by
  induction budget generalizing h with
  | zero =>
      unfold takeEvents
      split
      · rename_i hroom
        exact ⟨fun _ => ⟨hroom, fun hlen => List.eq_nil_of_length_eq_zero (Nat.le_zero.mp hlen)⟩,
          fun h => absurd h.symm Bool.false_ne_true⟩
      · exact ⟨fun h => absurd h Bool.false_ne_true, fun _ => Nat.le_of_not_lt ‹_›⟩
  | succ budget ih =>
      unfold takeEvents
      split
      · rename_i hroom
        cases hqueue : h.inner.sendRx with
        | nil => exact ⟨fun _ => ⟨hroom, fun _ => hqueue⟩, fun h => absurd h.symm Bool.false_ne_true⟩
        | cons sent rest =>
            have htake := handleEvent_takes hqueue
            obtain ⟨hpending, hfull⟩ := ih (({ h with inner := { h.inner with sendRx := rest } }).handleEvent sent)
            have hrest : (({ h with inner := { h.inner with sendRx := rest } }).handleEvent sent).inner.sendRx =
                rest := (List.cons.inj (hqueue.symm.trans htake.sendRx)).2.symm
            rw [htake.batchSize] at hpending hfull
            rw [hrest] at hpending
            refine ⟨fun h => ⟨(hpending h).1, fun hlen => (hpending h).2 (Nat.le_of_succ_le_succ hlen)⟩, hfull⟩
      · exact ⟨fun h => absurd h Bool.false_ne_true, fun _ => Nat.le_of_not_lt ‹_›⟩

/-! ### Handing transmits to the UDP socket -/

/-- Stamping packets changes nothing but their streams. -/
theorem stamps_eq (sentAt : Nat) (sets : List (Option Nat × PacketSet)) (h : UdxSocket) :
    sets.foldl (fun h entry => h.stamp sentAt entry.1 entry.2) h =
      { h with tasks := (sets.foldl (fun h entry => h.stamp sentAt entry.1 entry.2) h).tasks } := by
  have hstamp : ∀ (origin : Option Nat) (set : PacketSet) (h : UdxSocket),
      h.stamp sentAt origin set = { h with tasks := (h.stamp sentAt origin set).tasks } := by
    intro origin set h
    unfold stamp
    split
    · rfl
    · rename_i n
      exact List.foldlRecOn (motive := fun t : UdxSocket => t = { h with tasks := t.tasks }) _ _ rfl
        fun t ht packet _ =>
          congrArg (fun t : UdxSocket => t.modify n fun u => u.call (.markSent packet.seq sentAt)) ht
  exact List.foldlRecOn (motive := fun t : UdxSocket => t = { h with tasks := t.tasks }) _ _ rfl
    fun t ht entry _ => (hstamp entry.1 entry.2 t).trans
      (congrArg (fun t' : UdxSocket => { t' with tasks := (t.stamp sentAt entry.1 entry.2).tasks }) ht)

theorem drain_eq (h : UdxSocket) (n sentAt : Nat) :
    h.drain n sentAt = { h with
      tasks := (h.drain n sentAt).tasks
      inner := { h.inner with
        outgoingTransmits := h.inner.outgoingTransmits.drop n
        stats := (h.inner.outgoingTransmits.take n).foldl SocketStats.trackTx h.inner.stats
        outgoingPacketSets := h.inner.outgoingPacketSets.drop n } } := by
  unfold drain
  dsimp only
  rw [stamps_eq, ← List.drop_eq_drop_min]

/-- What neither taking events nor handing over transmits concerns is left alone. -/
theorem pollTransmit_frame {β : Type} (f : UdxSocket → β)
    (htake : ∀ h events t, Takes h events t → f t = f h)
    (hsame : ∀ (h : UdxSocket) tasks transmits sets stats timer, f { h with
      tasks := tasks
      inner := { h.inner with
        outgoingTransmits := transmits, outgoingPacketSets := sets, stats := stats, sendOverflowTimer := timer } } =
      f h) (h : UdxSocket) (cx : SocketContext) : f (h.pollTransmit cx).1 = f h := by
  obtain ⟨events, htaken⟩ := takeEvents_takes cx.budget h
  unfold pollTransmit
  generalize h.takeEvents cx.budget = taken at *
  obtain ⟨t, stopped⟩ := taken
  have ht : f t = f h := htake h events t htaken
  dsimp only
  split
  · exact ht
  · split
    · exact ht
    · exact (hsame t t.tasks t.inner.outgoingTransmits t.inner.outgoingPacketSets t.inner.stats _).trans ht
    · exact ht
    · rw [drain_eq]
      exact (hsame t _ _ _ _ t.inner.sendOverflowTimer).trans ht

section Transmit

variable {Inv : UdxSocket → Prop}
  (hevent : ∀ h sent rest, h.inner.sendRx = sent :: rest → Inv h →
    Inv (({ h with inner := { h.inner with sendRx := rest } } : UdxSocket).handleEvent sent))
  (htx : ∀ (h : UdxSocket) transmits sets stats timer, Inv h → Inv { h with
    inner := { h.inner with
      outgoingTransmits := transmits, outgoingPacketSets := sets, stats := stats, sendOverflowTimer := timer } })
  (hsent : ∀ (h : UdxSocket) n seq sentAt, Inv h → Inv (h.modify n fun u => u.call (.markSent seq sentAt)))

include hsent in
theorem stamps_invariant (sentAt : Nat) (sets : List (Option Nat × PacketSet)) {h : UdxSocket} (hs : Inv h) :
    Inv (sets.foldl (fun h entry => h.stamp sentAt entry.1 entry.2) h) := by
  refine List.foldlRecOn sets _ hs fun h hs entry _ => ?_
  unfold stamp
  split
  · exact hs
  · exact List.foldlRecOn (motive := Inv) _ _ hs fun h hs packet _ => hsent h _ _ _ hs

include htx hsent in
theorem drain_invariant (n sentAt : Nat) {h : UdxSocket} (hs : Inv h) : Inv (h.drain n sentAt) := by
  let drained : UdxSocket := { h with inner := { h.inner with
    outgoingTransmits := h.inner.outgoingTransmits.drop n
    stats := (h.inner.outgoingTransmits.take n).foldl SocketStats.trackTx h.inner.stats } }
  have hdrained : Inv drained := htx h _ h.inner.outgoingPacketSets _ h.inner.sendOverflowTimer hs
  have hstamped := stamps_invariant hsent sentAt
    (h.inner.outgoingPacketSets.take (min n h.inner.outgoingPacketSets.length)) hdrained
  unfold drain
  dsimp only
  rw [stamps_eq] at hstamped ⊢
  exact htx _ drained.inner.outgoingTransmits _ drained.inner.stats drained.inner.sendOverflowTimer hstamped

variable (Inv) in
include hevent htx hsent in
/-- **Invariants of sending.** What handling an event, moving the queues and stamping a packet keep, sending keeps. -/
theorem pollTransmit_invariant {h : UdxSocket} (cx : SocketContext) (hs : Inv h) : Inv (h.pollTransmit cx).1 := by
  have htaken := takeEvents_invariant Inv hevent cx.budget hs
  unfold pollTransmit
  generalize h.takeEvents cx.budget = taken at *
  obtain ⟨t, stopped⟩ := taken
  dsimp only at htaken ⊢
  split
  · exact htaken
  · split
    · exact htaken
    · exact htx t t.inner.outgoingTransmits t.inner.outgoingPacketSets t.inner.stats _ htaken
    · exact htaken
    · exact drain_invariant htx hsent _ _ htaken

end Transmit

/-! ### The end of a poll -/

theorem finish_driver (h : UdxSocket) (result : Except IoError Unit) :
    (h.finish result).driver = .finished result := by
  unfold finish release
  split <;> rfl

/-- A poll ends the driver only when there is nothing to do, no handle is left and no stream is registered. -/
theorem settle_finished {h : UdxSocket} {cx : SocketContext} {shouldContinue : Bool} {result : Except IoError Unit}
    (hrunning : h.driver = .running) (hend : (h.settle cx shouldContinue).driver = .finished result) :
    shouldContinue = false ∧ h.inner.hasRefs = false ∧ h.inner.streams.entries = [] := by
  unfold settle at hend
  split_ifs at hend with hdone
  · simpa [and_assoc] using hdone
  · exact absurd (hrunning.symm.trans hend) (by simp)
  · exact absurd (hrunning.symm.trans hend) (by simp)

/-- The state in which a poll of the driver gets to `poll_transmit`, if it does: receiving has not failed, and no
timer holds back sending. -/
def transmitting (h : UdxSocket) (cx : SocketContext) : Option UdxSocket :=
  match h.pollRecv cx with
  | (_, .error _) => none
  | (t, .ok _) => if t.inner.sendOverflowTimer.isSome then none else some t

/-- **The ways a poll goes**, after receiving: it fails, it waits for the timer that holds back sending, it clears the
timer, or it sends. -/
theorem poll_cases (h : UdxSocket) (cx : SocketContext) :
    let t := (h.pollRecv cx).1
    (h.transmitting cx = none ∧ ∃ err, h.poll cx = t.finish (.error err)) ∨
    (h.transmitting cx = none ∧ ∃ deadline shouldContinue, t.inner.sendOverflowTimer = some deadline ∧
      t.clock < deadline + cx.timerLag ∧ h.poll cx = t.settle cx shouldContinue) ∨
    (h.transmitting cx = none ∧ h.poll cx =
      ({ t with inner := { t.inner with sendOverflowTimer := none } } : UdxSocket).settle cx true) ∨
    (h.transmitting cx = some t ∧ t.inner.sendOverflowTimer = none ∧
      ((∃ err, (t.pollTransmit cx).2 = .error err ∧ h.poll cx = (t.pollTransmit cx).1.finish (.error err)) ∨
      ∃ more shouldContinue, (t.pollTransmit cx).2 = .ok more ∧
        h.poll cx = (t.pollTransmit cx).1.settle cx (shouldContinue || more))) := by
  unfold poll transmitting
  generalize h.pollRecv cx = received
  obtain ⟨t, result⟩ := received
  dsimp only
  cases result with
  | error err => exact Or.inl ⟨rfl, err, rfl⟩
  | ok shouldContinue =>
      right
      dsimp only
      cases htimer : t.inner.sendOverflowTimer with
      | some deadline =>
          by_cases hpending : t.clock < deadline + cx.timerLag
          · exact Or.inl ⟨rfl, deadline, shouldContinue, rfl, hpending, if_pos hpending⟩
          · exact Or.inr (Or.inl ⟨rfl, if_neg hpending⟩)
      | none =>
          refine Or.inr (Or.inr ⟨rfl, rfl, ?_⟩)
          dsimp only
          split <;> rename_i hsent <;> rw [hsent]
          · exact Or.inl ⟨_, rfl, rfl⟩
          · exact Or.inr ⟨_, shouldContinue, rfl, rfl⟩

section Ends

variable {Inv : UdxSocket → Prop}
  (hend : ∀ (h : UdxSocket) driver hasRefs driveWaker woken, Inv h → Inv { h with
    driver := driver
    inner := { h.inner with hasRefs := hasRefs, driveWaker := driveWaker, woken := woken } })
  (hgone : ∀ h : UdxSocket, Inv h → Inv { h with tasks := h.tasks.map fun u => u.call (.socketGone true true) })

include hend hgone

theorem finish_invariant {h : UdxSocket} (result : Except IoError Unit) (hs : Inv h) : Inv (h.finish result) := by
  have hdropped : Inv { h.onDrop with driver := .finished result } := by
    unfold onDrop
    split
    · exact hend h _ _ _ _ hs
    · exact hend h _ h.inner.hasRefs h.inner.driveWaker h.inner.woken hs
  unfold finish release
  split
  · exact hgone _ hdropped
  · exact hdropped

theorem settle_invariant {h : UdxSocket} (cx : SocketContext) (shouldContinue : Bool) (hs : Inv h) :
    Inv (h.settle cx shouldContinue) := by
  unfold settle
  split_ifs
  · exact finish_invariant hend hgone _ hs
  · exact hend h h.driver h.inner.hasRefs h.inner.driveWaker _ hs
  · exact hend h h.driver h.inner.hasRefs _ h.inner.woken hs

variable (Inv) in
/-- **Invariants of a poll after receiving.** What sending and the end of a poll keep holds after a poll if it holds
after receiving. -/
theorem poll_invariant_of_pollRecv (htimer : ∀ (h : UdxSocket) timer, Inv h → Inv { h with
      inner := { h.inner with sendOverflowTimer := timer } })
    (htransmit : ∀ (h : UdxSocket) cx, Inv h → Inv (h.pollTransmit cx).1) {h : UdxSocket} (cx : SocketContext)
    (hs : Inv (h.pollRecv cx).1) : Inv (h.poll cx) := by
  rcases h.poll_cases cx with ⟨-, err, hpoll⟩ | ⟨-, deadline, shouldContinue, -, -, hpoll⟩ | ⟨-, hpoll⟩ |
    ⟨-, -, ⟨err, -, hpoll⟩ | ⟨more, shouldContinue, -, hpoll⟩⟩ <;> rw [hpoll]
  · exact finish_invariant hend hgone _ hs
  · exact settle_invariant hend hgone cx _ hs
  · exact settle_invariant hend hgone cx _ (htimer _ _ hs)
  · exact finish_invariant hend hgone _ (htransmit _ cx hs)
  · exact settle_invariant hend hgone cx _ (htransmit _ cx hs)

end Ends

section End

variable {β : Type} (f : UdxSocket → β)
  (hsame : ∀ (h : UdxSocket) tasks driver hasRefs driveWaker woken, f { h with
    tasks := tasks
    driver := driver
    inner := { h.inner with hasRefs := hasRefs, driveWaker := driveWaker, woken := woken } } = f h)

include hsame

theorem finish_frame (h : UdxSocket) (result : Except IoError Unit) : f (h.finish result) = f h :=
  finish_invariant (fun t _ _ _ _ ht => (hsame t t.tasks _ _ _ _).trans ht)
    (fun t ht => (hsame t _ t.driver t.inner.hasRefs t.inner.driveWaker t.inner.woken).trans ht) result rfl

theorem settle_frame (h : UdxSocket) (cx : SocketContext) (shouldContinue : Bool) :
    f (h.settle cx shouldContinue) = f h :=
  settle_invariant (fun t _ _ _ _ ht => (hsame t t.tasks _ _ _ _).trans ht)
    (fun t ht => (hsame t _ t.driver t.inner.hasRefs t.inner.driveWaker t.inner.woken).trans ht) cx shouldContinue rfl

end End

/-- An event that is not a poll leaves alone what depends only on the two queues and on what no event changes. -/
theorem step_frame {β : Type} (f : UdxSocket → β)
    (hsame : ∀ (h : UdxSocket) inner tasks handles clock,
      inner.outgoingTransmits = h.inner.outgoingTransmits → inner.outgoingPacketSets = h.inner.outgoingPacketSets →
      f { h with inner := inner, tasks := tasks, handles := handles, clock := clock } = f h)
    (h : UdxSocket) (e : SocketEvent) (he : ∀ cx, e ≠ .poll cx) : f (h.step e) = f h := by
  cases e with
  | poll cx => exact absurd rfl (he cx)
  | tick elapsed => exact hsame h h.inner _ h.handles _ rfl rfl
  | stream n c =>
      rw [step, callStream]
      split
      · split
        · rfl
        · exact hsame h _ _ h.handles h.clock rfl rfl
      · rfl
  | connect dest localId remoteId =>
      rw [step]
      split
      · rfl
      · unfold connect dropHandle
        dsimp only
        split <;> exact hsame h _ _ h.handles h.clock rfl rfl
  | send dest buf =>
      rw [step]
      split
      · rfl
      · exact hsame h _ h.tasks h.handles h.clock rfl rfl
  | recv waker =>
      rw [step, recv]
      split
      · rfl
      · split <;> exact hsame h _ h.tasks h.handles h.clock rfl rfl
  | clone =>
      rw [step]
      split
      · rfl
      · exact hsame h h.inner h.tasks _ h.clock rfl rfl
  | drop =>
      rw [step]
      split
      · rfl
      · unfold release onDrop
        split_ifs <;> exact hsame h _ _ _ h.clock rfl rfl

end UdxSocket

end AsyncUdx
