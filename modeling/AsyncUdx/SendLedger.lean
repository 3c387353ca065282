import AsyncUdx.BaseQueue
import AsyncUdx.BaseRun
import AsyncUdx.SocketSend

/-! Which packets are stamped as sent. The transmits and the packet sets they are built from wait in two queues, and
what the UDP socket takes from the first is taken from the second by number; but only the first also holds the
datagrams of the user. The ledger records, beside a socket, what each waiting transmit was built from, which sets
were accepted with their transmit, and which were stamped. -/

namespace AsyncUdx

open Queue

/-- How many transmits the UDP socket takes. -/
def SendOutcome.count : SendOutcome → Nat
  | .sent n => n
  | _ => 0

namespace UdxSocket

/-- The events a poll takes from the channel. -/
def taken (h : UdxSocket) (budget : Nat) : List Sent :=
  h.inner.sendRx.take (h.inner.sendRx.length - (h.takeEvents budget).1.inner.sendRx.length)

theorem taken_takes (h : UdxSocket) (budget : Nat) : Takes h (h.taken budget) (h.takeEvents budget).1 := by
  obtain ⟨events, htake⟩ := takeEvents_takes budget h
  have hevents : h.taken budget = events := by
    rw [taken, htake.sendRx, List.length_append, Nat.add_sub_cancel, List.take_left]
  rw [hevents]
  exact htake

/-- The packet sets whose packets `poll_transmit` stamps as sent. -/
def stampedBy (h : UdxSocket) (cx : SocketContext) : List (Option Nat × PacketSet) :=
  let t := (h.takeEvents cx.budget).1
  if t.inner.outgoingTransmits.isEmpty then [] else t.inner.outgoingPacketSets.take cx.sendOutcome.count

/-- The queue of transmits and the queue of packet sets. -/
def queues (h : UdxSocket) : List Transmit × List (Option Nat × PacketSet) :=
  (h.inner.outgoingTransmits, h.inner.outgoingPacketSets)

theorem queues_inj {h t : UdxSocket} (hsame : h.queues = t.queues) :
    h.inner.outgoingTransmits = t.inner.outgoingTransmits ∧
      h.inner.outgoingPacketSets = t.inner.outgoingPacketSets := Prod.ext_iff.mp hsame

/-- What `poll_transmit` does to the two queues. -/
theorem pollTransmit_queues (h : UdxSocket) (cx : SocketContext) :
    let t := (h.takeEvents cx.budget).1
    (h.pollTransmit cx).1.inner.outgoingTransmits = t.inner.outgoingTransmits.drop cx.sendOutcome.count ∧
    (h.pollTransmit cx).1.inner.outgoingPacketSets =
      if t.inner.outgoingTransmits.isEmpty then t.inner.outgoingPacketSets
      else t.inner.outgoingPacketSets.drop cx.sendOutcome.count := by
  unfold pollTransmit
  generalize h.takeEvents cx.budget = taken
  obtain ⟨t, stopped⟩ := taken
  dsimp only
  split
  · rename_i hempty
    rw [List.isEmpty_iff.mp hempty, List.drop_nil]
    exact ⟨rfl, rfl⟩
  · cases cx.sendOutcome with
    | pending => exact ⟨rfl, rfl⟩
    | interrupted => exact ⟨rfl, rfl⟩
    | failed err => exact ⟨rfl, rfl⟩
    | sent n =>
        dsimp only
        rw [drain_eq]
        exact ⟨rfl, rfl⟩

/-- Stamping packets does not depend on the socket they were sent on. -/
theorem stamps_inner (sentAt : Nat) (sets : List (Option Nat × PacketSet)) (h : UdxSocket) (inner : UdxSocketInner) :
    sets.foldl (fun h entry => h.stamp sentAt entry.1 entry.2) { h with inner := inner } =
      { sets.foldl (fun h entry => h.stamp sentAt entry.1 entry.2) h with inner := inner } := by
  refine List.foldl_hom (fun h : UdxSocket => { h with inner := inner }) fun h entry => ?_
  unfold stamp
  split
  · rfl
  · refine List.foldl_hom (fun h : UdxSocket => { h with inner := inner }) fun h packet => ?_
    rfl

/-- The packets that get the time at which they were sent are those of the stamped sets. -/
theorem pollTransmit_tasks (h : UdxSocket) (cx : SocketContext) :
    (h.pollTransmit cx).1.tasks =
      ((h.stampedBy cx).foldl (fun h entry => h.stamp cx.sentAt entry.1 entry.2) (h.takeEvents cx.budget).1).tasks := by
  unfold pollTransmit stampedBy
  generalize h.takeEvents cx.budget = taken
  obtain ⟨t, stopped⟩ := taken
  dsimp only
  split
  · rfl
  · cases cx.sendOutcome with
    | pending => rfl
    | interrupted => rfl
    | failed err => rfl
    | sent n =>
        change (List.foldl _ { t with inner := _ } (t.inner.outgoingPacketSets.take _)).tasks = _
        rw [stamps_inner, ← List.take_eq_take_min]
        rfl

end UdxSocket

/-- A socket with the history of its transmits. -/
structure Ledger where
  socket : UdxSocket
  /-- What each transmit in the queue was built from. -/
  waiting : List Source
  /-- The sets whose transmits the UDP socket has taken. -/
  accepted : List (Option Nat × PacketSet)
  /-- The sets whose packets were stamped as sent. -/
  stamped : List (Option Nat × PacketSet)

namespace Ledger

def bind (now batchSize : Nat) : Ledger := ⟨.bind now batchSize, [], [], []⟩

def poll (l : Ledger) (cx : SocketContext) : Ledger :=
  match l.socket.transmitting cx with
  | none => { l with socket := l.socket.poll cx }
  | some h =>
      let waiting := l.waiting ++ sources (h.taken cx.budget)
      { socket := l.socket.poll cx
        waiting := waiting.drop cx.sendOutcome.count
        accepted := l.accepted ++ (waiting.take cx.sendOutcome.count).reduceOption
        stamped := l.stamped ++ h.stampedBy cx }

def step (l : Ledger) : SocketEvent → Ledger
  | .poll cx => if l.socket.isRunning then l.poll cx else l
  | e => { l with socket := l.socket.step e }

/-- The ledger watches the socket and does not interfere. -/
theorem step_socket (l : Ledger) (e : SocketEvent) : (l.step e).socket = l.socket.step e := by
  cases e with
  | poll cx =>
      rw [step, UdxSocket.step]
      split
      · unfold poll
        split <;> rfl
      · rfl
  | _ => rfl

/-- The sets in the queue are those of the transmits that are waiting, and the stamped sets are the accepted ones. -/
def Aligned (l : Ledger) : Prop :=
  l.socket.inner.outgoingPacketSets = l.waiting.reduceOption ∧ l.stamped = l.accepted

/-- What the UDP socket takes holds no datagram of the user, or every set that is left. -/
def TakesInStep (l : Ledger) : SocketEvent → Prop
  | .poll cx => l.socket.isRunning = true → ∀ h ∈ l.socket.transmitting cx,
      InStep (l.waiting ++ sources (h.taken cx.budget)) cx.sendOutcome.count
  | _ => True

/-- Every transmit in the queue was built from what the ledger says. -/
def Built (l : Ledger) : Prop := List.Forall₂ BuiltFrom l.socket.inner.outgoingTransmits l.waiting

theorem step_queues (l : Ledger) (e : SocketEvent) (he : ∀ cx, e ≠ .poll cx) :
    l.step e = { l with socket := l.socket.step e } ∧ (l.socket.step e).queues = l.socket.queues := by
  refine ⟨?_, UdxSocket.step_frame UdxSocket.queues (fun _ _ _ _ _ h h' => Prod.ext h h') _ _ he⟩
  cases e with
  | poll cx => exact absurd rfl (he cx)
  | _ => rfl

/-- A poll that does not get to `poll_transmit` leaves the queues alone; one that does leaves them as
`poll_transmit` does. -/
theorem poll_queues (h : UdxSocket) (cx : SocketContext) :
    (h.transmitting cx = none ∧ (h.poll cx).queues = h.queues) ∨
    ∃ t, h.transmitting cx = some t ∧ t.queues = h.queues ∧ (h.poll cx).queues = (t.pollTransmit cx).1.queues := by
  have hrecv := UdxSocket.pollRecv_frame UdxSocket.queues (fun _ _ _ _ _ _ _ => rfl) h cx
  have hfinish := UdxSocket.finish_frame UdxSocket.queues fun _ _ _ _ _ _ => rfl
  have hsettle := UdxSocket.settle_frame UdxSocket.queues fun _ _ _ _ _ _ => rfl
  rcases UdxSocket.poll_cases h cx with ⟨hnone, err, hpoll⟩ | ⟨hnone, deadline, shouldContinue, -, -, hpoll⟩ |
    ⟨hnone, hpoll⟩ | ⟨hsome, -, ⟨err, -, hpoll⟩ | ⟨more, shouldContinue, -, hpoll⟩⟩ <;> rw [hpoll]
  · exact Or.inl ⟨hnone, (hfinish _ _).trans hrecv⟩
  · exact Or.inl ⟨hnone, (hsettle _ _ _).trans hrecv⟩
  · exact Or.inl ⟨hnone, (hsettle _ _ _).trans hrecv⟩
  · exact Or.inr ⟨_, hsome, hrecv, hfinish _ _⟩
  · exact Or.inr ⟨_, hsome, hrecv, hsettle _ _ _⟩

theorem poll_built {l : Ledger} (hl : l.Built) (cx : SocketContext) : (l.poll cx).Built := by
  unfold Built poll
  rcases poll_queues l.socket cx with ⟨hnone, hsame⟩ | ⟨t, hsome, hbefore, hafter⟩
  · rw [hnone]
    dsimp only
    rw [(UdxSocket.queues_inj hsame).1]
    exact hl
  · rw [hsome]
    dsimp only
    obtain ⟨new, hnew, hbuilt⟩ := (t.taken_takes cx.budget).transmits
    rw [(UdxSocket.queues_inj hafter).1, (t.pollTransmit_queues cx).1, hnew, (UdxSocket.queues_inj hbefore).1]
    exact List.forall₂_drop _ (List.rel_append hl hbuilt)

theorem step_built {l : Ledger} (hl : l.Built) (e : SocketEvent) : (l.step e).Built := by
  by_cases he : ∃ cx, e = .poll cx
  · obtain ⟨cx, rfl⟩ := he
    rw [step]
    split
    · exact poll_built hl cx
    · exact hl
  · obtain ⟨hstep, hsame⟩ := step_queues l e fun cx h => he ⟨cx, h⟩
    rw [Built, hstep, (UdxSocket.queues_inj hsame).1]
    exact hl

theorem poll_aligned_iff {l : Ledger} (hbuilt : l.Built) (hl : l.Aligned) (cx : SocketContext) :
    (l.poll cx).Aligned ↔ ∀ h ∈ l.socket.transmitting cx,
      InStep (l.waiting ++ sources (h.taken cx.budget)) cx.sendOutcome.count := by
  unfold Aligned poll
  rcases poll_queues l.socket cx with ⟨hnone, hsame⟩ | ⟨t, hsome, hbefore, hafter⟩
  · rw [hnone]
    dsimp only
    rw [(UdxSocket.queues_inj hsame).2]
    exact iff_of_true hl fun _ h => by cases h
  · rw [hsome]
    dsimp only
    have htake := t.taken_takes cx.budget
    have hqueue : (t.takeEvents cx.budget).1.inner.outgoingPacketSets =
        (l.waiting ++ sources (t.taken cx.budget)).reduceOption := by
      rw [htake.packetSets, (UdxSocket.queues_inj hbefore).2, hl.1, List.reduceOption_append]
    -- with no transmit in the queue no set is left either, so that the two branches of the code agree
    have hempty : (t.takeEvents cx.budget).1.inner.outgoingTransmits.isEmpty = true →
        (t.takeEvents cx.budget).1.inner.outgoingPacketSets = [] := by
      intro h
      have hlength := htake.length
      rw [List.isEmpty_iff.mp h, (UdxSocket.queues_inj hbefore).1, List.length_nil, hbuilt.length_eq,
        ← List.length_append] at hlength
      rw [hqueue, List.eq_nil_of_length_eq_zero hlength.symm, List.reduceOption_nil]
    have hleft : (t.pollTransmit cx).1.inner.outgoingPacketSets =
        (l.waiting ++ sources (t.taken cx.budget)).reduceOption.drop cx.sendOutcome.count := by
      rw [(t.pollTransmit_queues cx).2, ← hqueue]
      split
      · rw [hempty ‹_›, List.drop_nil]
      · rfl
    have hstamped : t.stampedBy cx =
        (l.waiting ++ sources (t.taken cx.budget)).reduceOption.take cx.sendOutcome.count := by
      rw [UdxSocket.stampedBy, ← hqueue]
      split
      · rw [hempty ‹_›, List.take_nil]
      · rfl
    rw [(UdxSocket.queues_inj hafter).2, hleft, hstamped, hl.2, List.append_right_inj, ← inStep_iff]
    exact ⟨fun h t' ht' => by cases ht'; exact h, fun h => h t rfl⟩

theorem step_aligned_iff {l : Ledger} (hbuilt : l.Built) (hl : l.Aligned) (e : SocketEvent) :
    (l.step e).Aligned ↔ l.TakesInStep e := by
  by_cases he : ∃ cx, e = .poll cx
  · obtain ⟨cx, rfl⟩ := he
    rw [step]
    split
    · rename_i hrunning
      rw [poll_aligned_iff hbuilt hl cx]
      exact ⟨fun h _ => h, fun h => h hrunning⟩
    · rename_i hstopped
      exact iff_of_true hl fun hrunning => absurd hrunning hstopped
  · obtain ⟨hstep, hsame⟩ := step_queues l e fun cx h => he ⟨cx, h⟩
    rw [Aligned, hstep, (UdxSocket.queues_inj hsame).2]
    refine iff_of_true hl ?_
    cases e with
    | poll cx => exact absurd ⟨cx, rfl⟩ he
    | _ => trivial

/-- **Send times.** In every state of a run the sets in the queue are those of the waiting transmits, and the stamped
sets are the accepted ones, exactly if every send takes no datagram of the user or leaves no set behind. -/
theorem aligned_always_iff (now batchSize : Nat) (events : List SocketEvent) :
    Runs.Always step Aligned (bind now batchSize) events ↔ Runs.Along step TakesInStep (bind now batchSize) events :=
  Runs.always_iff_along Built (fun _ => True) (fun _ _ _ => trivial) (fun _ e hl _ => step_built hl e)
    (fun _ e hbuilt hl _ => step_aligned_iff hbuilt hl e) .nil ⟨rfl, rfl⟩ trivial

/-- A datagram is sent, and after it a packet of a stream; the UDP socket takes one transmit. -/
def mixedRun : List SocketEvent :=
  [.connect ⟨.v4 0, 2⟩ 1 2, .send ⟨.v4 0, 2⟩ [7], .stream 0 (.write 0 [1]), .stream 0 (.poll 0 0 10 1),
    .poll ⟨0, 10, 0, [], .sent 1, 0⟩]

/-- The packet is stamped as sent although its transmit is still waiting. -/
theorem mixedRun_stamps_early :
    let l := Runs.run step (bind 0 32) mixedRun
    l.accepted = [] ∧ l.socket.inner.outgoingPacketSets = [] ∧ l.waiting.reduceOption.length = 1 ∧
    l.socket.inner.outgoingTransmits.length = 1 ∧
    (l.socket.tasks.map fun u => (u.inner.outgoing.lookup 0).map Packet.timeSent) = [some (some 0)] ∧ ¬l.Aligned := by
  intro l
  refine ⟨by decide, by decide, by decide, by decide, by decide, fun h => ?_⟩
  exact absurd (congrArg List.length h.1) (by decide)

end Ledger

end AsyncUdx
