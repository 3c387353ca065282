import AsyncUdx.BaseWaiters
import AsyncUdx.Demultiplexing

/-! The futures that wait for datagrams of one socket. They share the slot `recv_waker`: each poll that finds no
datagram writes its waker over the one that is there, and a datagram for the user takes the waker out and wakes it. The
socket with its futures is an instance of waiters that share one slot, where the items that become ready are the
datagrams for the user. -/

namespace AsyncUdx

open Waiters

/-- A socket with the futures made by `UdxSocket::recv`. A future holds a clone of the socket, which counts among its
handles; no future is dropped. -/
structure Receivers where
  socket : UdxSocket
  futures : List (Phase Waker)

inductive ReceiverEvent
  | recv
  | poll (n : Nat) (waker : Waker)
  | socket (e : SocketEvent)

namespace Receivers

def bind (now batchSize : Nat) : Receivers := ⟨.bind now batchSize, []⟩

/-- A handle is left that is not one of a future. -/
def hasHandle (r : Receivers) : Bool := decide (r.futures.length < r.socket.handles)

/-- What can happen to the socket apart from the futures: none of its events is the poll of a future, and the handle
that is dropped is not one of a future. -/
def allows (r : Receivers) : SocketEvent → Bool
  | .recv _ => false
  | .drop => r.hasHandle
  | _ => true

/-- The waker that was taken out of `recv_waker`, and so was woken. -/
def takenWaker (h t : UdxSocket) : Option Waker := if t.inner.recvWaker = none then h.inner.recvWaker else none

def step (r : Receivers) : ReceiverEvent → Receivers
  | .recv => if r.hasHandle then ⟨r.socket.step .clone, r.futures ++ [.created]⟩ else r
  | .poll n waker =>
      if isLive r.futures n then
        match r.socket.recv waker with
        | (h, .ready _) => ⟨h, r.futures.set n .done⟩
        | (h, .pending) => ⟨h, r.futures.set n (.asleep waker)⟩
      else r
  | .socket e =>
      if r.allows e then ⟨r.socket.step e, r.futures.map (Phase.wake (takenWaker r.socket (r.socket.step e)))⟩ else r

/-- A datagram waits, a future is pending, and no pending future was woken since its last poll. -/
def Stranded (r : Receivers) : Prop :=
  r.socket.inner.recvDgrams ≠ [] ∧ (∃ waker, .asleep waker ∈ r.futures) ∧ .woken ∉ r.futures

/-- When a step strands no future: a datagram for the user finds a waker registered, or no future asleep, or one that is
woken already; and a future that takes one of several datagrams leaves no other one asleep, or another one woken. -/
def Timely (r : Receivers) : ReceiverEvent → Prop
  | .recv => True
  | .poll n _ =>
      2 ≤ r.socket.inner.recvDgrams.length → (∃ waker, .asleep waker ∈ r.futures.eraseIdx n) →
        .woken ∈ r.futures.eraseIdx n
  | .socket e =>
      r.allows e = true → UdxSocket.accepted (r.socket.routed e) ≠ [] → r.socket.inner.recvWaker = none →
        (∃ waker, .asleep waker ∈ r.futures) → .woken ∈ r.futures

/-! ### The socket as waiters with one slot -/

def waiters (r : Receivers) : State Waker :=
  ⟨r.socket.inner.recvDgrams.length, r.socket.inner.recvWaker, r.futures⟩

/-- What an event is to the waiters; one that is refused is one in which nothing arrives. -/
def waitersEvent (r : Receivers) : ReceiverEvent → Waiters.Event Waker
  | .recv => if r.hasHandle then .create else .arrive 0
  | .poll n waker => .poll n waker
  | .socket e => .arrive (if r.allows e then (UdxSocket.accepted (r.socket.routed e)).length else 0)

theorem recv_waiters (r : Receivers) : (r.step .recv).waiters = r.waiters.step (r.waitersEvent .recv) := by
  rw [step, waitersEvent]
  split
  · have huser := r.socket.step_userSide (e := .clone) (fun _ => SocketEvent.noConfusion)
      fun _ => SocketEvent.noConfusion
    change State.mk (r.socket.step .clone).userSide.1.length (r.socket.step .clone).userSide.2 _ = _
    rw [huser]
    rfl
  · rfl

theorem poll_waiters (r : Receivers) (n : Nat) (waker : Waker) :
    (r.step (.poll n waker)).waiters = r.waiters.step (r.waitersEvent (.poll n waker)) := by
  rw [step, waitersEvent, State.step]
  change (if isLive r.futures n = true then _ else r).waiters = if isLive r.futures n = true then _ else _
  split
  · cases hdgrams : r.socket.inner.recvDgrams with
    | nil =>
        have hready : r.waiters.ready = 0 := congrArg List.length hdgrams
        rw [UdxSocket.recv_of_nil hdgrams, hready]
        exact congrArg (State.mk · _ _) hready
    | cons dgram rest =>
        have hready : r.waiters.ready = rest.length + 1 := congrArg List.length hdgrams
        rw [UdxSocket.recv_of_cons hdgrams, hready]
        rfl
  · rfl

/-- The waker is taken out exactly if a datagram for the user arrives. -/
theorem takenWaker_eq {h : UdxSocket} {e : SocketEvent} (hrecv : ∀ waker, e ≠ .recv waker) :
    takenWaker h (h.step e) = if UdxSocket.accepted (h.routed e) = [] then none else h.inner.recvWaker := by
  have hwaker : (h.step e).inner.recvWaker = _ := congrArg Prod.snd (h.step_userSide_eq hrecv)
  rw [takenWaker, hwaker]
  dsimp only
  split
  · split
    · assumption
    · rfl
  · rfl

theorem allows_ne_recv {r : Receivers} {e : SocketEvent} (hallows : r.allows e = true) (waker : Waker) :
    e ≠ .recv waker := by
  rintro rfl
  cases hallows

theorem socket_waiters (r : Receivers) (e : SocketEvent) :
    (r.step (.socket e)).waiters = r.waiters.step (r.waitersEvent (.socket e)) := by
  rw [step, waitersEvent]
  split
  · rename_i hallows
    have hrecv := allows_ne_recv hallows
    have huser := r.socket.step_userSide_eq hrecv
    rw [takenWaker_eq hrecv]
    change State.mk (r.socket.step e).userSide.1.length (r.socket.step e).userSide.2 _ = _
    rw [huser]
    dsimp only
    cases UdxSocket.accepted (r.socket.routed e) with
    | nil =>
        rw [if_pos rfl, if_pos rfl, map_wake_none, List.append_nil]
        rfl
    | cons dgram rest =>
        rw [if_neg (List.cons_ne_nil _ _), if_neg (List.cons_ne_nil _ _), List.length_append]
        rfl
  · rfl

/-- **Simulation.** A step of the socket and its futures is one of the waiters. -/
theorem step_waiters (r : Receivers) (e : ReceiverEvent) : (r.step e).waiters = r.waiters.step (r.waitersEvent e) := by
  cases e with
  | recv => exact r.recv_waiters
  | poll n waker => exact r.poll_waiters n waker
  | socket e => exact r.socket_waiters e

theorem stranded_iff (r : Receivers) : r.Stranded ↔ r.waiters.Stranded :=
  and_congr_left fun _ => List.length_pos_iff.symm

theorem timely_iff (r : Receivers) (e : ReceiverEvent) : r.Timely e ↔ r.waiters.Timely (r.waitersEvent e) := by
  cases e with
  | recv =>
      rw [waitersEvent]
      split
      · exact Iff.rfl
      · exact iff_of_true trivial fun h => absurd h (Nat.lt_irrefl 0)
  | poll n waker => exact Iff.rfl
  | socket e =>
      rw [waitersEvent, Timely, State.Timely]
      split
      · rename_i hallows
        rw [List.length_pos_iff]
        exact ⟨fun h => h hallows, fun h _ => h⟩
      · rename_i hrefused
        exact iff_of_true (fun h => absurd h hrefused) fun h => absurd h (Nat.lt_irrefl 0)

/-! ### Runs -/

theorem bind_slotted (now batchSize : Nat) : (bind now batchSize).waiters.Slotted := fun _ h => by cases h

theorem slotted_step (r : Receivers) (e : ReceiverEvent) (hr : r.waiters.Slotted) : (r.step e).waiters.Slotted := by
  rw [step_waiters]
  exact hr.step _

/-- **No wake-up is lost exactly in timely runs.** In every state of a run of the socket with its futures, while a
datagram waits and a future is pending, a pending one has been woken since its last poll; exactly if every step of the
run is timely. -/
theorem no_lost_wakeup_iff (now batchSize : Nat) (events : List ReceiverEvent) :
    Runs.Always step (fun r => ¬r.Stranded) (bind now batchSize) events ↔
      Runs.Along step Timely (bind now batchSize) events := by
  refine Runs.always_iff_along (fun r => r.waiters.Slotted) (fun _ => True) (fun _ _ _ => trivial)
    (fun r e hr _ => slotted_step r e hr) (fun r e hr hsafe _ => ?_) (bind_slotted now batchSize)
    (fun h => h.1 rfl) trivial
  rw [stranded_iff] at hsafe
  rw [stranded_iff, step_waiters, timely_iff]
  exact State.step_stranded_iff hr hsafe _

/-- Two futures wait, the second one with its waker in the slot; two datagrams arrive, and the future that was woken
takes the first. -/
def overtakenRun : List ReceiverEvent :=
  [.recv, .recv, .poll 0 0, .poll 1 1,
    .socket (.poll ⟨2, 10, 0, [.ok [⟨⟨.v4 0, 2⟩, [1]⟩, ⟨⟨.v4 0, 2⟩, [2]⟩]], .pending, 0⟩), .poll 1 1]

theorem overtakenRun_strands :
    let r := Runs.run step (bind 0 32) overtakenRun
    r.socket.inner.recvDgrams = [⟨[2], ⟨.v4 0, 2⟩⟩] ∧ r.futures = [.asleep 0, .done] ∧ r.Stranded := by
  intro r
  have hdgrams : r.socket.inner.recvDgrams = [⟨[2], ⟨.v4 0, 2⟩⟩] := by decide
  have hfutures : r.futures = [.asleep 0, .done] := by decide
  refine ⟨hdgrams, hfutures, ?_, ⟨0, ?_⟩, ?_⟩
  · rw [hdgrams]
    exact List.cons_ne_nil _ _
  · rw [hfutures]
    exact List.mem_cons_self
  · rw [hfutures]
    decide

/-- At most one future is pending. -/
def Alone (r : Receivers) : Prop := r.futures.countP Phase.isPending ≤ 1

/-- **One receiver at a time is never left behind.** -/
theorem not_stranded_of_alone (now batchSize : Nat) (events : List ReceiverEvent)
    (halone : Runs.Always step Alone (bind now batchSize) events) :
    ¬(Runs.run step (bind now batchSize) events).Stranded := by
  have hinv : ∀ (r : Receivers) (e : ReceiverEvent), r.waiters.Slotted ∧ r.waiters.Heard → (r.step e).Alone →
      (r.step e).waiters.Slotted ∧ (r.step e).waiters.Heard := by
    rintro r e ⟨hslotted, hheard⟩ halone
    have halone' : (r.step e).waiters.Alone := halone
    rw [step_waiters] at halone' ⊢
    exact ⟨hslotted.step _, hheard.step _ halone'⟩
  obtain ⟨hslotted, hheard⟩ := Runs.run_invariant_of_always (fun r => r.waiters.Slotted ∧ r.waiters.Heard) hinv
    ⟨bind_slotted now batchSize, fun _ h => absurd h List.not_mem_nil⟩ halone
  rw [stranded_iff]
  exact State.not_stranded_of_heard hslotted hheard

end Receivers

end AsyncUdx
