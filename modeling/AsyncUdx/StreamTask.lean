import AsyncUdx.StreamMoves

/-! A stream as a task: the handles its users hold, the driver that is polled by the runtime, and the
clock. The events are the calls of the users and of the runtime in any order, together with what the
socket does to the stream: it pushes packets into the channel, stamps packets as sent, and may go away.

`accepted` records what the writes returned: the bytes `poll_write` said it took. -/

namespace AsyncUdx

open Relation UdxStreamInner

inductive Driver
  | running
  | completed
  | panicked
  deriving DecidableEq, Repr

structure UdxStream where
  inner : UdxStreamInner
  handles : Nat
  driver : Driver
  clock : Nat
  closes : Nat
  accepted : List UInt8

/-- What happens to a stream from its side of the socket. `sent` is the instant that an `AtomicInstant` keeps when it is
set to now; how precise it is is up to that type. -/
inductive Call
  | write (waker : Waker) (buf : List UInt8)
  | read (waker : Waker) (remaining : Nat)
  | close
  | clone
  | drop
  | poll (waker : Waker) (timerLag : Nat) (budget maxGsoSegments : Nat)
  | tick (elapsed : Nat)
  | markSent (seq : UInt32) (sent : Nat)
  | socketGone (recvClosed sendClosed : Bool)
  deriving DecidableEq, Repr

inductive Event
  | call (c : Call)
  | recv (header : Header) (buf : List UInt8) (source : SocketAddr)
  deriving DecidableEq, Repr

/-- The bytes a write was told were taken. -/
def takenBytes (buf : List UInt8) : Poll (Except IoError Nat) → List UInt8
  | .ready (.ok n) => buf.take n
  | _ => []

namespace UdxStream

/-- `UdxStream::connect`: one handle for the caller, one for the spawned driver. -/
def connect (now : Nat) (dest : SocketAddr) (remoteId localId : UInt32) : UdxStream where
  inner := UdxStreamInner.connect now dest remoteId localId
  handles := 1
  driver := .running
  clock := now
  closes := 0
  accepted := []

def strongCount (u : UdxStream) : Nat := u.handles + if u.driver = .running then 1 else 0

/-- With the last reference the state is freed, and with it the sender of a pending close future. -/
def release (u : UdxStream) : UdxStream :=
  if u.strongCount = 0 then
    { u with inner := { u.inner with
      onClose := none
      ghost := { u.inner.ghost with resolved := u.inner.onClose.toList ++ u.inner.ghost.resolved } } }
  else u

/-- `Drop for UdxStream`, run before the count goes down. -/
def onDrop (u : UdxStream) : UdxStream :=
  -- only the driver is left, shutdown
  if u.strongCount ≤ 2 then { u with inner := u.inner.terminate .closeGraceful } else u

/-- The driver's own handle goes when its future is done. -/
def dropDriver (u : UdxStream) (driver : Driver) : UdxStream :=
  ({ u.onDrop with driver := driver }).release

/-- `UdxStream::close`. The new sender takes the slot; one that was there is dropped. -/
def close (u : UdxStream) : UdxStream :=
  let inner := u.inner.terminate .closeGraceful
  { u with
    inner := { inner with
      onClose := some u.closes
      ghost := { inner.ghost with resolved := inner.onClose.toList ++ inner.ghost.resolved } }
    closes := u.closes + 1 }

/-- The bytes read so far. -/
def deliveredBytes (u : UdxStream) : List UInt8 := (u.inner.ghost.delivered.map Prod.snd).flatten

def poll (u : UdxStream) (cx : Context) : UdxStream :=
  match u.inner.pollDriver cx with
  | (inner, .ready) => ({ u with inner := inner }).dropDriver .completed
  | (inner, .pending) => { u with inner := inner }
  | (inner, .panicked) => ({ u with inner := inner }).dropDriver .panicked

def markSent (s : UdxStreamInner) (sent : Nat) (seq : UInt32) : UdxStreamInner :=
  match s.outgoing.lookup seq with
  | some packet => { s with outgoing := s.outgoing.insert seq { packet with timeSent := some sent } }
  | none => s

/-- A call that needs a handle, or a driver that is still running, does nothing without it. -/
def call (u : UdxStream) : Call → UdxStream
  | .write waker buf =>
      if u.handles = 0 then u
      else
        let result := u.inner.pollWrite u.clock waker buf
        { u with inner := result.1, accepted := u.accepted ++ takenBytes buf result.2 }
  | .read waker remaining =>
      if u.handles = 0 then u
      else
        let result := u.inner.pollRead waker remaining
        { u with inner := result.1 }
  | .close => if u.handles = 0 then u else u.close
  | .clone => if u.handles = 0 then u else { u with handles := u.handles + 1 }
  | .drop => if u.handles = 0 then u else ({ u.onDrop with handles := u.handles - 1 }).release
  | .poll waker timerLag budget maxGsoSegments =>
      if u.driver = .running then u.poll ⟨waker, u.clock, timerLag, budget, maxGsoSegments⟩ else u
  | .tick elapsed => { u with clock := u.clock + elapsed }
  | .markSent seq sent => { u with inner := markSent u.inner sent seq }
  | .socketGone recvClosed sendClosed =>
      { u with inner := { u.inner with
        recvRx := { u.inner.recvRx with closed := u.inner.recvRx.closed || recvClosed }
        sendTx := { u.inner.sendTx with closed := u.inner.sendTx.closed || sendClosed } } }

/-- A call that makes the driver work on the stream: a poll, before the driver is done. -/
def drives (u : UdxStream) : Call → Prop
  | .poll .. => u.driver = .running ∧ u.inner.closedAndDrained = false
  | _ => False

/-- A call that completes the driver: a poll that finds the stream closed and drained. -/
def completes (u : UdxStream) : Call → Prop
  | .poll .. => u.driver = .running ∧ u.inner.closedAndDrained = true
  | _ => False

def step (u : UdxStream) : Event → UdxStream
  | .call c => u.call c
  | .recv header buf source =>
      { u with inner := { u.inner with
        recvRx := { u.inner.recvRx with queue := u.inner.recvRx.queue ++ [⟨header, buf, 0, source⟩] } } }

end UdxStream

/-! ### Calls as moves -/

variable {ok : IncomingPacket → Prop} {now : Nat}

/-- What an event can do to the state of a stream: moves, or a packet that joins the channel. -/
inductive Advance (ok : IncomingPacket → Prop) (now : Nat) (s : UdxStreamInner) : UdxStreamInner → Prop
  | moves {t : UdxStreamInner} (h : Moves ok now s t) : Advance ok now s t
  | arrive (packet : IncomingPacket) (hok : ok packet) : Advance ok now s { s with
      recvRx := { s.recvRx with queue := s.recvRx.queue ++ [packet] } }

/-- A property of every packet that can arrive is one of every packet in the channel. -/
theorem Advance.queue {s t : UdxStreamInner} (h : Advance ok now s t)
    (hqueue : ∀ packet ∈ s.recvRx.queue, ok packet) : ∀ packet ∈ t.recvRx.queue, ok packet := by
  cases h with
  | moves h =>
      exact chain_invariant (fun s => ∀ packet ∈ s.recvRx.queue, ok packet)
        (fun _ _ h hs packet hpacket => hs packet (h.queue_subset hpacket)) h hqueue
  | arrive packet hok =>
      intro other hother
      rcases List.mem_append.mp hother with h | h
      · exact hqueue other h
      · rw [List.mem_singleton] at h
        exact h ▸ hok

/-- What every move keeps and the channel does not concern, an event keeps. -/
theorem Advance.invariant (Inv : UdxStreamInner → Prop) (hmove : ∀ s t, Move ok now s t → Inv s → Inv t)
    (hchannel : ∀ s rx, Inv s → Inv { s with recvRx := rx }) {s t : UdxStreamInner} (h : Advance ok now s t)
    (hs : Inv s) : Inv t := by
  cases h with
  | moves h => exact chain_invariant Inv hmove h hs
  | arrive packet hok => exact hchannel s _ hs

/-- An invariant of moves within a bound: moves only lead away from the bound, and neither depends on the
packets in the channel. -/
structure MoveInvariant (ok : IncomingPacket → Prop) (Inv Bound : UdxStreamInner → Prop) : Prop where
  connect : ∀ start dest remoteId localId, Inv (UdxStreamInner.connect start dest remoteId localId)
  back : ∀ now s t, Move ok now s t → Bound t → Bound s
  move : ∀ now s t, Move ok now s t → Inv s → Bound t → Inv t
  channel : ∀ s rx, Inv s → Inv { s with recvRx := rx }
  channel_back : ∀ s rx, Bound { s with recvRx := rx } → Bound s

namespace MoveInvariant

variable {Inv Bound : UdxStreamInner → Prop} (hinv : MoveInvariant ok Inv Bound)

include hinv

theorem advance_back {s t : UdxStreamInner} (h : Advance ok now s t) (hb : Bound t) : Bound s := by
  cases h with
  | moves h => exact bound_of_chain (hinv.back now) h hb
  | arrive packet hok => exact hinv.channel_back s _ hb

theorem advance {s t : UdxStreamInner} (h : Advance ok now s t) (hi : Inv s) (hb : Bound t) : Inv t := by
  cases h with
  | moves h => exact chain_invariant_bounded Inv Bound (hinv.back now) (hinv.move now) h hi hb
  | arrive packet hok => exact hinv.channel s _ hi

end MoveInvariant

namespace UdxStream

theorem onDrop_moves (u : UdxStream) : Moves ok now u.inner u.onDrop.inner := by
  unfold onDrop
  split
  · exact .single (.terminate _ _)
  · exact .refl

theorem release_moves (u : UdxStream) : Moves ok now u.inner u.release.inner := by
  unfold release
  split
  · exact .single (.slot _ _ _)
  · exact .refl

theorem dropDriver_moves (u : UdxStream) (driver : Driver) :
    Moves ok now u.inner (u.dropDriver driver).inner :=
  (onDrop_moves u).trans (release_moves { u.onDrop with driver := driver })

theorem complete_moves {s : UdxStreamInner} (hdone : s.closedAndDrained = true) :
    Moves ok now s (complete { s with driveWaker := none }) :=
  .head (.micro (wakers_micro s s.readWaker s.writeWaker none s.ghost.woken)) (.single (.complete _ hdone))

theorem onDrop_eq (u : UdxStream) : u.onDrop = { u with inner := u.onDrop.inner } := by
  unfold onDrop
  split <;> rfl

theorem dropDriver_eq (u : UdxStream) (driver : Driver) :
    u.dropDriver driver = { u with inner := (u.dropDriver driver).inner, driver := driver } := by
  unfold dropDriver release onDrop
  split_ifs <;> rfl

/-- Nothing is freed while a handle is left. -/
theorem release_of_handles {u : UdxStream} (h : u.handles ≠ 0) : u.release = u :=
  if_neg fun hcount => h (Nat.eq_zero_of_add_eq_zero_right hcount)

theorem dropDriver_of_handles (u : UdxStream) (h : u.handles ≠ 0) (driver : Driver) :
    u.dropDriver driver = { u.onDrop with driver := driver } :=
  release_of_handles (by rw [onDrop_eq]; exact h)

/-- A poll changes the state, and the driver when it is done. -/
theorem poll_eq (u : UdxStream) (cx : Context) :
    u.poll cx = { u with
      inner := (u.poll cx).inner
      driver := match (u.inner.pollDriver cx).2 with
        | .ready => .completed
        | .pending => u.driver
        | .panicked => .panicked } := by
  unfold poll
  split <;> rename_i inner h <;> rw [h]
  · exact dropDriver_eq _ _
  · exact dropDriver_eq _ _

/-- A write changes the state and what was accepted. -/
theorem write_eq (u : UdxStream) (waker : Waker) (buf : List UInt8) (hhandles : u.handles ≠ 0) :
    u.call (.write waker buf) = { u with
      inner := (u.inner.pollWrite u.clock waker buf).1
      accepted := (u.call (.write waker buf)).accepted } := by
  rw [call, if_neg hhandles]

/-- Dropping a handle changes the state and the number of handles. -/
theorem drop_eq (u : UdxStream) (hhandles : u.handles ≠ 0) :
    u.call .drop = { u with inner := (u.call .drop).inner, handles := u.handles - 1 } := by
  rw [call, if_neg hhandles]
  unfold release onDrop
  split_ifs <;> rfl

/-- What depends on neither the state, the handles nor the clock is changed only by a write or a poll. -/
theorem call_rest {β : Type} (f : UdxStream → β)
    (hsame : ∀ (u : UdxStream) inner handles clock closes, f { u with
      inner := inner, handles := handles, clock := clock, closes := closes } = f u)
    (u : UdxStream) (c : Call) (hwrite : ∀ waker buf, c ≠ .write waker buf)
    (hpoll : ∀ waker timerLag budget maxGsoSegments, c ≠ .poll waker timerLag budget maxGsoSegments) :
    f (u.call c) = f u := by
  cases c with
  | write waker buf => exact absurd rfl (hwrite waker buf)
  | poll waker timerLag budget maxGsoSegments => exact absurd rfl (hpoll _ _ _ _)
  | drop =>
      by_cases hzero : u.handles = 0
      · rw [call, if_pos hzero]
      · rw [drop_eq u hzero]
        exact hsame u _ _ u.clock u.closes
  | tick elapsed => exact hsame u u.inner u.handles _ u.closes
  | markSent seq sent => exact hsame u _ u.handles u.clock u.closes
  | socketGone recvClosed sendClosed => exact hsame u _ u.handles u.clock u.closes
  | read waker remaining =>
      rw [call]
      split
      · rfl
      · exact hsame u _ u.handles u.clock u.closes
  | close =>
      rw [call]
      split
      · rfl
      · exact hsame u _ u.handles u.clock _
  | clone =>
      rw [call]
      split
      · rfl
      · exact hsame u u.inner _ u.clock u.closes

/-- Only a poll makes a driver stop. -/
theorem call_driver (u : UdxStream) (c : Call)
    (hpoll : ∀ waker timerLag budget maxGsoSegments, c ≠ .poll waker timerLag budget maxGsoSegments) :
    (u.call c).driver = u.driver := by
  by_cases hwrite : ∃ waker buf, c = .write waker buf
  · obtain ⟨waker, buf, rfl⟩ := hwrite
    rw [call]
    split <;> rfl
  · exact call_rest driver (fun _ _ _ _ _ => rfl) u c (fun waker buf h => hwrite ⟨waker, buf, h⟩) hpoll

/-- Only a write is told that bytes were taken. -/
theorem call_accepted (u : UdxStream) (c : Call) (hwrite : ∀ waker buf, c ≠ .write waker buf) :
    (u.call c).accepted = u.accepted := by
  by_cases hpoll : ∃ waker timerLag budget maxGsoSegments, c = .poll waker timerLag budget maxGsoSegments
  · obtain ⟨waker, timerLag, budget, maxGsoSegments, rfl⟩ := hpoll
    rw [call]
    split
    · rw [poll_eq]
    · rfl
  · exact call_rest accepted (fun _ _ _ _ _ => rfl) u c hwrite fun waker timerLag budget maxGsoSegments h =>
      hpoll ⟨waker, timerLag, budget, maxGsoSegments, h⟩

/-- Only the passing of time moves the clock. -/
theorem call_clock (u : UdxStream) (c : Call) (htick : ∀ elapsed, c ≠ .tick elapsed) :
    (u.call c).clock = u.clock := by
  cases c with
  | tick elapsed => exact absurd rfl (htick elapsed)
  | drop =>
      by_cases hzero : u.handles = 0
      · rw [call, if_pos hzero]
      · rw [drop_eq u hzero]
  | poll waker timerLag budget maxGsoSegments =>
      rw [call]
      split
      · rw [poll_eq]
      · rfl
  | markSent seq sent => rfl
  | socketGone recvClosed sendClosed => rfl
  | _ =>
      rw [call]
      split <;> rfl

/-- Without a handle no new one can be made. -/
theorem step_handles {u : UdxStream} {e : Event} (h : (u.step e).handles ≠ 0) : u.handles ≠ 0 := by
  intro hzero
  apply h
  cases e with
  | recv header buf source => exact hzero
  | call c =>
      cases c with
      | poll waker timerLag budget maxGsoSegments =>
          change (u.call _).handles = 0
          rw [call]
          split
          · rw [poll_eq]
            exact hzero
          · exact hzero
      | tick elapsed => exact hzero
      | markSent seq sent => exact hzero
      | socketGone recvClosed sendClosed => exact hzero
      | _ =>
          change (u.call _).handles = 0
          rw [call, if_pos hzero, hzero]

theorem onDrop_frame {β : Type} (f : UdxStreamInner → β) (hterminate : ∀ s error, f (terminate s error) = f s)
    (u : UdxStream) : f u.onDrop.inner = f u.inner := by
  unfold onDrop
  split
  · exact hterminate _ _
  · rfl

theorem release_frame {β : Type} (f : UdxStreamInner → β)
    (hslot : ∀ s onClose resolved,
      f { s with onClose := onClose, ghost := { s.ghost with resolved := resolved } } = f s)
    (u : UdxStream) : f u.release.inner = f u.inner := by
  unfold release
  split
  · exact hslot _ _ _
  · rfl

/-- What happens to a stream after its driver was polled: it may be terminated and its slot cleared. -/
theorem poll_frame {β : Type} (f : UdxStreamInner → β) (hterminate : ∀ s error, f (terminate s error) = f s)
    (hslot : ∀ s onClose resolved,
      f { s with onClose := onClose, ghost := { s.ghost with resolved := resolved } } = f s)
    (u : UdxStream) (cx : Context) : f (u.poll cx).inner = f (u.inner.pollDriver cx).1 := by
  have hdrop : ∀ (u : UdxStream) (driver : Driver), f (u.dropDriver driver).inner = f u.inner :=
    fun u _ => (release_frame f hslot _).trans (onDrop_frame f hterminate u)
  unfold poll
  split <;> rename_i inner h <;> rw [h]
  · exact hdrop { u with inner := inner } .completed
  · exact hdrop { u with inner := inner } .panicked

theorem poll_rest (u : UdxStream) (cx : Context) : Moves ok now (u.inner.pollDriver cx).1 (u.poll cx).inner := by
  unfold poll
  split <;> rename_i inner h <;> rw [h]
  · exact dropDriver_moves { u with inner := inner } .completed
  · exact dropDriver_moves { u with inner := inner } .panicked

theorem poll_moves (u : UdxStream) (cx : Context)
    (hqueue : u.inner.closedAndDrained = false → ∀ packet ∈ u.inner.recvRx.queue, ok packet) :
    Moves ok cx.now u.inner (u.poll cx).inner := by
  refine .trans ?_ (poll_rest u cx)
  cases hdone : u.inner.closedAndDrained with
  | true =>
      rw [pollDriver_complete _ _ hdone]
      exact complete_moves hdone
  | false => exact pollDriver_moves _ cx (hqueue hdone) hdone

theorem markSent_chain (s : UdxStreamInner) (seq : UInt32) (sent : Nat) : Chain ok now s (markSent s sent seq) := by
  unfold markSent
  split
  · exact .single (.mark s seq _ sent ‹_›)
  · exact .refl

/-- **Every call is a sequence of moves**, made at the time of the call. Only a driving poll handles packets. -/
theorem call_moves (u : UdxStream) (c : Call)
    (hqueue : u.drives c → ∀ packet ∈ u.inner.recvRx.queue, ok packet) :
    Moves ok u.clock u.inner (u.call c).inner := by
  cases c with
  | write waker buf =>
      rw [call]
      split
      · exact .refl
      · exact pollWrite_moves u.inner waker buf
  | read waker remaining =>
      rw [call]
      split
      · exact .refl
      · exact pollRead_moves u.inner waker remaining
  | close =>
      rw [call]
      split
      · exact .refl
      · exact .head (.terminate _ _) (.single (.slot _ _ _))
  | clone =>
      rw [call]
      split <;> exact .refl
  | drop =>
      rw [call]
      split
      · exact .refl
      · exact (onDrop_moves u).trans (release_moves { u.onDrop with handles := u.handles - 1 })
  | poll waker timerLag budget maxGsoSegments =>
      rw [call]
      split
      · rename_i hrunning
        exact poll_moves u ⟨waker, u.clock, timerLag, budget, maxGsoSegments⟩ fun hopen => hqueue ⟨hrunning, hopen⟩
      · exact .refl
  | tick elapsed => exact .refl
  | markSent seq sent => exact (markSent_chain u.inner seq sent).moves
  | socketGone recvClosed sendClosed =>
      exact .single (.gone _ _ _)

/-- **Frame rule for calls.** What every change that a call can make leaves alone, the call leaves alone: only a
write sends, only a read delivers, only the completion of the driver completes, and only the loss of the socket
closes a channel. -/
theorem call_frame {β : Type} (f : UdxStreamInner → β) (u : UdxStream) (c : Call)
    (hmicro : ∀ now s t, Micro (fun _ => True) now s t → f t = f s)
    (hterminate : ∀ s error, f (terminate s error) = f s)
    (hslot : ∀ s onClose resolved,
      f { s with onClose := onClose, ghost := { s.ghost with resolved := resolved } } = f s)
    (hpush : ∀ waker buf, c = .write waker buf → ∀ s body, f (pushData s u.clock body) = f s)
    (hread : ∀ waker remaining, c = .read waker remaining →
      (∀ s packet remaining, f (readPart s packet remaining) = f s) ∧ ∀ s packet, f (readWhole s packet) = f s)
    (hcomplete : u.completes c → ∀ s, f (complete s) = f s)
    (hgone : ∀ recvClosed sendClosed, c = .socketGone recvClosed sendClosed → ∀ s recvClosed sendClosed, f { s with
      recvRx := { s.recvRx with closed := recvClosed }, sendTx := { s.sendTx with closed := sendClosed } } = f s) :
    f (u.call c).inner = f u.inner := by
  have hchain : ∀ {now : Nat} {s t : UdxStreamInner}, Chain (fun _ => True) now s t → f t = f s :=
    fun {now} _ _ h => chain_value f (hmicro now) h
  have hwakers : ∀ s waker woken, f { s with driveWaker := waker, ghost := { s.ghost with woken := woken } } = f s :=
    fun s waker woken => hmicro 0 _ _ (wakers_micro s s.readWaker s.writeWaker waker woken)
  cases c with
  | write waker buf =>
      rw [call]
      split
      · rfl
      · exact pollWrite_frame f (hpush waker buf rfl)
          (fun s waker => hmicro 0 _ _ (wakers_micro s s.readWaker waker s.driveWaker s.ghost.woken)) _ _ _
  | read waker remaining =>
      rw [call]
      split
      · rfl
      · obtain ⟨hpart, hwhole⟩ := hread waker remaining rfl
        have hwaker : ∀ s waker, f { s with readWaker := waker } = f s :=
          fun s waker => hmicro 0 _ _ (wakers_micro s waker s.writeWaker s.driveWaker s.ghost.woken)
        rw [pollRead_frame f hwaker]
        exact readNext_frame f hpart hwhole u.inner remaining
  | close =>
      rw [call]
      split
      · rfl
      · exact (hslot _ _ _).trans (hterminate _ _)
  | clone =>
      rw [call]
      split <;> rfl
  | drop =>
      rw [call]
      split
      · rfl
      · exact (release_frame f hslot _).trans (onDrop_frame f hterminate u)
  | poll waker timerLag budget maxGsoSegments =>
      rw [call]
      split
      · rename_i hrunning
        rw [poll_frame f hterminate hslot]
        cases hdone : u.inner.closedAndDrained with
        | true =>
            rw [pollDriver_complete _ _ hdone]
            exact (hcomplete ⟨hrunning, hdone⟩ _).trans (hwakers u.inner none u.inner.ghost.woken)
        | false =>
            rw [pollDriver_frame f hterminate hwakers _ _ hdone]
            exact (hchain (pollDrive_chain _ _ fun _ _ => trivial)).trans
              (hwakers u.inner none u.inner.ghost.woken)
      · rfl
  | tick elapsed => rfl
  | markSent seq sent => exact @hchain u.clock _ _ (markSent_chain u.inner seq sent)
  | socketGone recvClosed sendClosed => exact hgone _ _ rfl u.inner _ _

end UdxStream

/-- An invariant of the calls that do not drive a stream: it is kept by each of the changes they consist of. -/
structure CallInvariant (now : Nat) (Inv : UdxStreamInner → Prop) : Prop where
  push : ∀ s body, s.error = none → body ≠ [] → body.length ≤ udxMaxDataSize →
    s.inflight + body.length ≤ s.cwnd → Inv s → Inv (s.pushData now body)
  blocked : ∀ s waker len, s.error = none → len ≤ udxMaxDataSize → s.cwnd < s.inflight + len → Inv s →
    Inv { s with writeWaker := some waker }
  readPart : ∀ s packet remaining, Inv s → Inv (s.readPart packet remaining)
  readWhole : ∀ s packet, Inv s → Inv (s.readWhole packet)
  readWaker : ∀ s waker, Inv s → Inv { s with readWaker := some waker }
  terminate : ∀ s error, Inv s → Inv (s.terminate error)
  slot : ∀ s onClose resolved, Inv s →
    Inv { s with onClose := onClose, ghost := { s.ghost with resolved := resolved } }
  complete : ∀ s, Inv s → Inv (complete { s with driveWaker := none })
  mark : ∀ s i packet sent, s.outgoing.lookup i = some packet → Inv s →
    Inv { s with outgoing := s.outgoing.insert i { packet with timeSent := some sent } }
  gone : ∀ s recvClosed sendClosed, Inv s → Inv { s with
    recvRx := { s.recvRx with closed := s.recvRx.closed || recvClosed }
    sendTx := { s.sendTx with closed := s.sendTx.closed || sendClosed } }

namespace CallInvariant

variable {Inv : UdxStreamInner → Prop} (hinv : CallInvariant now Inv)

include hinv

theorem pollWrite {s : UdxStreamInner} (waker : Waker) (buf : List UInt8) (hs : Inv s) :
    Inv (s.pollWrite now waker buf).1 := by
  have hloop : ∀ (fuel written : Nat) (s : UdxStreamInner), s.error = none → Inv s →
      Inv (writeLoop now waker buf fuel written s).1 := by
    intro fuel
    induction fuel with
    | zero => exact fun _ _ _ hs => hs
    | succ fuel ih =>
        intro written s herror hs
        rw [writeLoop]
        split
        · exact hs
        · rename_i hleft
          have hne : (buf.drop written).take udxMaxDataSize ≠ [] := by
            rw [← List.length_pos_iff, List.length_take, List.length_drop, udxMaxDataSize]
            omega
          have hpos := List.length_pos_iff.mpr hne
          unfold sendDataPacket
          dsimp only
          rw [Nat.min_comm, ← List.length_take]
          split
          · rename_i hfull
            rw [if_pos rfl]
            split
            · exact hinv.blocked s waker _ herror (by rw [List.length_take]; omega) hfull hs
            · exact hs
          · rename_i hroom
            have htake : (buf.drop written).take ((buf.drop written).take udxMaxDataSize).length =
                (buf.drop written).take udxMaxDataSize := by
              rw [List.length_take]
              exact List.take_eq_take_min.symm
            dsimp only
            rw [if_neg (by omega), htake]
            exact ih _ _ herror (hinv.push s _ herror hne (by rw [List.length_take]; omega) (by omega) hs)
  unfold UdxStreamInner.pollWrite
  split
  · exact hs
  · split
    · exact hs
    · exact hloop _ _ s ‹_› hs

theorem pollRead {s : UdxStreamInner} (waker : Waker) (remaining : Nat) (hs : Inv s) :
    Inv (s.pollRead waker remaining).1 := by
  have hloop : ∀ (fuel remaining : Nat) (s : UdxStreamInner), Inv s → Inv (readLoop fuel remaining s).1 := by
    intro fuel
    induction fuel with
    | zero => exact fun _ _ hs => hs
    | succ fuel ih =>
        intro remaining s hs
        rw [readLoop]
        split
        · exact hs
        · dsimp only
          split
          · exact hinv.readPart s _ _ hs
          · exact ih _ _ (hinv.readWhole s _ hs)
  have hread : Inv (s.readNext remaining).1 := hloop _ _ s hs
  unfold UdxStreamInner.pollRead
  split <;> rename_i h <;> rw [h] at hread
  · exact hread
  · split
    · exact hread
    · exact hinv.readWaker _ _ hread

end CallInvariant

namespace UdxStream

section Kept

variable {Inv : UdxStreamInner → Prop} (hterminate : ∀ s error, Inv s → Inv (terminate s error))
  (hslot : ∀ s onClose resolved, Inv s →
    Inv { s with onClose := onClose, ghost := { s.ghost with resolved := resolved } })

include hterminate in
theorem onDrop_invariant {u : UdxStream} (hs : Inv u.inner) : Inv u.onDrop.inner := by
  unfold onDrop
  split
  · exact hterminate _ _ hs
  · exact hs

include hslot in
theorem release_invariant {u : UdxStream} (hs : Inv u.inner) : Inv u.release.inner := by
  unfold release
  split
  · exact hslot _ _ _ hs
  · exact hs

include hterminate hslot

theorem dropDriver_invariant {u : UdxStream} (driver : Driver) (hs : Inv u.inner) :
    Inv (u.dropDriver driver).inner :=
  release_invariant hslot (u := { u.onDrop with driver := driver }) (onDrop_invariant hterminate hs)

variable (Inv) in
/-- What a poll establishes is kept by the end of the poll, if it does not depend on the driver's waker. -/
theorem poll_invariant (hwakers : ∀ s waker woken, Inv s →
      Inv { s with driveWaker := waker, ghost := { s.ghost with woken := woken } })
    {u : UdxStream} {cx : Context} (hopen : u.inner.closedAndDrained = false)
    (hdrive : Inv ({ u.inner with driveWaker := none }.pollDrive cx).1) : Inv (u.poll cx).inner := by
  unfold poll
  rcases pollDriver_cases u.inner cx hopen with ⟨flag, waker, woken, -, h⟩ | ⟨err, woken, -, h⟩ | ⟨message, -, h⟩ <;>
    rw [h]
  · exact hwakers _ _ _ hdrive
  · exact hwakers _ _ _ (hterminate _ _ hdrive)
  · exact dropDriver_invariant hterminate hslot (u := { u with inner := _ }) .panicked hdrive

end Kept

/-- A call that does not drive the stream keeps an invariant of such calls. -/
theorem call_invariant {Inv : UdxStreamInner → Prop} (u : UdxStream) (c : Call) (hinv : CallInvariant u.clock Inv)
    (hidle : ¬u.drives c) (hs : Inv u.inner) : Inv (u.call c).inner := by
  cases c with
  | write waker buf =>
      rw [call]
      split
      · exact hs
      · exact hinv.pollWrite waker buf hs
  | read waker remaining =>
      rw [call]
      split
      · exact hs
      · exact hinv.pollRead waker remaining hs
  | close =>
      rw [call]
      split
      · exact hs
      · exact hinv.slot _ _ _ (hinv.terminate _ _ hs)
  | clone =>
      rw [call]
      split <;> exact hs
  | drop =>
      rw [call]
      split
      · exact hs
      · exact release_invariant hinv.slot (u := { u.onDrop with handles := u.handles - 1 })
          (onDrop_invariant hinv.terminate hs)
  | poll waker timerLag budget maxGsoSegments =>
      rw [call]
      split
      · rename_i hrunning
        have hdone : u.inner.closedAndDrained = true := by
          cases h : u.inner.closedAndDrained with
          | true => rfl
          | false => exact absurd ⟨hrunning, h⟩ hidle
        rw [poll, pollDriver_complete _ _ hdone]
        exact dropDriver_invariant hinv.terminate hinv.slot (u := { u with inner := _ }) .completed
          (hinv.complete _ hs)
      · exact hs
  | tick elapsed => exact hs
  | markSent seq sent =>
      change Inv (markSent u.inner sent seq)
      unfold markSent
      split
      · exact hinv.mark _ _ _ _ ‹_› hs
      · exact hs
  | socketGone recvClosed sendClosed => exact hinv.gone _ _ _ hs

/-- A poll of a running driver. -/
theorem call_poll {u : UdxStream} (hrunning : u.driver = .running) {waker : Waker}
    {timerLag budget maxGsoSegments : Nat} : u.call (.poll waker timerLag budget maxGsoSegments) =
      u.poll ⟨waker, u.clock, timerLag, budget, maxGsoSegments⟩ :=
  if_pos hrunning

/-- An invariant of the calls that does not depend on the channel or the driver's waker is kept by an event, if it is
kept by driving the stream. -/
theorem step_invariant {Inv : UdxStreamInner → Prop} (u : UdxStream) (e : Event) (hinv : CallInvariant u.clock Inv)
    (hwakers : ∀ s waker woken, Inv s → Inv { s with driveWaker := waker, ghost := { s.ghost with woken := woken } })
    (hrecv : ∀ s rx, Inv s → Inv { s with recvRx := rx })
    (hdrive : ∀ cx, Inv ({ u.inner with driveWaker := none }.pollDrive cx).1) (hs : Inv u.inner) :
    Inv (u.step e).inner := by
  cases e with
  | recv header buf source => exact hrecv _ _ hs
  | call c =>
      by_cases hdrives : u.drives c
      · cases c with
        | poll waker timerLag budget maxGsoSegments =>
            rw [step, call_poll hdrives.1]
            exact poll_invariant Inv hinv.terminate hinv.slot hwakers hdrives.2 (hdrive _)
        | _ => exact hdrives.elim
      · exact u.call_invariant c hinv hdrives hs

/-! ### Runs -/

abbrev run (u : UdxStream) (events : List Event) : UdxStream := Runs.run step u events

/-- The states of every run of a stream, from its connection on. -/
def Reachable (u : UdxStream) : Prop :=
  ∃ (start : Nat) (dest : SocketAddr) (remoteId localId : UInt32) (events : List Event),
    run (connect start dest remoteId localId) events = u

theorem Reachable.step {u : UdxStream} (hu : u.Reachable) (e : Event) : (u.step e).Reachable := by
  obtain ⟨start, dest, remoteId, localId, events, rfl⟩ := hu
  exact ⟨start, dest, remoteId, localId, events ++ [e], List.foldl_append⟩

/-- What holds of every fresh stream and is kept by every event holds in every reachable state. -/
theorem Reachable.invariant (Inv : UdxStream → Prop)
    (hconnect : ∀ start dest remoteId localId, Inv (connect start dest remoteId localId))
    (hstep : ∀ u e, Inv u → Inv (u.step e)) {u : UdxStream} (hu : u.Reachable) : Inv u := by
  obtain ⟨start, dest, remoteId, localId, events, rfl⟩ := hu
  exact Runs.run_invariant Inv hstep (hconnect start dest remoteId localId) events

/-- Nothing is assumed of the packets of an arbitrary peer. -/
abbrev anyPacket : IncomingPacket → Prop := fun _ => True

/-- A run only moves the stream, apart from packets that arrive. -/
theorem step_advance (u : UdxStream) (e : Event) (hqueue : ∀ packet ∈ u.inner.recvRx.queue, ok packet)
    (harrive : ∀ header buf source, e = .recv header buf source → ok ⟨header, buf, 0, source⟩) :
    Advance ok u.clock u.inner (u.step e).inner := by
  cases e with
  | call c => exact .moves (call_moves u c fun _ => hqueue)
  | recv header buf source => exact .arrive _ (harrive header buf source rfl)

theorem step_advance_any (u : UdxStream) (e : Event) : Advance anyPacket u.clock u.inner (u.step e).inner :=
  u.step_advance e (fun _ _ => trivial) fun _ _ _ _ => trivial

end UdxStream

/-- **Invariants of runs.** An invariant that every move within a bound keeps, and that does not depend on
the channel, holds at the end of every run that ends within the bound. -/
theorem MoveInvariant.run {Inv Bound : UdxStreamInner → Prop} (hinv : MoveInvariant ok Inv Bound) {ε : Type}
    {step : UdxStream → ε → UdxStream} (hadvance : ∀ (u : UdxStream) (e : ε),
      (∀ packet ∈ u.inner.recvRx.queue, ok packet) → Advance ok u.clock u.inner (step u e).inner)
    (start : Nat) (dest : SocketAddr) (remoteId localId : UInt32) (events : List ε)
    (hbound : Bound (Runs.run step (UdxStream.connect start dest remoteId localId) events).inner) :
    Inv (Runs.run step (UdxStream.connect start dest remoteId localId) events).inner := by
  refine Runs.run_invariant_bounded (fun u : UdxStream => ∀ packet ∈ u.inner.recvRx.queue, ok packet)
    (fun u : UdxStream => Inv u.inner) (fun u : UdxStream => Bound u.inner) ?_ ?_ ?_
    (fun _ h => absurd h List.not_mem_nil) (hinv.connect _ _ _ _) hbound
  · exact fun u e hqueue => (hadvance u e hqueue).queue hqueue
  · exact fun u e hqueue hb => hinv.advance_back (hadvance u e hqueue) hb
  · exact fun u e hqueue hi hb => hinv.advance (hadvance u e hqueue) hi hb

theorem MoveInvariant.reachable {Inv Bound : UdxStreamInner → Prop} (hinv : MoveInvariant ok Inv Bound)
    (hok : ∀ header buf source, ok ⟨header, buf, 0, source⟩) {u : UdxStream} (hu : u.Reachable)
    (hbound : Bound u.inner) : Inv u.inner := by
  obtain ⟨start, dest, remoteId, localId, events, rfl⟩ := hu
  exact hinv.run (fun u e hqueue => u.step_advance e hqueue fun header buf source _ => hok header buf source)
    start dest remoteId localId events hbound

/-- An invariant that needs neither a bound nor an assumption on the packets holds in every reachable state. -/
theorem MoveInvariant.of_reachable {Inv : UdxStreamInner → Prop}
    (hinv : MoveInvariant UdxStream.anyPacket Inv fun _ => True) {u : UdxStream} (hu : u.Reachable) : Inv u.inner :=
  hinv.reachable (fun _ _ _ => trivial) hu trivial

/-- No function installs a firewall. -/
theorem onFirewall_invariant (ok : IncomingPacket → Prop) :
    MoveInvariant ok (fun s => s.onFirewall = none) (fun _ => True) where
  connect := fun _ _ _ _ => rfl
  back := fun _ _ _ _ _ => trivial
  move := fun _ _ _ h hs _ => h.onFirewall_eq.trans hs
  channel := fun _ _ => id
  channel_back := fun _ _ _ => trivial

theorem UdxStream.Reachable.onFirewall {u : UdxStream} (hu : u.Reachable) : u.inner.onFirewall = none :=
  (onFirewall_invariant UdxStream.anyPacket).of_reachable hu

theorem UdxStream.step_onFirewall (u : UdxStream) (e : Event) (hu : u.inner.onFirewall = none) :
    (u.step e).inner.onFirewall = none :=
  (onFirewall_invariant UdxStream.anyPacket).advance (u.step_advance_any e) hu trivial

end AsyncUdx
