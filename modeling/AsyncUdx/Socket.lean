import AsyncUdx.StreamTask

/-! The socket and the streams connected on it. The socket driver takes events out of one channel that all
streams send on, hands transmits to the UDP socket, and sorts incoming datagrams into the channels of the
streams by the stream id in their header. One definition for each function of the source; the outcomes of the
UDP socket are part of the context of a poll.

The streams are numbered in the order of their connection. A `StreamHandle` of the registry is the sending end
of the channel of one of them, so dropping it closes that channel. -/

namespace AsyncUdx

def maxLoop : Nat := 60
def recvQueueMaxLen : Nat := 1024

/-! ### Transmits -/

/-- What is handed to the UDP socket. The fields `ecn` and `src_ip` are never set. -/
structure Transmit where
  destination : SocketAddr
  contents : List UInt8
  segmentSize : Option Nat
  deriving DecidableEq, Repr

def Transmit.numSegments (transmit : Transmit) : Nat :=
  match transmit.segmentSize with
  | none => 1
  | some size => transmit.contents.length / size

def Dgram.intoTransmit (dgram : Dgram) : Transmit := ⟨dgram.dest, dgram.buf, none⟩

def Packet.toTransmit (packet : Packet) : Transmit := ⟨packet.dest, packet.buf.asSlice, none⟩

namespace PacketSet

/-- The data packets of a set, which the stream still refers to. -/
def iterShared (set : PacketSet) : List Packet :=
  set.packets.filterMap fun
    | .shared packet => some packet
    | .owned _ => none

/-- A set without a segment size is never built; the source asserts that it would hold one packet. -/
def toTransmit (set : PacketSet) (skip : PacketRef → Bool) : Transmit :=
  match set.segmentSize with
  | none => ((set.packets.head?).map fun packet => packet.deref.toTransmit).getD ⟨set.dest, [], none⟩
  | some segmentSize =>
      let segments := set.packets.length
      let contents := (set.packets.filter fun packet => !skip packet).flatMap fun packet => packet.deref.buf.asSlice
      ⟨set.dest, contents, if segments = 1 then none else some segmentSize⟩

end PacketSet

/-! ### State -/

structure SocketStats where
  txTransmits : Nat := 0
  txDgrams : Nat := 0
  txBytes : Nat := 0
  rxBytes : Nat := 0
  rxDgrams : Nat := 0
  deriving DecidableEq, Repr

def SocketStats.trackTx (stats : SocketStats) (transmit : Transmit) : SocketStats :=
  { stats with
    txBytes := stats.txBytes + transmit.contents.length
    txTransmits := stats.txTransmits + 1
    txDgrams := stats.txDgrams + transmit.numSegments }

/-- The sending end of the channel of a stream. -/
structure StreamHandle where
  recvTx : Nat
  deriving DecidableEq, Repr

/-- An event in the channel to the socket, with the number of the stream that has sent it. -/
structure Sent where
  origin : Option Nat
  event : EventOutgoing
  deriving DecidableEq, Repr

structure UdxSocketInner where
  /-- The wakers woken so far, latest first: a history variable. -/
  woken : List Waker := []
  sendRx : List Sent := []
  streams : SeqMap StreamHandle := ∅
  outgoingTransmits : List Transmit := []
  outgoingPacketSets : List (Option Nat × PacketSet) := []
  stats : SocketStats := {}
  hasRefs : Bool := true
  driveWaker : Option Waker := none
  /-- The deadline of the timer that holds back sending. -/
  sendOverflowTimer : Option Nat := none
  recvDgrams : List Dgram := []
  recvWaker : Option Waker := none

/-- How the driver of the socket has ended, if it has. -/
inductive SocketDriver
  | running
  | finished (result : Except IoError Unit)

/-- A socket with its handles and its driver, the streams connected on it so far, and the clock. `batchSize`
is a constant of the platform. -/
structure UdxSocket where
  inner : UdxSocketInner
  tasks : List UdxStream
  handles : Nat
  driver : SocketDriver
  clock : Nat
  batchSize : Nat

/-- What the UDP socket answers to a send. -/
inductive SendOutcome
  | pending
  | interrupted
  | failed (err : IoError)
  | sent (n : Nat)
  deriving DecidableEq, Repr

structure Arrival where
  source : SocketAddr
  data : List UInt8
  deriving DecidableEq, Repr

/-- What a poll of the driver reads from outside: the messages its channel may hand out, how long after its
deadline the timer counts as fired, the batches of datagrams the UDP socket has, what it answers to a send, and the
instant that is kept for the packets sent. -/
structure SocketContext where
  waker : Waker
  budget : Nat
  timerLag : Nat
  received : List (Except IoError (List Arrival))
  sendOutcome : SendOutcome
  sentAt : Nat

namespace UdxSocket

def bind (now batchSize : Nat) : UdxSocket where
  inner := {}
  tasks := []
  handles := 1
  driver := .running
  clock := now
  batchSize := batchSize

def isRunning (h : UdxSocket) : Bool :=
  match h.driver with
  | .running => true
  | .finished _ => false

def strongCount (h : UdxSocket) : Nat := h.handles + if h.isRunning then 1 else 0

/-- Something happens to one of the streams. -/
def modify (h : UdxSocket) (n : Nat) (f : UdxStream → UdxStream) : UdxSocket :=
  { h with tasks := h.tasks.modify n f }

/-! ### The registry -/

/-- The registry drops the sending end of the channel of a stream. -/
def dropHandle (h : UdxSocket) : Option StreamHandle → UdxSocket
  | none => h
  | some handle => h.modify handle.recvTx fun u => u.call (.socketGone true false)

/-- `streams.remove`. -/
def remove (h : UdxSocket) (localId : UInt32) : UdxSocket :=
  let h' := h.dropHandle (h.inner.streams.lookup localId)
  { h' with inner := { h.inner with streams := h.inner.streams.erase localId } }

/-- `UdxSocketInner::connect`. A handle that was registered under the id is replaced and dropped. -/
def connect (h : UdxSocket) (dest : SocketAddr) (localId remoteId : UInt32) : UdxSocket :=
  let h' := h.dropHandle (h.inner.streams.lookup localId)
  { h' with
    inner := { h.inner with streams := h.inner.streams.insert localId ⟨h.tasks.length⟩ }
    tasks := h'.tasks ++ [.connect h.clock dest remoteId localId] }

/-! ### Sending -/

/-- The `skip` flag of a packet, which its stream may have set since. -/
def skip (h : UdxSocket) (origin : Option Nat) : PacketRef → Bool
  | .owned packet => packet.skip
  | .shared packet =>
      match origin.bind fun n => h.tasks[n]? with
      | some u => packet.seq ∈ u.inner.skipped
      | none => packet.skip

def handleEvent (h : UdxSocket) (sent : Sent) : UdxSocket :=
  match sent.event with
  | .streamDropped localId => h.remove localId
  | .transmitDgram dgram =>
      { h with inner := { h.inner with
        outgoingTransmits := h.inner.outgoingTransmits ++ [dgram.intoTransmit] } }
  | .transmit set =>
      { h with inner := { h.inner with
        outgoingTransmits := h.inner.outgoingTransmits ++ [set.toTransmit (h.skip sent.origin)]
        outgoingPacketSets := h.inner.outgoingPacketSets ++ [(sent.origin, set)] } }

/-- The inner loop of `poll_transmit`: events are taken as long as there is room for transmits. It says
whether it has stopped because the channel had no more. -/
def takeEvents : Nat → UdxSocket → UdxSocket × Bool
  | budget, h =>
      if h.inner.outgoingTransmits.length < h.batchSize then
        match budget, h.inner.sendRx with
        | 0, _ => (h, true)
        | _ + 1, [] => (h, true)
        | budget + 1, sent :: rest =>
            takeEvents budget (({ h with inner := { h.inner with sendRx := rest } }).handleEvent sent)
      else (h, false)

/-- The data packets of a set get the time at which they were sent. -/
def stamp (h : UdxSocket) (sentAt : Nat) (origin : Option Nat) (set : PacketSet) : UdxSocket :=
  match origin with
  | none => h
  | some n => set.iterShared.foldl (fun h packet => h.modify n fun u => u.call (.markSent packet.seq sentAt)) h

/-- The UDP socket has taken the first `n` transmits. -/
def drain (h : UdxSocket) (n sentAt : Nat) : UdxSocket :=
  let stats := (h.inner.outgoingTransmits.take n).foldl SocketStats.trackTx h.inner.stats
  let h := { h with inner := { h.inner with
    outgoingTransmits := h.inner.outgoingTransmits.drop n
    stats := stats } }
  -- the packet sets have a queue of their own, from which as many are taken
  let n := min n h.inner.outgoingPacketSets.length
  let h' := (h.inner.outgoingPacketSets.take n).foldl (fun h entry => h.stamp sentAt entry.1 entry.2) h
  { h' with inner := { h.inner with outgoingPacketSets := h.inner.outgoingPacketSets.drop n } }

def pollTransmit (h : UdxSocket) (cx : SocketContext) : UdxSocket × Except IoError Bool :=
  let (h, sendRxPending) := h.takeEvents cx.budget
  if h.inner.outgoingTransmits.isEmpty then (h, .ok false)
  else
    match cx.sendOutcome with
    | .pending => (h, .ok false)
    | .interrupted =>
        -- send overflow, scale back the write rate
        ({ h with inner := { h.inner with sendOverflowTimer := some (h.clock + millis 20) } }, .ok false)
    | .failed err => (h, .error err)
    | .sent n => (h.drain n cx.sentAt, .ok !sendRxPending)

/-! ### Receiving -/

def onRecvDgram (h : UdxSocket) (data : List UInt8) (source : SocketAddr) : UdxSocket :=
  if h.inner.recvDgrams.length < recvQueueMaxLen then
    { h with inner := { h.inner with
      recvDgrams := h.inner.recvDgrams ++ [⟨data, source⟩]
      recvWaker := none
      woken := h.inner.recvWaker.toList ++ h.inner.woken } }
  else h

/-- Whether the receiving end of the channel of a stream still exists. -/
def receives (h : UdxSocket) (handle : StreamHandle) : Bool :=
  match h.tasks[handle.recvTx]? with
  | none => false
  | some u => u.strongCount ≠ 0

def countRx (h : UdxSocket) (data : List UInt8) : UdxSocket :=
  { h with inner := { h.inner with stats := { h.inner.stats with
    rxBytes := h.inner.stats.rxBytes + data.length
    rxDgrams := h.inner.stats.rxDgrams + 1 } } }

/-- The part of `process_packet` after the header was decoded. -/
def dispatch (h : UdxSocket) (header : Header) (data : List UInt8) (source : SocketAddr) :
    UdxSocket × Except (List UInt8) Unit :=
  match h.inner.streams.lookup header.streamId with
  | some handle =>
      if h.receives handle then
        (h.modify handle.recvTx fun u => u.step (.recv header (data.drop udxHeaderSize) source), .ok ())
      else (h.remove header.streamId, .ok ())
  | none => (h, .error data)

/-- A datagram that is not for a stream is given back. -/
def processPacket (h : UdxSocket) (data : List UInt8) (source : SocketAddr) :
    UdxSocket × Except (List UInt8) Unit :=
  match Header.fromBytes data with
  | .error _ => (h.countRx data, .error data)
  | .ok header => (h.countRx data).dispatch header data source

def receive (h : UdxSocket) (arrival : Arrival) : UdxSocket :=
  match h.processPacket arrival.data arrival.source with
  | (h, .ok ()) => h
  | (h, .error data) => h.onRecvDgram data arrival.source

/-- The loop of `poll_recv`; the UDP socket is pending after the last batch. -/
def recvLoop : Nat → List (Except IoError (List Arrival)) → UdxSocket → UdxSocket × Except IoError Bool
  | 0, _, h => (h, .ok true)
  | _ + 1, [], h => (h, .ok false)
  | _ + 1, .error err :: _, h => (h, .error err)
  | iters + 1, .ok arrivals :: rest, h => recvLoop iters rest (arrivals.foldl receive h)

def pollRecv (h : UdxSocket) (cx : SocketContext) : UdxSocket × Except IoError Bool :=
  recvLoop (maxLoop - 1) cx.received h

/-- `RecvFuture::poll`. -/
def recv (h : UdxSocket) (waker : Waker) : UdxSocket × Poll Dgram :=
  match h.inner.recvDgrams with
  | dgram :: rest => ({ h with inner := { h.inner with recvDgrams := rest } }, .ready dgram)
  | [] => ({ h with inner := { h.inner with recvWaker := some waker } }, .pending)

/-- `UdxSocket::send`. -/
def send (h : UdxSocket) (dest : SocketAddr) (buf : List UInt8) : UdxSocket :=
  { h with inner := { h.inner with sendRx := h.inner.sendRx ++ [⟨none, .transmitDgram ⟨buf, dest⟩⟩] } }

/-! ### Handles and the driver -/

/-- With the last reference the socket is freed: both ends of its channels are gone for the streams. -/
def release (h : UdxSocket) : UdxSocket :=
  if h.strongCount = 0 then { h with tasks := h.tasks.map fun u => u.call (.socketGone true true) } else h

/-- `Drop for UdxSocket`, run before the count goes down. -/
def onDrop (h : UdxSocket) : UdxSocket :=
  -- only the driver is left, shutdown
  if h.strongCount = 2 then
    { h with inner := { h.inner with
      hasRefs := false
      driveWaker := none
      woken := h.inner.driveWaker.toList ++ h.inner.woken } }
  else h

/-- The driver's own handle goes when its future is done. -/
def finish (h : UdxSocket) (result : Except IoError Unit) : UdxSocket :=
  ({ h.onDrop with driver := .finished result }).release

/-- How a poll of the driver ends. -/
def settle (h : UdxSocket) (cx : SocketContext) (shouldContinue : Bool) : UdxSocket :=
  if !shouldContinue && !h.inner.hasRefs && h.inner.streams.entries.isEmpty then h.finish (.ok ())
  else if shouldContinue then { h with inner := { h.inner with woken := cx.waker :: h.inner.woken } }
  else { h with inner := { h.inner with driveWaker := some cx.waker } }

/-- `SocketDriver::poll`. -/
def poll (h : UdxSocket) (cx : SocketContext) : UdxSocket :=
  match h.pollRecv cx with
  | (h, .error err) => h.finish (.error err)
  | (h, .ok shouldContinue) =>
      match h.inner.sendOverflowTimer with
      | some deadline =>
          if h.clock < deadline + cx.timerLag then h.settle cx shouldContinue
          else ({ h with inner := { h.inner with sendOverflowTimer := none } }).settle cx true
      | none =>
          match h.pollTransmit cx with
          | (h, .error err) => h.finish (.error err)
          | (h, .ok more) => h.settle cx (shouldContinue || more)

end UdxSocket

/-! ### Runs -/

/-- A call of the users or the runtime of a stream, not of its socket. -/
def Call.isOwn : Call → Bool
  | .tick _ | .markSent .. | .socketGone .. => false
  | _ => true

inductive SocketEvent
  | connect (dest : SocketAddr) (localId remoteId : UInt32)
  | stream (n : Nat) (c : Call)
  | send (dest : SocketAddr) (buf : List UInt8)
  | recv (waker : Waker)
  | clone
  | drop
  | poll (cx : SocketContext)
  | tick (elapsed : Nat)

namespace UdxSocket

/-- A call on a stream; what the stream sends joins the channel to the socket. -/
def callStream (h : UdxSocket) (n : Nat) (c : Call) : UdxSocket :=
  match h.tasks[n]? with
  | none => h
  | some u =>
      let events := (u.call c).inner.sendTx.events.drop u.inner.sendTx.events.length
      { h with
        tasks := h.tasks.set n (u.call c)
        inner := { h.inner with sendRx := h.inner.sendRx ++ events.map fun event => ⟨some n, event⟩ } }

/-- A call that needs a handle, or a driver that is still running, does nothing without it. -/
def step (h : UdxSocket) : SocketEvent → UdxSocket
  | .connect dest localId remoteId => if h.handles = 0 then h else h.connect dest localId remoteId
  | .stream n c => if c.isOwn then h.callStream n c else h
  | .send dest buf => if h.handles = 0 then h else h.send dest buf
  | .recv waker => if h.handles = 0 then h else (h.recv waker).1
  | .clone => if h.handles = 0 then h else { h with handles := h.handles + 1 }
  | .drop => if h.handles = 0 then h else ({ h.onDrop with handles := h.handles - 1 }).release
  | .poll cx => if h.isRunning then h.poll cx else h
  | .tick elapsed =>
      { h with clock := h.clock + elapsed, tasks := h.tasks.map fun u => u.call (.tick elapsed) }

end UdxSocket

end AsyncUdx
