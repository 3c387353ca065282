import AsyncUdx.BaseMap
import AsyncUdx.Wire

/-! One stream: its state and the functions that change it, one definition for each function of the
source. The state is passed explicitly; a function that returns a value returns it with the new state.

What a function reads from outside the stream is a field of `Context`: the clock, how long after its deadline
the timer counts as fired, how many messages the channel may hand out in one poll, and the segment limit of
the UDP socket. `Ghost` holds history variables: the functions write them and never read them. -/

namespace AsyncUdx

abbrev SeqMap (β : Type) := AList fun _ : UInt32 => β

def ssthresh : Nat := 0xffff
def maxSegments : Nat := 10

abbrev Waker := Nat

inductive Poll (α : Type)
  | pending
  | ready (value : α)
  deriving DecidableEq, Repr

/-- How a function of the driver fails: with an `io::Error`, or by a panic. -/
inductive Fault
  | io (error : IoError)
  | panic (message : String)
  deriving DecidableEq, Repr

inductive StreamState
  | opened
  | localClosed
  | remoteClosed
  | bothClosed
  deriving DecidableEq, Repr

namespace StreamState

def closeLocal : StreamState → StreamState
  | .remoteClosed | .bothClosed => .bothClosed
  | _ => .localClosed

def closeRemote : StreamState → StreamState
  | .localClosed | .bothClosed => .bothClosed
  | _ => .remoteClosed

def isLocalClosed : StreamState → Bool
  | .localClosed | .bothClosed => true
  | _ => false

def isRemoteClosed : StreamState → Bool
  | .remoteClosed | .bothClosed => true
  | _ => false

def isClosed (state : StreamState) : Bool := state.isLocalClosed || state.isRemoteClosed

end StreamState

structure StreamStats where
  txPackets : Nat := 0
  txBytes : Nat := 0
  rxBytes : Nat := 0
  rxPackets : Nat := 0
  inflightPackets : Nat := 0
  inflightBytes : Nat := 0
  deriving DecidableEq, Repr

/-- The receiving end of the channel on which the socket hands over packets. -/
structure RecvChannel where
  queue : List IncomingPacket := []
  closed : Bool := false
  deriving DecidableEq, Repr

/-- The sending end of the channel to the socket, with every event sent on it so far. -/
structure SendChannel where
  events : List EventOutgoing := []
  closed : Bool := false
  deriving DecidableEq, Repr

/-- A packet declared lost, when the timer that expired had been armed, and when the loss was declared. -/
structure Loss where
  packet : Packet
  armedAt : Nat
  declaredAt : Nat
  deriving DecidableEq, Repr

/-- History variables. -/
structure Ghost where
  /-- The wakers woken so far, latest first. -/
  woken : List Waker := []
  /-- The data packets created so far, oldest first. -/
  created : List Packet := []
  lost : List Loss := []
  /-- When the timer was last armed. -/
  armedAt : Nat
  /-- When the timer was armed before that, and for what deadline. -/
  armedBefore : Nat
  deadlineBefore : Nat
  /-- The close futures whose sender has fired or been dropped. -/
  resolved : List Nat := []
  /-- The kinds of the terminations so far, oldest first. -/
  reasons : List ErrorKind := []
  /-- Whether a `usize` subtraction went below zero. -/
  underflow : Bool := false
  /-- The sequence numbers of the data packets handled so far, repetitions included. -/
  received : List UInt32 := []
  /-- The payload kept under each sequence number, also after it was read. -/
  kept : SeqMap (List UInt8) := ∅
  /-- The slices put into read buffers so far, each with the number of its packet. -/
  delivered : List (UInt32 × List UInt8) := []

/-- Subtraction on `usize`, wrapping as it does without overflow checks. -/
def usizeSub (a b : Nat) : Nat := if b ≤ a then a - b else a + 2 ^ 64 - b

/-- The state of a stream. `skipped` stands for the `skip` flags of the data packets: a flag is set
when its packet leaves `outgoing`, and read later through the references the socket still holds. -/
structure UdxStreamInner where
  ghost : Ghost
  sendTx : SendChannel
  recvRx : RecvChannel
  incoming : SeqMap IncomingPacket
  outgoing : SeqMap Packet
  sendQueue : List PacketRef
  skipped : List UInt32
  remoteId : UInt32
  localId : UInt32
  remoteAddr : SocketAddr
  seq : UInt32
  ack : UInt32
  remoteAcked : UInt32
  inflight : Nat
  cwnd : Nat
  rto : Nat
  rtoTimeout : Nat
  rttvar : Nat
  srtt : Nat
  readCursor : UInt32
  readWaker : Option Waker
  writeWaker : Option Waker
  driveWaker : Option Waker
  error : Option UdxError
  onClose : Option Nat
  onFirewall : Option (SocketAddr → Bool)
  stats : StreamStats
  state : StreamState

structure Context where
  waker : Waker
  now : Nat
  timerLag : Nat
  budget : Nat
  maxGsoSegments : Nat
  deriving DecidableEq, Repr

namespace UdxStreamInner

/-- The state `UdxStream::connect` starts from. -/
def connect (now : Nat) (dest : SocketAddr) (remoteId localId : UInt32) : UdxStreamInner where
  sendTx := {}
  recvRx := {}
  incoming := ∅
  outgoing := ∅
  sendQueue := []
  skipped := []
  remoteId := remoteId
  localId := localId
  remoteAddr := dest
  seq := 0
  ack := 0
  remoteAcked := 0
  inflight := 0
  cwnd := 2 * udxMtu
  rto := millis 1000
  rtoTimeout := now + millis 1000
  rttvar := 0
  srtt := 0
  readCursor := 0
  readWaker := none
  writeWaker := none
  driveWaker := none
  error := none
  onClose := none
  onFirewall := none
  stats := {}
  state := .opened
  ghost := { armedAt := now, armedBefore := now, deadlineBefore := now + millis 1000 }

/-! ### Packets and termination -/

def createHeader (s : UdxStreamInner) (typ : UInt32) : Header where
  typ := if s.state.isLocalClosed then typ &&& udxHeaderEnd else typ
  dataOffset := 0
  streamId := s.remoteId
  recvWin := 0xffffffff
  seq := s.seq
  ack := s.ack

def createPacket (s : UdxStreamInner) (typ : UInt32) (body : List UInt8) : Packet :=
  Packet.new s.remoteAddr (s.createHeader typ) body

def wakeDriver (s : UdxStreamInner) : UdxStreamInner :=
  { s with
    driveWaker := none
    ghost := { s.ghost with woken := s.driveWaker.toList ++ s.ghost.woken } }

/-- Takes the reader's waker and wakes it, under a condition. -/
def wakeReader (s : UdxStreamInner) (condition : Bool) : UdxStreamInner :=
  { s with
    readWaker := if condition then none else s.readWaker
    ghost := { s.ghost with woken := (if condition then s.readWaker.toList else []) ++ s.ghost.woken } }

/-- Takes the writer's waker and wakes it, under a condition. -/
def wakeWriter (s : UdxStreamInner) (condition : Bool) : UdxStreamInner :=
  { s with
    writeWaker := if condition then none else s.writeWaker
    ghost := { s.ghost with woken := (if condition then s.writeWaker.toList else []) ++ s.ghost.woken } }

def sendStatePacket (s : UdxStreamInner) : UdxStreamInner :=
  let typ := if s.error.isSome then 0 ||| udxHeaderEnd else 0
  let packet := s.createPacket typ []
  let s := { s with sendQueue := s.sendQueue ++ [PacketRef.owned packet] }
  let s := s.wakeDriver
  { s with stats := { s.stats with txPackets := s.stats.txPackets + 1 } }

def terminate (s : UdxStreamInner) (error : UdxError) : UdxStreamInner :=
  let s := { s with
    error := some error
    ghost := { s.ghost with reasons := s.ghost.reasons ++ [error.kind] } }
  let s := { s with state := s.state.closeLocal }
  let s := s.sendStatePacket
  let s := s.wakeReader true
  let s := s.wakeWriter true
  s.wakeDriver

def closedAndDrained (s : UdxStreamInner) : Bool :=
  s.error.isSome && s.sendQueue.isEmpty && s.outgoing.entries.isEmpty

/-! ### Timeouts and retransmission -/

def resetTimer (s : UdxStreamInner) (now deadline : Nat) : UdxStreamInner :=
  { s with
    rtoTimeout := deadline
    ghost := { s.ghost with
      armedAt := now
      armedBefore := s.ghost.armedAt
      deadlineBefore := s.rtoTimeout } }

/-- One packet declared lost: its transmit count goes up and it waits for retransmission. -/
def park (s : UdxStreamInner) (now : Nat) (i : UInt32) (packet : Packet) : UdxStreamInner :=
  { s with
    outgoing := s.outgoing.insert i { packet with transmits := packet.transmits + 1, waiting := true }
    inflight := usizeSub s.inflight packet.len
    ghost := { s.ghost with
      lost := ⟨packet, s.ghost.armedBefore, now⟩ :: s.ghost.lost
      underflow := s.ghost.underflow || decide (s.inflight < packet.len) } }

/-- The loop of `poll_check_timeouts` over the sequence numbers not acknowledged yet. -/
def timeoutLoop (now : Nat) : List UInt32 → UdxStreamInner → UdxStreamInner × Except Fault Unit
  | [], s => (s, .ok ())
  | i :: rest, s =>
      match s.outgoing.lookup i with
      | none => timeoutLoop now rest s
      | some packet =>
          if packet.waiting then timeoutLoop now rest s
          else if packet.transmits > udxMaxTransmits then
            (s, .error (.io ⟨.timedOut, "Max retransmits reached without ack"⟩))
          else timeoutLoop now rest (s.park now i packet)

/-- The next timeout is scheduled and the window is shrunk. -/
def backOff (s : UdxStreamInner) (now : Nat) : UdxStreamInner :=
  let s := s.resetTimer now (now + 2 * s.rto)
  { s with cwnd := max udxMtu (s.cwnd / 2) }

def pollCheckTimeouts (s : UdxStreamInner) (cx : Context) : UdxStreamInner × Except Fault Unit :=
  if cx.now < s.rtoTimeout + cx.timerLag then (s, .ok ())
  else if s.remoteAcked = s.seq then (s, .ok ())
  else
    let s := s.backOff cx.now
    timeoutLoop cx.now (Counter.range s.remoteAcked s.seq) s

/-- One waiting packet put back on the send queue. -/
def requeue (s : UdxStreamInner) (now : Nat) (i : UInt32) (packet : Packet) : UdxStreamInner :=
  let packet := { packet with waiting := false, queuedAt := now :: packet.queuedAt }
  { s with
    outgoing := s.outgoing.insert i packet
    inflight := s.inflight + packet.len
    sendQueue := s.sendQueue ++ [PacketRef.shared packet] }

/-- The loop of `flush_waiting_packets`: it stops at the first packet that does not fit the window. -/
def flushLoop (now : Nat) : List UInt32 → UdxStreamInner → UdxStreamInner
  | [], s => s
  | i :: rest, s =>
      match s.outgoing.lookup i with
      | none => flushLoop now rest s
      | some packet =>
          if !packet.waiting then flushLoop now rest s
          else if s.inflight + packet.len > s.cwnd then s
          else flushLoop now rest (s.requeue now i packet)

def flushWaitingPackets (s : UdxStreamInner) (now : Nat) : UdxStreamInner :=
  flushLoop now (Counter.range s.remoteAcked s.seq) s

/-! ### Handing packets to the socket -/

def sendEvent (s : UdxStreamInner) (event : EventOutgoing) : UdxStreamInner :=
  { s with sendTx := { s.sendTx with events := s.sendTx.events ++ [event] } }

/-- The loop of `poll_transmit`: equal-sized packets are collected into sets. A set that cannot be
sent inside the loop is a panic, the last one is dropped with a warning. -/
def transmitLoop (limit : Nat) : List PacketRef → Nat → List PacketRef → UdxStreamInner →
    UdxStreamInner × Except Fault Unit
  | [], segmentSize, queue, s =>
      if queue.isEmpty || s.sendTx.closed then (s, .ok ())
      else (s.sendEvent (.transmit (PacketSet.new s.remoteAddr queue segmentSize)), .ok ())
  | packet :: rest, segmentSize, queue, s =>
      let s := { s with sendQueue := rest }
      if packet.deref.buf.len ≠ segmentSize ∨ queue.length = limit then
        if queue.isEmpty then transmitLoop limit rest packet.deref.buf.len [packet] s
        else if s.sendTx.closed then (s, .error (.panic "not implemented"))
        else
          transmitLoop limit rest packet.deref.buf.len [packet]
            (s.sendEvent (.transmit (PacketSet.new s.remoteAddr queue segmentSize)))
      else transmitLoop limit rest segmentSize (queue ++ [packet]) s

def pollTransmit (s : UdxStreamInner) (cx : Context) : UdxStreamInner × Except Fault Unit :=
  transmitLoop (min cx.maxGsoSegments maxSegments) s.sendQueue 0 [] s

/-! ### Acknowledgements -/

/-- The two moving averages after a round trip sample: `srtt`, then `rttvar`. -/
def estimate (srtt rttvar rtt : Nat) : Nat × Nat :=
  if srtt = 0 then (rtt, rtt / 2)
  else
    let delta := if rtt < srtt then srtt - rtt else rtt - srtt
    ((7 * srtt + rtt) / 8, (3 * rttvar + delta) / 4)

/-- `srtt`, `rttvar` and `rto` after an acknowledgement, recalculated when it gives a sample. The value
the source gives `rto` on the first sample is overwritten right away. -/
def timings (srtt rttvar rto : Nat) : Option Nat → Nat × Nat × Nat
  | none => (srtt, rttvar, rto)
  | some rtt =>
      let (srtt, rttvar) := estimate srtt rttvar rtt
      (srtt, rttvar, max (millis 1000) (srtt + max udxClockGranularityMs (4 * rttvar)))

def recalculate (s : UdxStreamInner) (sample : Option Nat) : UdxStreamInner :=
  { s with
    srtt := (timings s.srtt s.rttvar s.rto sample).1
    rttvar := (timings s.srtt s.rttvar s.rto sample).2.1
    rto := (timings s.srtt s.rttvar s.rto sample).2.2 }

/-- The round trip time a packet gives when it is acknowledged: the time since the instant it was stamped with. -/
def rttSample (now : Nat) (packet : Packet) : Option Nat :=
  if packet.transmits = 1 then packet.timeSent.map fun sent => now - sent else none

def handleRemoteAckForPacket (s : UdxStreamInner) (now : Nat) (packet : Packet) : UdxStreamInner :=
  let s := { s with
    inflight := if packet.waiting then s.inflight else usizeSub s.inflight packet.buf.len
    stats := { s.stats with
      inflightBytes := usizeSub s.stats.inflightBytes packet.dataLen
      inflightPackets := usizeSub s.stats.inflightPackets 1 }
    ghost := { s.ghost with
      underflow := s.ghost.underflow || (!packet.waiting && decide (s.inflight < packet.buf.len)) ||
        decide (s.stats.inflightBytes < packet.dataLen) || decide (s.stats.inflightPackets < 1) } }
  let s := s.recalculate (rttSample now packet)
  { s with skipped := packet.seq :: s.skipped }

/-- Takes one packet out of `outgoing`, if it is there, and accounts for it. -/
def ackPacket (s : UdxStreamInner) (now : Nat) (i : UInt32) : UdxStreamInner :=
  match s.outgoing.lookup i with
  | some packet => ({ s with outgoing := s.outgoing.erase i }).handleRemoteAckForPacket now packet
  | none => s

/-- One round of the loop of `handle_incoming_max_remote_ack`. -/
def ackNext (s : UdxStreamInner) (now : Nat) : UdxStreamInner :=
  let s := { s with remoteAcked := s.remoteAcked + 1 }
  s.ackPacket now (s.remoteAcked - 1)

def ackLoop (now : Nat) : Nat → UdxStreamInner → UdxStreamInner
  | 0, s => s
  | n + 1, s => ackLoop now n (s.ackNext now)

def handleIncomingMaxRemoteAck (s : UdxStreamInner) (now : Nat) (ack : UInt32) : UdxStreamInner :=
  if ack ≤ s.remoteAcked then s
  else
    let s := ackLoop now (ack.toNat - s.remoteAcked.toNat) s
    let s := s.wakeWriter (s.inflight + udxMtu ≤ s.cwnd)
    -- reset rto, since things are moving forward
    s.resetTimer now (now + s.rto)

/-- The loop of `handle_incoming_sacks`; each round reads one record, so the length is fuel enough. -/
def sackLoop (now : Nat) (buf : List UInt8) : Nat → Nat → UdxStreamInner → UdxStreamInner
  | 0, _, s => s
  | fuel + 1, i, s =>
      if i + 8 < buf.length then
        let start := readU32Le (slice buf i (i + 4))
        let stop := readU32Le (slice buf (i + 4) (i + 8))
        sackLoop now buf fuel (i + 8) ((Counter.range start stop).foldl (fun s i => s.ackPacket now i) s)
      else s

def handleIncomingSacks (s : UdxStreamInner) (now : Nat) (packet : IncomingPacket) : UdxStreamInner :=
  sackLoop now packet.buf packet.buf.length 0 s

/-! ### Incoming packets -/

/-- `while incoming.contains_key(&ack) { ack += 1 }`. The counter has `2 ^ 32` values, so the loop
takes fewer rounds unless every one of them is a key, when it never ends. -/
def advanceAck (incoming : SeqMap IncomingPacket) : Nat → UInt32 → UInt32
  | 0, ack => ack
  | fuel + 1, ack => if ack ∈ incoming then advanceAck incoming fuel (ack + 1) else ack

/-- The part of `handle_incoming` that processes incoming data. -/
def handleIncomingData (s : UdxStreamInner) (packet : IncomingPacket) : UdxStreamInner :=
  let s := { s with stats := { s.stats with rxBytes := s.stats.rxBytes + packet.dataLen } }
  let seq := packet.seq
  let s := { s with ghost := { s.ghost with
    received := s.ghost.received ++ [seq]
    kept := if s.ack ≤ seq then s.ghost.kept.insert seq packet.buf else s.ghost.kept } }
  -- ignore packets older than what we acked already
  let s := { s with incoming := if s.ack ≤ seq then s.incoming.insert seq packet else s.incoming }
  let s := { s with ack := advanceAck s.incoming (2 ^ 32) s.ack }
  let s := s.wakeReader (seq ≤ s.ack)
  s.sendStatePacket

/-- The part of `handle_incoming` that opens the congestion window. -/
def congestionControl (s : UdxStreamInner) (header : Header) : UdxStreamInner :=
  { s with
    cwnd :=
      -- check if received ack is out of bounds
      if header.ack > s.seq then s.cwnd
      else if header.ack > s.remoteAcked then
        if s.cwnd < ssthresh then s.cwnd + udxMtu else s.cwnd + max ((udxMtu * udxMtu) / s.cwnd) 1
      else s.cwnd }

def firewallPass (s : UdxStreamInner) (source : SocketAddr) : Bool :=
  (s.onFirewall.map fun onFirewall => onFirewall source).getD true

/-- The part of `handle_incoming` for the END flag. -/
def handleIncomingEnd (s : UdxStreamInner) : UdxStreamInner :=
  let s := { s with state := s.state.closeRemote }
  s.terminate UdxError.closedByRemote

def handleIncoming (s : UdxStreamInner) (now : Nat) (packet : IncomingPacket) : UdxStreamInner :=
  if !s.firewallPass packet.source then s
  else
    let s := { s with stats := { s.stats with rxPackets := s.stats.rxPackets + 1 } }
    let s := if packet.hasType udxHeaderSack then s.handleIncomingSacks now packet else s
    let s := if packet.hasType udxHeaderEnd then s.handleIncomingEnd else s
    let s := if packet.hasType udxHeaderData then s.handleIncomingData packet else s
    s.congestionControl packet.header

/-- The loop of `poll_incoming`: the acknowledgements are collected and applied after the last packet.
`poll_recv` reports an empty channel as pending, unless it is closed, and reports pending as well once
the cooperative budget of the poll is used up. -/
def incomingLoop (now : Nat) : Nat → UInt32 → UdxStreamInner → UdxStreamInner × Except Fault Unit
  | 0, remoteAck, s => (s.handleIncomingMaxRemoteAck now remoteAck, .ok ())
  | budget + 1, remoteAck, s =>
      match s.recvRx.queue with
      | [] =>
          if s.recvRx.closed then (s, .error (.io ⟨.brokenPipe, "Socket driver future was dropped"⟩))
          else (s.handleIncomingMaxRemoteAck now remoteAck, .ok ())
      | packet :: rest =>
          let s := { s with recvRx := { s.recvRx with queue := rest } }
          incomingLoop now budget (Counter.larger remoteAck packet.ack) (s.handleIncoming now packet)

def pollIncoming (s : UdxStreamInner) (cx : Context) : UdxStreamInner × Except Fault Unit :=
  incomingLoop cx.now cx.budget 0 s

/-! ### The driver -/

def pollDrive (s : UdxStreamInner) (cx : Context) : UdxStreamInner × Except Fault Bool :=
  match s.pollIncoming cx with
  | (s, .error fault) => (s, .error fault)
  | (s, .ok ()) =>
      match s.pollCheckTimeouts cx with
      | (s, .error fault) => (s, .error fault)
      | (s, .ok ()) =>
          let s := s.flushWaitingPackets cx.now
          match s.pollTransmit cx with
          | (s, .error fault) => (s, .error fault)
          | (s, .ok ()) => (s, .ok false)

inductive DriverPoll
  | ready
  | pending
  | panicked
  deriving DecidableEq, Repr

/-- The completion of the driver: the close future is resolved and the socket is told. -/
def complete (s : UdxStreamInner) : UdxStreamInner :=
  let s := { s with
    onClose := none
    ghost := { s.ghost with resolved := s.onClose.toList ++ s.ghost.resolved } }
  s.sendEvent (.streamDropped s.localId)

/-- `StreamDriver::poll`. -/
def pollDriver (s : UdxStreamInner) (cx : Context) : UdxStreamInner × DriverPoll :=
  let s := { s with driveWaker := none }
  if s.closedAndDrained then (s.complete, .ready)
  else
    match s.pollDrive cx with
    | (s, .ok shouldContinue) =>
        if shouldContinue then
          ({ s with ghost := { s.ghost with woken := cx.waker :: s.ghost.woken } }, .pending)
        else ({ s with driveWaker := some cx.waker }, .pending)
    | (s, .error (.io err)) =>
        let s := s.terminate (UdxError.ofIo err)
        ({ s with ghost := { s.ghost with woken := cx.waker :: s.ghost.woken } }, .pending)
    | (s, .error (.panic _)) => (s, .panicked)

/-! ### Reading and writing -/

/-- `remaining` more bytes of a packet are read, and the rest of it goes back into the map. -/
def readPart (s : UdxStreamInner) (packet : IncomingPacket) (remaining : Nat) : UdxStreamInner :=
  let stop := packet.readOffset + remaining
  { s with
    incoming := (s.incoming.erase s.readCursor).insert packet.header.seq { packet with readOffset := stop }
    ghost := { s.ghost with
      delivered := s.ghost.delivered ++ [(s.readCursor, slice packet.buf packet.readOffset stop)] } }

/-- A packet is read to its end. -/
def readWhole (s : UdxStreamInner) (packet : IncomingPacket) : UdxStreamInner :=
  { s with
    incoming := s.incoming.erase s.readCursor
    readCursor := s.readCursor + 1
    ghost := { s.ghost with
      delivered := s.ghost.delivered ++ [(s.readCursor, packet.buf.drop packet.readOffset)] } }

/-- The loop of `read_next` over a buffer with `remaining` bytes of room. It returns the bytes put into the
buffer and whether a packet was read to its end. Each round takes a key out of the map, so its size is
fuel enough. -/
def readLoop : Nat → Nat → UdxStreamInner → UdxStreamInner × List UInt8 × Bool
  | 0, _, s => (s, [], false)
  | fuel + 1, remaining, s =>
      match s.incoming.lookup s.readCursor with
      | none => (s, [], false)
      | some packet =>
          let start := packet.readOffset
          let len := usizeSub packet.buf.length start
          if len > remaining then
            (s.readPart packet remaining, slice packet.buf start (start + remaining), false)
          else
            let next := readLoop fuel (remaining - len) (s.readWhole packet)
            (next.1, packet.buf.drop start ++ next.2.1, true)

def readNext (s : UdxStreamInner) (remaining : Nat) : UdxStreamInner × List UInt8 × Bool :=
  readLoop s.incoming.size remaining s

def pollRead (s : UdxStreamInner) (waker : Waker) (remaining : Nat) :
    UdxStreamInner × List UInt8 × Poll (Except IoError Unit) :=
  match s.readNext remaining with
  | (s, bytes, true) => (s, bytes, .ready (.ok ()))
  | (s, bytes, false) =>
      match s.error with
      | some error => (s, bytes, .ready (.error error.toIo))
      | none => ({ s with readWaker := some waker }, bytes, .pending)

/-- The state after `send_data_packet` has admitted `body`. -/
def pushData (s : UdxStreamInner) (now : Nat) (body : List UInt8) : UdxStreamInner :=
  let packet := { s.createPacket udxHeaderData body with queuedAt := [now] }
  let s := { s with seq := s.seq + 1 }
  let s := { s with
    stats := { s.stats with
      inflightBytes := s.stats.inflightBytes + packet.dataLen
      txBytes := s.stats.txBytes + packet.dataLen
      txPackets := s.stats.txPackets + 1
      inflightPackets := s.stats.inflightPackets + 1 } }
  let s := { s with outgoing := s.outgoing.insert packet.seq packet }
  let s := { s with
    inflight := s.inflight + packet.buf.len
    sendQueue := s.sendQueue ++ [PacketRef.shared packet]
    ghost := { s.ghost with created := s.ghost.created ++ [packet] } }
  s.wakeDriver

def sendDataPacket (s : UdxStreamInner) (now : Nat) (buf : List UInt8) : UdxStreamInner × Nat :=
  let len := min buf.length udxMaxDataSize
  if s.inflight + len > s.cwnd then (s, 0) else (s.pushData now (buf.take len), len)

/-- The loop of `poll_write`. A round that goes on has written at least a byte, so the length of the
buffer is fuel enough. -/
def writeLoop (now : Nat) (waker : Waker) (buf : List UInt8) :
    Nat → Nat → UdxStreamInner → UdxStreamInner × Poll (Except IoError Nat)
  | 0, written, s => (s, .ready (.ok written))
  | fuel + 1, written, s =>
      if written ≥ buf.length then (s, .ready (.ok written))
      else
        let sent := s.sendDataPacket now (buf.drop written)
        if sent.2 = 0 then
          if written = 0 then ({ sent.1 with writeWaker := some waker }, .pending)
          else (sent.1, .ready (.ok written))
        else writeLoop now waker buf fuel (written + sent.2) sent.1

def pollWrite (s : UdxStreamInner) (now : Nat) (waker : Waker) (buf : List UInt8) :
    UdxStreamInner × Poll (Except IoError Nat) :=
  match s.error with
  | some error => (s, .ready (.error error.toIo))
  | none =>
      if buf.isEmpty then (s, .ready (.ok 0))
      else writeLoop now waker buf (buf.length + 1) 0 s

end UdxStreamInner

end AsyncUdx
