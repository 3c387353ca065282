import AsyncUdx.BaseCounter
import Mathlib.Tactic.Common

/-! The wire format: the constants, the error values, the packet header with its byte codec, and the
packets a stream builds and receives. The codec is followed down to the bytes, so that what one stream
puts on the network is what the other one decodes. -/

namespace AsyncUdx

/-! ### Constants -/

def udxHeaderData : UInt32 := 1
def udxHeaderEnd : UInt32 := 2
def udxHeaderSack : UInt32 := 4

/-- Max transmit attempts per packet. -/
def udxMaxTransmits : Nat := 5

def udxHeaderSize : Nat := 20
def udxMaxDataSize : Nat := 1380
def udxMagicByte : UInt8 := 255
def udxVersion : UInt8 := 1
def udxMtu : Nat := 1400

/-- Durations and instants are whole nanoseconds. -/
def millis (n : Nat) : Nat := n * 1000000

def udxClockGranularityMs : Nat := millis 20

/-! ### Errors -/

/-- The kinds of `io::Error` that streams and sockets report, and the others that the kernel and the reactor have. -/
inductive ErrorKind
  | connectionReset
  | unexpectedEof
  | timedOut
  | brokenPipe
  | invalidData
  | interrupted
  | other (code : Nat)
  deriving DecidableEq, Repr

structure IoError where
  kind : ErrorKind
  message : String
  deriving DecidableEq, Repr

structure UdxError where
  kind : ErrorKind
  reason : String
  deriving DecidableEq, Repr

namespace UdxError

def closeGraceful : UdxError := ⟨.connectionReset, ""⟩

def closedByRemote : UdxError := ⟨.unexpectedEof, ""⟩

/-- `From<io::Error>`: the message becomes the reason. -/
def ofIo (err : IoError) : UdxError := ⟨err.kind, err.message⟩

def toIo (err : UdxError) : IoError := ⟨err.kind, err.reason⟩

end UdxError

/-! ### Addresses -/

inductive IpAddr
  | v4 (bits : UInt32)
  | v6 (bits : BitVec 128)
  deriving DecidableEq, Repr

structure SocketAddr where
  ip : IpAddr
  port : UInt16
  deriving DecidableEq, Repr

/-! ### The header codec -/

structure Header where
  typ : UInt32
  dataOffset : Nat
  streamId : UInt32
  recvWin : UInt32
  seq : UInt32
  ack : UInt32
  deriving DecidableEq, Repr

/-- `u32::to_le_bytes`. -/
def toLeBytes (x : UInt32) : List UInt8 :=
  [UInt8.ofNat x.toNat, UInt8.ofNat (x.toNat / 2 ^ 8), UInt8.ofNat (x.toNat / 2 ^ 16),
    UInt8.ofNat (x.toNat / 2 ^ 24)]

/-- `u32::from_le_bytes`. Every caller passes a slice of four bytes; the source panics on another length. -/
def readU32Le (buf : List UInt8) : UInt32 :=
  UInt32.ofNat (buf.foldr (fun byte rest => byte.toNat + 2 ^ 8 * rest) 0)

/-- `buf[start..stop]`. -/
def slice (buf : List UInt8) (start stop : Nat) : List UInt8 := (buf.drop start).take (stop - start)

/-- `buf[start..start + src.len()].copy_from_slice(src)`. -/
def copyFromSlice (buf : List UInt8) (start : Nat) (src : List UInt8) : List UInt8 :=
  buf.take start ++ src ++ buf.drop (start + src.length)

namespace Header

def fromBytes (buf : List UInt8) : Except IoError Header :=
  if buf.length < udxHeaderSize ∨ buf.getD 0 0 ≠ udxMagicByte ∨ buf.getD 1 0 ≠ udxVersion then
    .error ⟨.invalidData, "Bad header"⟩
  else
    .ok {
      typ := (buf.getD 2 0).toUInt32
      dataOffset := (buf.getD 3 0).toNat
      streamId := readU32Le (slice buf 4 8)
      recvWin := readU32Le (slice buf 8 12)
      seq := readU32Le (slice buf 12 16)
      ack := readU32Le (slice buf 16 20) }

/-- Writes the header into a buffer and says whether there was room for it. -/
def encode (header : Header) (buf : List UInt8) : Bool × List UInt8 :=
  if buf.length < udxHeaderSize then (false, buf)
  else
    let buf := copyFromSlice buf 0 [udxMagicByte]
    let buf := copyFromSlice buf 1 [udxVersion]
    let buf := copyFromSlice buf 2 [header.typ.toUInt8]
    let buf := copyFromSlice buf 3 [UInt8.ofNat header.dataOffset]
    let buf := copyFromSlice buf 4 (toLeBytes header.streamId)
    let buf := copyFromSlice buf 8 (toLeBytes header.recvWin)
    let buf := copyFromSlice buf 12 (toLeBytes header.seq)
    let buf := copyFromSlice buf 16 (toLeBytes header.ack)
    (true, buf)

end Header

theorem readU32Le_toLeBytes (x : UInt32) : readU32Le (toLeBytes x) = x := by
  have hx := x.toNat_lt
  apply UInt32.toNat.inj
  simp only [readU32Le, toLeBytes, List.foldr_cons, List.foldr_nil, UInt8.toNat_ofNat', UInt32.toNat_ofNat']
  omega

/-- The twenty bytes a header is written as. -/
def Header.bytes (header : Header) : List UInt8 :=
  [udxMagicByte, udxVersion, header.typ.toUInt8, UInt8.ofNat header.dataOffset] ++
    toLeBytes header.streamId ++ toLeBytes header.recvWin ++ toLeBytes header.seq ++ toLeBytes header.ack

theorem Header.bytes_length (header : Header) : header.bytes.length = udxHeaderSize := rfl

theorem Header.encode_zeros (header : Header) :
    header.encode (List.replicate udxHeaderSize 0) = (true, header.bytes) := by
  simp [Header.encode, Header.bytes, copyFromSlice, toLeBytes, udxHeaderSize]

/-- **Decoding inverts encoding.** The type and the data offset are written as single bytes, so they
have to fit one. -/
theorem Header.fromBytes_bytes (header : Header) (body : List UInt8)
    (htyp : header.typ < 256) (hoffset : header.dataOffset < 256) :
    Header.fromBytes (header.bytes ++ body) = .ok header := by
  have hlen : ¬(header.bytes ++ body).length < udxHeaderSize := by
    rw [List.length_append, Header.bytes_length]
    omega
  have htyp' : header.typ.toUInt8.toUInt32 = header.typ := by
    apply UInt32.toNat.inj
    have := UInt32.lt_iff_toNat_lt.mp htyp
    simp only [UInt8.toNat_toUInt32, UInt32.toNat_toUInt8]
    exact Nat.mod_eq_of_lt this
  have hoffset' : (UInt8.ofNat header.dataOffset).toNat = header.dataOffset := by
    rw [UInt8.toNat_ofNat']
    exact Nat.mod_eq_of_lt hoffset
  rw [Header.fromBytes, if_neg (by rintro (h | h | h); exacts [hlen h, h rfl, h rfl])]
  change Except.ok (Header.mk header.typ.toUInt8.toUInt32 (UInt8.ofNat header.dataOffset).toNat
    (readU32Le (toLeBytes header.streamId)) (readU32Le (toLeBytes header.recvWin))
    (readU32Le (toLeBytes header.seq)) (readU32Le (toLeBytes header.ack))) = _
  simp only [readU32Le_toLeBytes, htyp', hoffset']

/-! ### Packets -/

/-- The bytes of a packet: a vector, or a bare header in a fixed array. -/
inductive PacketBuf
  | data (vec : List UInt8)
  | headerOnly (array : { bytes : List UInt8 // bytes.length = udxHeaderSize })
  deriving DecidableEq, Repr

namespace PacketBuf

def asSlice : PacketBuf → List UInt8
  | .data vec => vec
  | .headerOnly array => array.val

def len (buf : PacketBuf) : Nat := buf.asSlice.length

end PacketBuf

/-- A packet built by a stream. The atomics `waiting`, `skip`, `time_sent` and `transmits` are plain
fields; `queuedAt` is a history variable, the instants at which the packet was put on the send queue,
latest first. -/
structure Packet where
  waiting : Bool
  skip : Bool
  timeSent : Option Nat
  transmits : Nat
  dest : SocketAddr
  header : Header
  buf : PacketBuf
  queuedAt : List Nat
  deriving DecidableEq, Repr

namespace Packet

def new (dest : SocketAddr) (header : Header) (body : List UInt8) : Packet where
  waiting := false
  skip := false
  timeSent := none
  transmits := 0
  dest := dest
  header := header
  buf :=
    if body.isEmpty then
      .headerOnly ⟨(header.encode (List.replicate udxHeaderSize 0)).2, by rw [header.encode_zeros]; rfl⟩
    else .data ((header.encode (List.replicate udxHeaderSize 0)).2 ++ body)
  queuedAt := []

def seq (packet : Packet) : UInt32 := packet.header.seq

def len (packet : Packet) : Nat := packet.buf.len

def dataLen (packet : Packet) : Nat := packet.buf.len - udxHeaderSize

/-- The bytes after the header. -/
def body (packet : Packet) : List UInt8 := packet.buf.asSlice.drop udxHeaderSize

theorem new_asSlice (dest : SocketAddr) (header : Header) (body : List UInt8) :
    (new dest header body).buf.asSlice = header.bytes ++ body := by
  cases body with
  | nil => simp [new, PacketBuf.asSlice, header.encode_zeros]
  | cons byte rest => simp [new, PacketBuf.asSlice, header.encode_zeros]

theorem new_body (dest : SocketAddr) (header : Header) (bytes : List UInt8) :
    (new dest header bytes).body = bytes := by
  rw [body, new_asSlice, ← header.bytes_length, List.drop_left]

theorem new_len (dest : SocketAddr) (header : Header) (bytes : List UInt8) :
    (new dest header bytes).len = udxHeaderSize + bytes.length := by
  rw [len, PacketBuf.len, new_asSlice, List.length_append, header.bytes_length]

end Packet

/-- A queued packet: a state packet owned by the queue, or a data packet shared with `outgoing`. The
atomics of a shared packet live in `outgoing`; through the queue only its header and bytes are read. -/
inductive PacketRef
  | owned (packet : Packet)
  | shared (packet : Packet)
  deriving DecidableEq, Repr

def PacketRef.deref : PacketRef → Packet
  | .owned packet => packet
  | .shared packet => packet

structure PacketSet where
  dest : SocketAddr
  segmentSize : Option Nat
  packets : List PacketRef
  deriving DecidableEq, Repr

def PacketSet.new (dest : SocketAddr) (packets : List PacketRef) (segmentSize : Nat) : PacketSet :=
  ⟨dest, some segmentSize, packets⟩

structure Dgram where
  buf : List UInt8
  dest : SocketAddr
  deriving DecidableEq, Repr

/-- What streams and user sends hand to the socket driver. -/
inductive EventOutgoing
  | transmit (set : PacketSet)
  | transmitDgram (dgram : Dgram)
  | streamDropped (localId : UInt32)
  deriving DecidableEq, Repr

structure IncomingPacket where
  header : Header
  buf : List UInt8
  readOffset : Nat
  source : SocketAddr
  deriving DecidableEq, Repr

namespace IncomingPacket

def ack (packet : IncomingPacket) : UInt32 := packet.header.ack

def seq (packet : IncomingPacket) : UInt32 := packet.header.seq

def hasType (packet : IncomingPacket) (typ : UInt32) : Bool := packet.header.typ &&& typ != 0

def dataLen (packet : IncomingPacket) : Nat := packet.buf.length

/-- What the socket makes of a datagram that carries a header: the header is decoded and split off. -/
def ofDatagram (source : SocketAddr) (data : List UInt8) : Except IoError IncomingPacket :=
  (Header.fromBytes data).map fun header => ⟨header, data.drop udxHeaderSize, 0, source⟩

end IncomingPacket

/-- A packet whose bytes decode to its own header. -/
def Packet.Encoded (packet : Packet) : Prop := Header.fromBytes packet.buf.asSlice = .ok packet.header

theorem Packet.new_encoded (dest : SocketAddr) (header : Header) (body : List UInt8)
    (htyp : header.typ < 256) (hoffset : header.dataOffset < 256) :
    (Packet.new dest header body).Encoded := by
  rw [Packet.Encoded, Packet.new_asSlice]
  exact header.fromBytes_bytes body htyp hoffset

/-- A datagram made of an encoded packet arrives as that packet. -/
theorem IncomingPacket.ofDatagram_encoded {packet : Packet} (h : packet.Encoded) (source : SocketAddr) :
    IncomingPacket.ofDatagram source packet.buf.asSlice = .ok ⟨packet.header, packet.body, 0, source⟩ := by
  rw [IncomingPacket.ofDatagram, h]
  rfl

end AsyncUdx
