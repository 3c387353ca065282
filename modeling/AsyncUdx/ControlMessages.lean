import AsyncUdx.BaseRecords
import AsyncUdx.HostSegments

/-! The control messages that go with a datagram through `sendmsg` and `recvmsg`. They lie one after the other in a
buffer of fixed size, each behind a header with its length and padded to eight bytes. The encoder has to find room for
every option of a transmit, and `decode_recv` finds its way through what the kernel has written by the lengths alone.
The layout of `cmsghdr` is that of Linux with 64 bits, least significant byte first. What the C library makes of such a
buffer and how the standard library lays out addresses are parameters, with what is assumed of them. -/

namespace AsyncUdx

open Records

/-! ### Buffers of control messages -/

/-- A message header, as far as control messages go: the bytes at `msg_control`, and `msg_controllen`. -/
structure MsgHdr where
  control : List UInt8
  controllen : Nat
  deriving DecidableEq, Repr

/-- The size of `cmsghdr`: a length of eight bytes, a level and a type of four bytes each. -/
def cmsghdrSize : Nat := 16

def cmsghdrAlign : Nat := 8

/-- Messages begin at multiples of eight bytes. -/
def padded (len : Nat) : Nat := (len + 7) / 8 * 8

/-- The room that a message with so many bytes of payload takes. -/
def recordSize (length : Nat) : Nat := cmsghdrSize + padded length

namespace MsgHdr

/-! A pointer to a `cmsghdr` is its offset in the buffer. -/

def lenAt (hdr : MsgHdr) (cmsg : Nat) : Nat := leValue (slice hdr.control cmsg (cmsg + 8))

def levelAt (hdr : MsgHdr) (cmsg : Nat) : UInt32 := readU32Le (slice hdr.control (cmsg + 8) (cmsg + 12))

def typeAt (hdr : MsgHdr) (cmsg : Nat) : UInt32 := readU32Le (slice hdr.control (cmsg + 12) (cmsg + 16))

/-- The message at an offset has a header, and lies within the buffer. -/
structure ValidAt (hdr : MsgHdr) (cmsg : Nat) : Prop where
  size : cmsghdrSize ≤ hdr.lenAt cmsg
  within : cmsg + hdr.lenAt cmsg ≤ hdr.controllen

end MsgHdr

/-! ### The C library and the standard library -/

/-- What the source takes from the C library: `CMSG_SPACE`, `CMSG_LEN`, `CMSG_DATA`, `CMSG_FIRSTHDR` and `CMSG_NXTHDR`,
and the numbers of the levels, types and families. -/
structure Libc where
  cmsgSpace : Nat → Nat
  cmsgLen : Nat → Nat
  cmsgData : Nat → Nat
  cmsgFirsthdr : MsgHdr → Option Nat
  cmsgNxthdr : MsgHdr → Nat → Option Nat
  ipprotoIp : UInt32
  ipprotoIpv6 : UInt32
  solUdp : UInt32
  ipTos : UInt32
  ipPktinfo : UInt32
  ipRecvtos : UInt32
  ipv6Pktinfo : UInt32
  ipv6Tclass : UInt32
  udpSegment : UInt32
  afInet : Nat
  afInet6 : Nat

/-- What is assumed of the C library. Libraries differ in whether `CMSG_NXTHDR` looks at the length in the next header,
and in what it makes of a message that does not lie within the buffer; nothing is assumed of either. -/
structure Libc.Lawful (lib : Libc) : Prop where
  space : ∀ length < 2 ^ 16, lib.cmsgSpace length = recordSize length
  len : ∀ length < 2 ^ 16, lib.cmsgLen length = cmsghdrSize + length
  data : ∀ cmsg, lib.cmsgData cmsg = cmsg + cmsghdrSize
  first : ∀ hdr, lib.cmsgFirsthdr hdr = if cmsghdrSize ≤ hdr.controllen then some 0 else none
  /-- Behind a message without room for another header there is none. -/
  last : ∀ hdr cmsg, hdr.ValidAt cmsg → hdr.controllen < cmsg + padded (hdr.lenAt cmsg) + cmsghdrSize →
    lib.cmsgNxthdr hdr cmsg = none
  /-- Behind a message with room for another header there is one, unless its length says otherwise. -/
  next : ∀ hdr cmsg, hdr.ValidAt cmsg → cmsg + padded (hdr.lenAt cmsg) + cmsghdrSize ≤ hdr.controllen →
    cmsg + padded (hdr.lenAt cmsg) + padded (hdr.lenAt (cmsg + padded (hdr.lenAt cmsg))) ≤ hdr.controllen →
    lib.cmsgNxthdr hdr cmsg = some (cmsg + padded (hdr.lenAt cmsg))
  ip_ne_ipv6 : lib.ipprotoIp ≠ lib.ipprotoIpv6
  udp_ne_ip : lib.solUdp ≠ lib.ipprotoIp
  udp_ne_ipv6 : lib.solUdp ≠ lib.ipprotoIpv6
  tos_ne_pktinfo : lib.ipTos ≠ lib.ipPktinfo
  recvtos_ne_pktinfo : lib.ipRecvtos ≠ lib.ipPktinfo
  tclass_ne_pktinfo : lib.ipv6Tclass ≠ lib.ipv6Pktinfo

/-- What `ptr::read` makes of bytes as one of the address types of the standard library, whose layout is its own. -/
structure AddrRepr where
  ipv4Addr : List UInt8 → IpAddr
  ipv6Addr : List UInt8 → IpAddr
  socketAddrV4 : List UInt8 → SocketAddr
  socketAddrV6 : List UInt8 → SocketAddr

/-! ### `cmsg.rs` -/

/-- The size and the alignment of a type. -/
structure Layout where
  size : Nat
  align : Nat
  deriving DecidableEq, Repr

/-- The text of the assertions that a type is not aligned more strictly than `cmsghdr`. -/
def alignmentPanic : String := "assertion failed: mem::align_of::<T>() <= mem::align_of::<libc::cmsghdr>()"

/-- Helper to encode a series of control messages to a buffer for use in `sendmsg`. -/
structure Encoder where
  hdr : MsgHdr
  cmsg : Option Nat
  len : Nat
  deriving DecidableEq, Repr

namespace Encoder

def new (lib : Libc) (hdr : MsgHdr) : Encoder := ⟨hdr, lib.cmsgFirsthdr hdr, 0⟩

/-- Append a control message to the buffer. The source panics with the text of the error. -/
def push (lib : Libc) (encoder : Encoder) (align : Nat) (level ty : UInt32) (value : List UInt8) :
    Except String Encoder :=
  let required := encoder.len + lib.cmsgSpace value.length
  let available := encoder.hdr.controllen
  if cmsghdrAlign < align then .error alignmentPanic
  else if available < required then
    .error s!"control message buffer too small. Required: {required}, Available: {available}"
  else
    match encoder.cmsg with
    | none => .error "no control buffer space remaining"
    | some cmsg =>
        let control := copyFromSlice encoder.hdr.control (cmsg + 8) (toLeBytes level)
        let control := copyFromSlice control (cmsg + 12) (toLeBytes ty)
        let control := copyFromSlice control cmsg (leBytes 8 (lib.cmsgLen value.length))
        let control := copyFromSlice control (lib.cmsgData cmsg) value
        let hdr : MsgHdr := ⟨control, available⟩
        .ok ⟨hdr, lib.cmsgNxthdr hdr cmsg, required⟩

def finish (encoder : Encoder) : MsgHdr := ⟨encoder.hdr.control, encoder.len⟩

end Encoder

namespace MsgHdr

/-- The bytes of the payload that `decode` reads; the second assertion is one of builds with `debug_assertions`. -/
def decode (lib : Libc) (debug : Bool) (hdr : MsgHdr) (layout : Layout) (cmsg : Nat) : Except String (List UInt8) :=
  if cmsghdrAlign < layout.align then .error alignmentPanic
  else if debug = true ∧ hdr.lenAt cmsg ≠ lib.cmsgLen layout.size then .error "assertion `left == right` failed"
  else .ok (slice hdr.control (lib.cmsgData cmsg) (lib.cmsgData cmsg + layout.size))

/-- What `Iter` yields. There is no result as long as it has not come to an end. -/
def cmsgs (lib : Libc) (hdr : MsgHdr) (fuel : Nat) : Option (List Nat) :=
  visits (lib.cmsgNxthdr hdr) fuel (lib.cmsgFirsthdr hdr)

end MsgHdr

/-! ### Options of a datagram -/

/-- Explicit congestion notification codepoint. -/
inductive EcnCodepoint
  | ect0
  | ect1
  | ce
  deriving DecidableEq, Repr

def EcnCodepoint.bits : EcnCodepoint → UInt32
  | .ect0 => 0b10
  | .ect1 => 0b01
  | .ce => 0b11

def EcnCodepoint.fromBits (x : UInt8) : Option EcnCodepoint :=
  if x &&& 0b11 = 0b10 then some .ect0
  else if x &&& 0b11 = 0b01 then some .ect1
  else if x &&& 0b11 = 0b11 then some .ce
  else none

/-- A transmit with all of its fields. -/
structure UdpTransmit extends Transmit where
  ecn : Option EcnCodepoint
  srcIp : Option IpAddr
  deriving DecidableEq, Repr

/-- The octets of an address, in the order of the network. -/
def octetsV4 (bits : UInt32) : List UInt8 := (toLeBytes bits).reverse

def octetsV6 (bits : BitVec 128) : List UInt8 := (leBytes 16 bits.toNat).reverse

/-- What is assumed of the standard library: an IP address is laid out as its octets. Nothing is assumed of the layout
of a socket address. -/
structure AddrRepr.Lawful (repr : AddrRepr) : Prop where
  ipv4 : ∀ bits, repr.ipv4Addr (octetsV4 bits) = .v4 bits
  ipv6 : ∀ bits, repr.ipv6Addr (octetsV6 bits) = .v6 bits

/-- `in_pktinfo`: the index of the interface, the address to send from and the address that was sent to. -/
def inPktinfo (ifindex specDst addr : List UInt8) : List UInt8 := ifindex ++ specDst ++ addr

def in6Pktinfo (addr ifindex : List UInt8) : List UInt8 := addr ++ ifindex

namespace Udp

/-- `CMSG_LEN`, the size of the buffer. -/
def controlSize : Nat := 88

/-- `prepare_msg`, with the buffer for the control messages. -/
def prepareMsg (lib : Libc) (transmit : UdpTransmit) (ctrl : List UInt8) : Except String MsgHdr := do
  let encoder := Encoder.new lib ⟨ctrl, controlSize⟩
  let ecn := transmit.ecn.elim 0 EcnCodepoint.bits
  let encoder ← match transmit.destination.ip with
    | .v4 _ => encoder.push lib 4 lib.ipprotoIp lib.ipTos (toLeBytes ecn)
    | .v6 _ => encoder.push lib 4 lib.ipprotoIpv6 lib.ipv6Tclass (toLeBytes ecn)
  let encoder ← match transmit.segmentSize with
    -- the size is cast to sixteen bits
    | some segmentSize => encoder.push lib 2 lib.solUdp lib.udpSegment (leBytes 2 segmentSize)
    | none => pure encoder
  let encoder ← match transmit.srcIp with
    | some (.v4 bits) =>
        encoder.push lib 4 lib.ipprotoIp lib.ipPktinfo (inPktinfo (toLeBytes 0) (octetsV4 bits) (toLeBytes 0))
    | some (.v6 bits) =>
        encoder.push lib 4 lib.ipprotoIpv6 lib.ipv6Pktinfo (in6Pktinfo (octetsV6 bits) (toLeBytes 0))
    | none => pure encoder
  return encoder.finish

structure RecvMeta where
  addr : SocketAddr
  len : Nat
  ecn : Option EcnCodepoint
  dstIp : Option IpAddr
  deriving DecidableEq, Repr

/-- The body of the loop of `decode_recv`, with the bits and the address found so far. -/
def decodeCmsg (lib : Libc) (repr : AddrRepr) (debug : Bool) (hdr : MsgHdr) (found : UInt8 × Option IpAddr)
    (cmsg : Nat) : Except String (UInt8 × Option IpAddr) := do
  let level := hdr.levelAt cmsg
  let ty := hdr.typeAt cmsg
  if level = lib.ipprotoIp ∧ (ty = lib.ipTos ∨ ty = lib.ipRecvtos) then
    let bits ← hdr.decode lib debug ⟨1, 1⟩ cmsg
    return (bits.headD 0, found.2)
  else if level = lib.ipprotoIpv6 ∧ ty = lib.ipv6Tclass then
    let bits ← hdr.decode lib debug ⟨4, 4⟩ cmsg
    return (UInt8.ofNat (leValue bits), found.2)
  else if level = lib.ipprotoIp ∧ ty = lib.ipPktinfo then
    let pktinfo ← hdr.decode lib debug ⟨12, 4⟩ cmsg
    return (found.1, some (repr.ipv4Addr (slice pktinfo 8 12)))
  else if level = lib.ipprotoIpv6 ∧ ty = lib.ipv6Pktinfo then
    let pktinfo ← hdr.decode lib debug ⟨20, 4⟩ cmsg
    return (found.1, some (repr.ipv6Addr (slice pktinfo 0 16)))
  else return found

/-- `ss_family` of a `sockaddr_storage`. -/
def family (name : List UInt8) : Nat := leValue (slice name 0 2)

/-- The address of the sender, which is read from the storage by its family. -/
def decodeName (lib : Libc) (repr : AddrRepr) (name : List UInt8) : Except String SocketAddr :=
  if family name = lib.afInet then .ok (repr.socketAddrV4 name)
  else if family name = lib.afInet6 then .ok (repr.socketAddrV6 name)
  else .error "internal error: entered unreachable code"

/-- `decode_recv`, with the bytes of `name` and the length that was received. There is no result as long as the loop has
not come to an end. -/
def decodeRecv (lib : Libc) (repr : AddrRepr) (debug : Bool) (fuel : Nat) (name : List UInt8) (hdr : MsgHdr)
    (len : Nat) : Option (Except String RecvMeta) :=
  let visited := visitM (lib.cmsgNxthdr hdr) (decodeCmsg lib repr debug hdr) fuel (lib.cmsgFirsthdr hdr) (0, none)
  visited.map fun result => do
    let found ← result
    let addr ← decodeName lib repr name
    return ⟨addr, len, EcnCodepoint.fromBits found.1, found.2⟩

end Udp

/-! ### Messages in a buffer -/

/-- A control message: level and type of its header, and the bytes of the payload. -/
structure ControlMessage where
  level : UInt32
  ty : UInt32
  data : List UInt8
  deriving DecidableEq, Repr

/-- The message whose header is at an offset; its length says where it ends. -/
def MsgHdr.messageAt (hdr : MsgHdr) (cmsg : Nat) : ControlMessage :=
  ⟨hdr.levelAt cmsg, hdr.typeAt cmsg, slice hdr.control (cmsg + cmsghdrSize) (cmsg + hdr.lenAt cmsg)⟩

/-- The messages that `Iter` yields, from the first to the last. -/
def MsgHdr.messages (lib : Libc) (hdr : MsgHdr) (fuel : Nat) : Option (List ControlMessage) :=
  (hdr.cmsgs lib fuel).map fun cmsgs => cmsgs.map hdr.messageAt

/-- A message lies at an offset. -/
structure CarriesAt (hdr : MsgHdr) (cmsg : Nat) (message : ControlMessage) : Prop where
  len : hdr.lenAt cmsg = cmsghdrSize + message.data.length
  message : hdr.messageAt cmsg = message

/-- Messages lie one after the other, from an offset on. -/
def Carries (hdr : MsgHdr) (start : Nat) : List ControlMessage → Prop
  | [] => True
  | message :: rest => CarriesAt hdr start message ∧ Carries hdr (start + recordSize message.data.length) rest

def recordSizes (messages : List ControlMessage) : List Nat :=
  messages.map fun message => recordSize message.data.length

/-- The room that messages take. -/
def totalSpace (messages : List ControlMessage) : Nat := (recordSizes messages).sum

theorem totalSpace_cons (message : ControlMessage) (rest : List ControlMessage) :
    totalSpace (message :: rest) = recordSize message.data.length + totalSpace rest := List.sum_cons

theorem totalSpace_concat (messages : List ControlMessage) (message : ControlMessage) :
    totalSpace (messages ++ [message]) = totalSpace messages + recordSize message.data.length := by
  rw [totalSpace, totalSpace, recordSizes, recordSizes, List.map_append, List.sum_append]
  rfl

theorem padded_header (length : Nat) : padded (cmsghdrSize + length) = recordSize length := by
  unfold recordSize padded cmsghdrSize
  omega

theorem header_le_recordSize (length : Nat) : cmsghdrSize + length ≤ recordSize length := by
  unfold recordSize padded
  omega

theorem CarriesAt.validAt {hdr : MsgHdr} {cmsg : Nat} {message : ControlMessage} (h : CarriesAt hdr cmsg message)
    (hroom : cmsg + recordSize message.data.length ≤ hdr.controllen) : hdr.ValidAt cmsg where
  size := by
    rw [h.len]
    exact Nat.le_add_right _ _
  within := by
    rw [h.len]
    exact (Nat.add_le_add_left (header_le_recordSize _) cmsg).trans hroom

theorem Carries.map_messageAt {hdr : MsgHdr} {start : Nat} {messages : List ControlMessage}
    (h : Carries hdr start messages) : (offsets start (recordSizes messages)).map hdr.messageAt = messages := by
  induction messages generalizing start with
  | nil => rfl
  | cons message rest ih =>
      change hdr.messageAt start :: (offsets (start + recordSize message.data.length) (recordSizes rest)).map _ = _
      rw [ih h.2, h.1.message]

section Walk

variable {lib : Libc} (hlib : lib.Lawful)

include hlib

/-- From a message, the cursor goes to where the next one may be. -/
theorem CarriesAt.cmsgNxthdr {hdr : MsgHdr} {cmsg : Nat} {message : ControlMessage} (h : CarriesAt hdr cmsg message)
    (hroom : cmsg + recordSize message.data.length + cmsghdrSize ≤ hdr.controllen)
    (hnext : cmsg + recordSize message.data.length + padded (hdr.lenAt (cmsg + recordSize message.data.length)) ≤
      hdr.controllen) :
    lib.cmsgNxthdr hdr cmsg = some (cmsg + recordSize message.data.length) := by
  have hvalid := h.validAt (Nat.le_of_add_right_le hroom)
  rw [hlib.next hdr cmsg hvalid, h.len, padded_header]
  · rwa [h.len, padded_header]
  · rwa [h.len, padded_header]

/-- The cursor visits all messages and stops at the last one, whatever follows it in the buffer. -/
theorem Carries.walks {hdr : MsgHdr} {start : Nat} {messages : List ControlMessage} (h : Carries hdr start messages)
    (hend : hdr.controllen = start + totalSpace messages) :
    Walks (lib.cmsgNxthdr hdr) start (recordSizes messages) := by
  induction messages generalizing start with
  | nil => trivial
  | cons message rest ih =>
      have hend' : hdr.controllen = start + recordSize message.data.length + totalSpace rest := by
        rw [hend, totalSpace_cons, Nat.add_assoc]
      refine ⟨?_, ih h.2 hend'⟩
      cases rest with
      | nil =>
          -- there is no room for another header
          apply hlib.last hdr start (h.1.validAt hend'.ge)
          rw [h.1.len, padded_header, hend']
          exact Nat.lt_add_of_pos_right (by decide)
      | cons next rest =>
          have hroom : start + recordSize message.data.length + recordSize next.data.length ≤ hdr.controllen := by
            rw [hend', totalSpace_cons, ← Nat.add_assoc]
            exact Nat.le_add_right _ _
          apply h.1.cmsgNxthdr hlib
          · exact (Nat.add_le_add_left (Nat.le_of_add_right_le (header_le_recordSize _)) _).trans hroom
          · rwa [h.2.1.len, padded_header]

/-- The cursor starts at the first message, if there is one. -/
theorem cmsgFirsthdr_eq {hdr : MsgHdr} {messages : List ControlMessage} (hend : hdr.controllen = totalSpace messages) :
    lib.cmsgFirsthdr hdr = if recordSizes messages = [] then none else some 0 := by
  rw [hlib.first, hend]
  cases messages with
  | nil => rfl
  | cons message rest =>
      have hsize : cmsghdrSize ≤ totalSpace (message :: rest) := by
        rw [totalSpace_cons]
        exact Nat.le_add_right_of_le (Nat.le_of_add_right_le (header_le_recordSize _))
      exact (if_pos hsize).trans (if_neg (List.cons_ne_nil _ _)).symm

/-- A buffer that is filled with messages is read as these. -/
theorem Carries.messages {hdr : MsgHdr} {messages : List ControlMessage} (h : Carries hdr 0 messages)
    (hend : hdr.controllen = totalSpace messages) {fuel : Nat} (hfuel : messages.length ≤ fuel) :
    hdr.messages lib fuel = some messages := by
  have hwalks := h.walks hlib (by rw [hend, Nat.zero_add])
  rw [MsgHdr.messages, MsgHdr.cmsgs, cmsgFirsthdr_eq hlib hend,
    visits_walks hwalks (by rwa [recordSizes, List.length_map]), Option.map_some, h.map_messageAt]

end Walk

/-! ### The bytes of a message -/

/-- A message as it is written, with its padding. -/
def ControlMessage.bytes (message : ControlMessage) : List UInt8 :=
  leBytes 8 (cmsghdrSize + message.data.length) ++ toLeBytes message.level ++ toLeBytes message.ty ++ message.data ++
    List.replicate (padded message.data.length - message.data.length) 0

def layout (messages : List ControlMessage) : List UInt8 := messages.flatMap ControlMessage.bytes

theorem ControlMessage.length_bytes (message : ControlMessage) :
    message.bytes.length = recordSize message.data.length := by
  have hle : message.data.length ≤ padded message.data.length := by
    unfold padded
    omega
  simp only [bytes, List.length_append, length_leBytes, List.length_replicate, toLeBytes, List.length_cons,
    List.length_nil]
  unfold recordSize cmsghdrSize
  omega

theorem length_layout (messages : List ControlMessage) : (layout messages).length = totalSpace messages := by
  rw [layout, List.length_flatMap, totalSpace, recordSizes]
  exact congrArg List.sum (List.map_congr_left fun message _ => message.length_bytes)

theorem slice_field (before field rest : List UInt8) {buf : List UInt8} {i j : Nat}
    (hbuf : buf = before ++ (field ++ rest)) (hi : before.length = i) (hj : i + field.length = j) :
    slice buf i j = field := by
  subst hbuf hi hj
  rw [slice, List.drop_left, Nat.add_sub_cancel_left, List.take_left]

theorem copyFromSlice_field (before old rest : List UInt8) {buf src : List UInt8} {i : Nat}
    (hbuf : buf = before ++ (old ++ rest)) (hi : before.length = i) (hlen : old.length = src.length) :
    copyFromSlice buf i src = before ++ (src ++ rest) := by
  subst hbuf hi
  rw [copyFromSlice, List.take_left, ← List.drop_drop, List.drop_left, ← hlen, List.drop_left, List.append_assoc]

/-- The bytes of a message are read back as the message. -/
theorem carriesAt_bytes {hdr : MsgHdr} {before rest : List UInt8} {message : ControlMessage}
    (hcontrol : hdr.control = before ++ (message.bytes ++ rest)) (hsmall : message.data.length < 2 ^ 16) :
    CarriesAt hdr before.length message := by
  let len := leBytes 8 (cmsghdrSize + message.data.length)
  let level := toLeBytes message.level
  let ty := toLeBytes message.ty
  let pad : List UInt8 := List.replicate (padded message.data.length - message.data.length) 0
  have hbytes : hdr.control = before ++ (len ++ (level ++ (ty ++ (message.data ++ (pad ++ rest))))) := by
    rw [hcontrol, ControlMessage.bytes]
    simp only [List.append_assoc]
    rfl
  have hlen : hdr.lenAt before.length = cmsghdrSize + message.data.length := by
    have hfield : slice hdr.control before.length (before.length + 8) = len :=
      slice_field before len _ hbytes rfl (by rw [length_leBytes])
    have hfits : cmsghdrSize + message.data.length < 256 ^ 8 := by
      unfold cmsghdrSize
      omega
    rw [MsgHdr.lenAt, hfield, leValue_leBytes, Nat.mod_eq_of_lt hfits]
  have hlevel : hdr.levelAt before.length = message.level := by
    have hfield : slice hdr.control (before.length + 8) (before.length + 12) = level :=
      slice_field (before ++ len) level _ (by rw [hbytes, List.append_assoc])
        (by rw [List.length_append, length_leBytes]) rfl
    rw [MsgHdr.levelAt, hfield, readU32Le_toLeBytes]
  have hty : hdr.typeAt before.length = message.ty := by
    have hfield : slice hdr.control (before.length + 12) (before.length + 16) = ty :=
      slice_field (before ++ len ++ level) ty (message.data ++ (pad ++ rest)) (by simp only [hbytes, List.append_assoc])
        (by simp only [List.length_append, length_leBytes, len]; rfl) rfl
    rw [MsgHdr.typeAt, hfield, readU32Le_toLeBytes]
  have hdata : slice hdr.control (before.length + cmsghdrSize)
      (before.length + (cmsghdrSize + message.data.length)) = message.data :=
    slice_field (before ++ len ++ level ++ ty) message.data (pad ++ rest) (by simp only [hbytes, List.append_assoc])
      (by simp only [List.length_append, length_leBytes, len]; rfl) (Nat.add_assoc _ _ _)
  refine ⟨hlen, ?_⟩
  rw [MsgHdr.messageAt, hlen, hlevel, hty, hdata]

theorem carries_layout {hdr : MsgHdr} {before rest : List UInt8} {messages : List ControlMessage}
    (hcontrol : hdr.control = before ++ (layout messages ++ rest))
    (hsmall : ∀ message ∈ messages, message.data.length < 2 ^ 16) : Carries hdr before.length messages := by
  induction messages generalizing before with
  | nil => trivial
  | cons message others ih =>
      have hfirst : hdr.control = before ++ (message.bytes ++ (layout others ++ rest)) := by
        rw [hcontrol, layout, List.flatMap_cons, List.append_assoc]
        rfl
      have hothers : hdr.control = before ++ message.bytes ++ (layout others ++ rest) := by
        rw [hfirst, List.append_assoc]
      have hcarries := ih hothers fun other hother => hsmall other (List.mem_cons_of_mem _ hother)
      rw [List.length_append, message.length_bytes] at hcarries
      exact ⟨carriesAt_bytes hfirst (hsmall message List.mem_cons_self), hcarries⟩

/-! ### The encoder -/

/-- The encoder has written these messages, and the rest of the buffer is as it was. -/
structure Encodes (messages : List ControlMessage) (encoder : Encoder) : Prop where
  len : encoder.len = totalSpace messages
  room : encoder.len ≤ encoder.hdr.controllen
  control : encoder.hdr.control = layout messages ++ List.replicate (encoder.hdr.controllen - encoder.len) 0
  cmsg : encoder.len + cmsghdrSize ≤ encoder.hdr.controllen → encoder.cmsg = some encoder.len

/-- What the four writes of `push` leave in a part of the buffer that was zero. -/
theorem write_message (before : List UInt8) (message : ControlMessage) {room : Nat}
    (hroom : recordSize message.data.length ≤ room) :
    let control := copyFromSlice (before ++ List.replicate room 0) (before.length + 8) (toLeBytes message.level)
    let control := copyFromSlice control (before.length + 12) (toLeBytes message.ty)
    let control := copyFromSlice control before.length (leBytes 8 (cmsghdrSize + message.data.length))
    copyFromSlice control (before.length + cmsghdrSize) message.data =
      before ++ (message.bytes ++ List.replicate (room - recordSize message.data.length) 0) := by
  let zeros (n : Nat) : List UInt8 := List.replicate n 0
  let len := leBytes 8 (cmsghdrSize + message.data.length)
  let level := toLeBytes message.level
  let ty := toLeBytes message.ty
  let n := message.data.length
  let pad := zeros (padded n - n)
  let rest := zeros (room - recordSize n)
  have hzeros : zeros room = zeros 8 ++ (zeros 4 ++ (zeros 4 ++ (zeros n ++ (pad ++ rest)))) := by
    simp only [zeros, pad, rest, List.replicate_append_replicate]
    congr 1
    unfold recordSize padded cmsghdrSize at *
    omega
  have hlevel : copyFromSlice (before ++ zeros room) (before.length + 8) level =
      before ++ zeros 8 ++ (level ++ (zeros 4 ++ (zeros n ++ (pad ++ rest)))) :=
    copyFromSlice_field (before ++ zeros 8) (zeros 4) _ (by rw [hzeros, List.append_assoc])
      (List.length_append) rfl
  have hty : copyFromSlice (before ++ zeros 8 ++ (level ++ (zeros 4 ++ (zeros n ++ (pad ++ rest)))))
      (before.length + 12) ty = before ++ zeros 8 ++ level ++ (ty ++ (zeros n ++ (pad ++ rest))) :=
    copyFromSlice_field (before ++ zeros 8 ++ level) (zeros 4) _ (by simp only [List.append_assoc])
      (by simp only [List.length_append]; rfl) rfl
  have hlen : copyFromSlice (before ++ zeros 8 ++ level ++ (ty ++ (zeros n ++ (pad ++ rest)))) before.length len =
      before ++ (len ++ (level ++ (ty ++ (zeros n ++ (pad ++ rest))))) :=
    copyFromSlice_field before (zeros 8) _ (by simp only [List.append_assoc]) rfl (length_leBytes 8 _).symm
  have hdata : copyFromSlice (before ++ (len ++ (level ++ (ty ++ (zeros n ++ (pad ++ rest))))))
      (before.length + cmsghdrSize) message.data = before ++ len ++ level ++ ty ++ (message.data ++ (pad ++ rest)) :=
    copyFromSlice_field (before ++ len ++ level ++ ty) (zeros n) _ (by simp only [List.append_assoc])
      (by simp only [List.length_append, length_leBytes, len]; rfl) (List.length_replicate)
  calc _ = before ++ len ++ level ++ ty ++ (message.data ++ (pad ++ rest)) := by
        rw [← hdata, ← hlen, ← hty, ← hlevel]
    _ = before ++ (message.bytes ++ rest) := by
        rw [ControlMessage.bytes]
        simp only [List.append_assoc]
        rfl

section Encoding

variable {lib : Libc} (hlib : lib.Lawful)

include hlib

theorem encodes_new (controllen : Nat) :
    Encodes [] (Encoder.new lib ⟨List.replicate controllen 0, controllen⟩) where
  len := rfl
  room := Nat.zero_le _
  control := rfl
  cmsg := by
    intro hroom
    rw [Encoder.new, Nat.zero_add] at hroom
    exact (hlib.first _).trans (if_pos hroom)

/-- A push with room for the message does not fail. -/
theorem Encodes.push {messages : List ControlMessage} {encoder : Encoder} (h : Encodes messages encoder) {align : Nat}
    (halign : align ≤ cmsghdrAlign) (message : ControlMessage)
    (hroom : encoder.len + recordSize message.data.length ≤ encoder.hdr.controllen)
    (hsmall : message.data.length < 2 ^ 16) :
    ∃ encoder', encoder.push lib align message.level message.ty message.data = .ok encoder' ∧
      Encodes (messages ++ [message]) encoder' ∧ encoder'.hdr.controllen = encoder.hdr.controllen := by
  have hsize := header_le_recordSize message.data.length
  have hcmsg : encoder.cmsg = some (layout messages).length := by
    rw [h.cmsg (by omega), h.len, length_layout]
  let hdr : MsgHdr := ⟨layout messages ++ (message.bytes ++
    List.replicate (encoder.hdr.controllen - encoder.len - recordSize message.data.length) 0), encoder.hdr.controllen⟩
  have hpush : encoder.push lib align message.level message.ty message.data =
      .ok ⟨hdr, lib.cmsgNxthdr hdr (layout messages).length, encoder.len + recordSize message.data.length⟩ := by
    rw [Encoder.push, hlib.space _ hsmall, hlib.len _ hsmall, if_neg (Nat.not_lt.mpr halign),
      if_neg (Nat.not_lt.mpr hroom), hcmsg, h.control]
    dsimp only
    rw [hlib.data, write_message _ message (Nat.le_sub_of_add_le' hroom)]
  have hlen : encoder.len + recordSize message.data.length = totalSpace (messages ++ [message]) := by
    rw [h.len, totalSpace_concat]
  have hcontrol : hdr.control = layout (messages ++ [message]) ++
      List.replicate (encoder.hdr.controllen - (encoder.len + recordSize message.data.length)) 0 := by
    rw [layout, List.flatMap_append, List.flatMap_singleton, List.append_assoc, ← Nat.sub_sub]
    rfl
  refine ⟨_, hpush, ⟨hlen, hroom, hcontrol, fun hnext => ?_⟩, rfl⟩
  change encoder.len + recordSize message.data.length + cmsghdrSize ≤ encoder.hdr.controllen at hnext
  have hcarries : CarriesAt hdr (layout messages).length message := carriesAt_bytes rfl hsmall
  -- the buffer is still zero there, so the length in the next header is no obstacle
  have hzero : hdr.lenAt (encoder.len + recordSize message.data.length) = 0 := by
    have hfield : slice hdr.control (encoder.len + recordSize message.data.length)
        (encoder.len + recordSize message.data.length + 8) = List.replicate 8 0 := by
      apply slice_field (layout (messages ++ [message])) (List.replicate 8 0)
        (List.replicate (encoder.hdr.controllen - (encoder.len + recordSize message.data.length) - 8) 0)
      · rw [hcontrol, List.replicate_append_replicate]
        congr 2
        unfold cmsghdrSize at hnext
        omega
      · rw [length_layout, hlen]
      · rw [List.length_replicate]
    rw [MsgHdr.lenAt, hfield, leValue_zeros]
  rw [length_layout, ← h.len] at hcarries ⊢
  apply hcarries.cmsgNxthdr hlib hnext
  rw [hzero]
  exact hroom

/-- Control messages are pushed one after the other, each with the alignment of its type. -/
def Encoder.pushAll (lib : Libc) (encoder : Encoder) (pushes : List (Nat × ControlMessage)) : Except String Encoder :=
  pushes.foldlM (fun encoder push => encoder.push lib push.1 push.2.level push.2.ty push.2.data) encoder

theorem Encodes.pushAll {messages : List ControlMessage} {encoder : Encoder} (h : Encodes messages encoder)
    {pushes : List (Nat × ControlMessage)}
    (hroom : encoder.len + totalSpace (pushes.map Prod.snd) ≤ encoder.hdr.controllen)
    (hpushes : ∀ push ∈ pushes, push.1 ≤ cmsghdrAlign ∧ push.2.data.length < 2 ^ 16) :
    ∃ encoder', encoder.pushAll lib pushes = .ok encoder' ∧ Encodes (messages ++ pushes.map Prod.snd) encoder' ∧
      encoder'.hdr.controllen = encoder.hdr.controllen := by
  induction pushes generalizing messages encoder with
  | nil => exact ⟨encoder, rfl, by rwa [List.map_nil, List.append_nil], rfl⟩
  | cons push rest ih =>
      obtain ⟨align, message⟩ := push
      obtain ⟨halign, hsmall⟩ := hpushes _ List.mem_cons_self
      rw [List.map_cons, totalSpace_cons, ← Nat.add_assoc] at hroom
      obtain ⟨first, hpush, hfirst, hlen⟩ := h.push hlib halign message (Nat.le_of_add_right_le hroom) hsmall
      have hfirstLen : first.len = encoder.len + recordSize message.data.length := by
        rw [hfirst.len, h.len, totalSpace_concat]
      obtain ⟨last, hrest, hlast, hlen'⟩ := ih hfirst (by rw [hfirstLen, hlen]; exact hroom)
        fun other hother => hpushes other (List.mem_cons_of_mem _ hother)
      refine ⟨last, ?_, ?_, hlen'.trans hlen⟩
      · rw [Encoder.pushAll, List.foldlM_cons, hpush]
        exact hrest
      · rwa [List.append_assoc, List.singleton_append] at hlast

omit hlib in
theorem Encodes.finish {messages : List ControlMessage} {encoder : Encoder} (h : Encodes messages encoder)
    (hsmall : ∀ message ∈ messages, message.data.length < 2 ^ 16) :
    Carries encoder.finish 0 messages ∧ encoder.finish.controllen = totalSpace messages := by
  have hcarries : Carries encoder.finish ([] : List UInt8).length messages := carries_layout h.control hsmall
  exact ⟨hcarries, h.len⟩

end Encoding

/-- The control messages that are pushed for a transmit, with the alignments of their types. -/
def UdpTransmit.pushes (lib : Libc) (transmit : UdpTransmit) : List (Nat × ControlMessage) :=
  let ecn := toLeBytes (transmit.ecn.elim 0 EcnCodepoint.bits)
  let first : ControlMessage := match transmit.destination.ip with
    | .v4 _ => ⟨lib.ipprotoIp, lib.ipTos, ecn⟩
    | .v6 _ => ⟨lib.ipprotoIpv6, lib.ipv6Tclass, ecn⟩
  let segment := transmit.segmentSize.toList.map fun size => (2, ⟨lib.solUdp, lib.udpSegment, leBytes 2 size⟩)
  let source := transmit.srcIp.toList.map fun
    | .v4 bits => (4, ⟨lib.ipprotoIp, lib.ipPktinfo, inPktinfo (toLeBytes 0) (octetsV4 bits) (toLeBytes 0)⟩)
    | .v6 bits => (4, ⟨lib.ipprotoIpv6, lib.ipv6Pktinfo, in6Pktinfo (octetsV6 bits) (toLeBytes 0)⟩)
  (4, first) :: (segment ++ source)

/-- The options of a transmit, as messages. -/
def UdpTransmit.options (lib : Libc) (transmit : UdpTransmit) : List ControlMessage :=
  (transmit.pushes lib).map Prod.snd

theorem prepareMsg_eq (lib : Libc) (transmit : UdpTransmit) (ctrl : List UInt8) : Udp.prepareMsg lib transmit ctrl =
    Encoder.finish <$> (Encoder.new lib ⟨ctrl, Udp.controlSize⟩).pushAll lib (transmit.pushes lib) := by
  obtain ⟨⟨⟨ip, port⟩, contents, segmentSize⟩, ecn, srcIp⟩ := transmit
  rcases ip with bits | bits <;> rcases segmentSize with _ | size <;> rcases srcIp with _ | ⟨src | src⟩ <;>
    simp [Udp.prepareMsg, UdpTransmit.pushes, Encoder.pushAll]

theorem UdpTransmit.pushes_small (lib : Libc) (transmit : UdpTransmit) :
    ∀ push ∈ transmit.pushes lib, push.1 ≤ cmsghdrAlign ∧ push.2.data.length < 2 ^ 16 := by
  obtain ⟨⟨⟨ip, port⟩, contents, segmentSize⟩, ecn, srcIp⟩ := transmit
  rcases ip with bits | bits <;> rcases segmentSize with _ | size <;> rcases srcIp with _ | ⟨src | src⟩ <;>
    simp [pushes, inPktinfo, in6Pktinfo, octetsV4, octetsV6, toLeBytes, cmsghdrAlign]

/-- The largest options fill the buffer to the last byte. -/
theorem UdpTransmit.options_totalSpace_le (lib : Libc) (transmit : UdpTransmit) :
    totalSpace (transmit.options lib) ≤ Udp.controlSize := by
  obtain ⟨⟨⟨ip, port⟩, contents, segmentSize⟩, ecn, srcIp⟩ := transmit
  rcases ip with bits | bits <;> rcases segmentSize with _ | size <;> rcases srcIp with _ | ⟨src | src⟩ <;>
    simp [options, pushes, totalSpace, recordSizes, inPktinfo, in6Pktinfo, octetsV4, octetsV6, toLeBytes, recordSize,
      padded, cmsghdrSize, Udp.controlSize]

/-- Whatever options a transmit has, `prepare_msg` finds room for all of them, and they fill what it leaves of the
buffer. -/
theorem Udp.prepareMsg_carries {lib : Libc} (hlib : lib.Lawful) (transmit : UdpTransmit) :
    ∃ hdr, prepareMsg lib transmit (List.replicate controlSize 0) = .ok hdr ∧ hdr.controllen ≤ controlSize ∧
      Carries hdr 0 (transmit.options lib) ∧ hdr.controllen = totalSpace (transmit.options lib) := by
  have hroom := transmit.options_totalSpace_le lib
  obtain ⟨encoder, hpush, hencodes, hlen⟩ :=
    (encodes_new hlib controlSize).pushAll hlib (by rwa [Encoder.new, Nat.zero_add]) (transmit.pushes_small lib)
  refine ⟨encoder.finish, ?_, hencodes.room.trans hlen.le, hencodes.finish fun message hmessage => ?_⟩
  · rw [prepareMsg_eq, hpush]
    rfl
  · obtain ⟨push, hmem, rfl⟩ := List.mem_map.mp hmessage
    exact (transmit.pushes_small lib push hmem).2

/-! ### Segments in runs of a host -/

/-- The segment size that control messages ask for. -/
def requestedSegments (lib : Libc) (messages : List ControlMessage) : Option Nat :=
  (messages.find? fun message => message.level = lib.solUdp ∧ message.ty = lib.udpSegment).map fun message =>
    leValue message.data

theorem UdpTransmit.options_requestedSegments {lib : Libc} (hlib : lib.Lawful) (transmit : UdpTransmit) :
    requestedSegments lib (transmit.options lib) = transmit.segmentSize.map (· % 256 ^ 2) := by
  obtain ⟨⟨⟨ip, port⟩, contents, segmentSize⟩, ecn, srcIp⟩ := transmit
  rcases ip with bits | bits <;> rcases segmentSize with _ | size <;> rcases srcIp with _ | ⟨src | src⟩ <;>
    simp [requestedSegments, options, pushes, leValue_leBytes, hlib.udp_ne_ip.symm, hlib.udp_ne_ipv6.symm]

namespace Host

/-- A segment is never larger than a packet. -/
theorem Grounded.segmentSize_le {p : Platform} {h : Host p} (hgrounded : h.Grounded fun _ => True) {transmit : Transmit}
    (horigin : Origin (fun _ => True) h.socket.outbox transmit) {size : Nat}
    (hsize : transmit.segmentSize = some size) : size ≤ udxMtu := by
  cases horigin with
  | user dgram hok heq =>
      rw [heq] at hsize
      cases hsize
  | stream n sent set skip hn hset heq =>
      rw [UdxSocket.outbox, List.getElem?_map] at hn
      obtain ⟨u, hu, rfl⟩ := Option.map_eq_some_iff.mp hn
      have hreachable := hgrounded.attends.all n u hu
      obtain ⟨hne, segmentSize, hsegment, hpackets⟩ := hreachable.grouped set hset
      obtain ⟨ref, href⟩ := List.exists_mem_of_ne_nil _ hne
      have haddressed := hreachable.addressed (List.mem_flatMap.mpr ⟨.transmit set, hset, href⟩)
      rw [heq, PacketSet.toTransmit, hsegment] at hsize
      dsimp only at hsize
      split_ifs at hsize
      rw [← Option.some.inj hsize, ← hpackets ref href]
      exact haddressed.len_le

/-- **The control messages of a host.** In every run of a host on Linux, for every transmit that is offered to the UDP
layer, also if it had an ECN codepoint and an address to send from, and for every C library that keeps the laws:
`prepare_msg` finds room for all of its options and none of its assertions fails, the options lie in the buffer one
after the other and fill it, `Iter` yields exactly these, and they ask for segments of the size of the transmit, or for
none if it has none. -/
theorem offered_options_exact {lib : Libc} (hlib : lib.Lawful) (now maxGsoSegments : Nat) (earlier : Option Int)
    (events : List (HostEvent .linux)) (cx : HostContext .linux) (received : List (Except IoError (List Arrival)))
    (ecn : Option EcnCodepoint) (srcIp : Option IpAddr) :
    ∀ transmit ∈ (Runs.run step (Host.bind now maxGsoSegments earlier) events : Host .linux).offered cx received,
      let options := UdpTransmit.options lib ⟨transmit, ecn, srcIp⟩
      ∃ hdr, Udp.prepareMsg lib ⟨transmit, ecn, srcIp⟩ (List.replicate Udp.controlSize 0) = .ok hdr ∧
        hdr.controllen ≤ Udp.controlSize ∧ Carries hdr 0 options ∧ hdr.controllen = totalSpace options ∧
        (∀ fuel, options.length ≤ fuel → hdr.messages lib fuel = some options) ∧
        requestedSegments lib options = transmit.segmentSize := by
  have hgrounded : (Runs.run step (Host.bind now maxGsoSegments earlier) events : Host .linux).Grounded fun _ => True :=
    run_grounded now maxGsoSegments earlier events
  intro transmit htransmit options
  have horigin := offered_origin hgrounded.traced cx received transmit htransmit
  obtain ⟨hdr, hprepare, hlen, hcarries, hend⟩ := Udp.prepareMsg_carries hlib ⟨transmit, ecn, srcIp⟩
  refine ⟨hdr, hprepare, hlen, hcarries, hend, fun fuel hfuel => hcarries.messages hlib hend hfuel, ?_⟩
  rw [UdpTransmit.options_requestedSegments hlib]
  change transmit.segmentSize.map (· % 256 ^ 2) = transmit.segmentSize
  cases hsize : transmit.segmentSize with
  | none => rfl
  | some size =>
      have hle : size < 256 ^ 2 := Nat.lt_of_le_of_lt (hgrounded.segmentSize_le horigin hsize) (by decide)
      exact congrArg some (Nat.mod_eq_of_lt hle)

end Host

/-- A C library that keeps the laws, with the numbers of Linux. -/
def Libc.plain : Libc where
  cmsgSpace := recordSize
  cmsgLen := fun length => cmsghdrSize + length
  cmsgData := fun cmsg => cmsg + cmsghdrSize
  cmsgFirsthdr := fun hdr => if cmsghdrSize ≤ hdr.controllen then some 0 else none
  cmsgNxthdr := fun hdr cmsg =>
    if hdr.controllen < cmsg + padded (hdr.lenAt cmsg) + cmsghdrSize then none
    else some (cmsg + padded (hdr.lenAt cmsg))
  ipprotoIp := 0
  ipprotoIpv6 := 41
  solUdp := 17
  ipTos := 1
  ipPktinfo := 8
  ipRecvtos := 13
  ipv6Pktinfo := 50
  ipv6Tclass := 67
  udpSegment := 103
  afInet := 2
  afInet6 := 10

theorem Libc.plain_lawful : Libc.plain.Lawful where
  space := fun _ _ => rfl
  len := fun _ _ => rfl
  data := fun _ => rfl
  first := fun _ => rfl
  last := fun _ _ _ h => if_pos h
  next := fun _ _ _ h _ => if_neg (Nat.not_lt.mpr h)
  ip_ne_ipv6 := by decide
  udp_ne_ip := by decide
  udp_ne_ipv6 := by decide
  tos_ne_pktinfo := by decide
  recvtos_ne_pktinfo := by decide
  tclass_ne_pktinfo := by decide

namespace Host

/-- Two packets of one size, in one set. -/
def segmentedRun : List (HostEvent .linux) :=
  [.connect ⟨.v4 0, 2⟩ 1 2, .stream 0 (.write 0 [1]), .stream 0 (.write 0 [2]), .stream 0 (.poll 0 0 10 64)]

def segmentedCx : HostContext .linux :=
  ⟨0, 10, 0, 10, ([] : List (Udp.Readiness (Except Udp.RecvErrno (List Arrival)))),
    ([] : List (Udp.Readiness (Except Errno Nat))), 0⟩

theorem offered_options_exact_segmented :
    let h : Host .linux := Runs.run step (Host.bind 0 64 none) segmentedRun
    (h.offered segmentedCx []).map Transmit.segmentSize = [some 21] ∧
    ∀ transmit ∈ h.offered segmentedCx [],
      let options := UdpTransmit.options .plain ⟨transmit, some .ce, some (.v4 1)⟩
      ∃ hdr, Udp.prepareMsg .plain ⟨transmit, some .ce, some (.v4 1)⟩ (List.replicate Udp.controlSize 0) = .ok hdr ∧
        hdr.controllen ≤ Udp.controlSize ∧ Carries hdr 0 options ∧ hdr.controllen = totalSpace options ∧
        (∀ fuel, options.length ≤ fuel → hdr.messages .plain fuel = some options) ∧
        requestedSegments .plain options = transmit.segmentSize :=
  ⟨by decide +kernel,
    offered_options_exact Libc.plain_lawful 0 64 none segmentedRun segmentedCx [] (some .ce) (some (.v4 1))⟩

end Host

/-! ### What `decode_recv` finds -/

/-- A control message of a received datagram; addresses are in the order of the network. -/
inductive Ancillary (lib : Libc)
  | tos (bits : UInt8)
  | recvtos (bits : UInt8)
  | tclass (bits : UInt32)
  | pktinfo (ifindex specDst addr : UInt32)
  | pktinfoV6 (addr : BitVec 128) (ifindex : UInt32)
  /-- A message that `decode_recv` does not know. -/
  | other (message : ControlMessage)
      (hip : message.level = lib.ipprotoIp →
        message.ty ≠ lib.ipTos ∧ message.ty ≠ lib.ipRecvtos ∧ message.ty ≠ lib.ipPktinfo)
      (hipv6 : message.level = lib.ipprotoIpv6 → message.ty ≠ lib.ipv6Tclass ∧ message.ty ≠ lib.ipv6Pktinfo)

section Decoding

variable {lib : Libc} {repr : AddrRepr}

namespace Ancillary

def message : Ancillary lib → ControlMessage
  | tos bits => ⟨lib.ipprotoIp, lib.ipTos, [bits]⟩
  | recvtos bits => ⟨lib.ipprotoIp, lib.ipRecvtos, [bits]⟩
  | tclass bits => ⟨lib.ipprotoIpv6, lib.ipv6Tclass, toLeBytes bits⟩
  | pktinfo ifindex specDst addr =>
      ⟨lib.ipprotoIp, lib.ipPktinfo, inPktinfo (toLeBytes ifindex) (octetsV4 specDst) (octetsV4 addr)⟩
  | pktinfoV6 addr ifindex => ⟨lib.ipprotoIpv6, lib.ipv6Pktinfo, in6Pktinfo (octetsV6 addr) (toLeBytes ifindex)⟩
  | other message _ _ => message

def ecnBits : Ancillary lib → Option UInt8
  | tos bits | recvtos bits => some bits
  | tclass bits => some bits.toUInt8
  | _ => none

def dstIp : Ancillary lib → Option IpAddr
  | pktinfo _ _ addr => some (.v4 addr)
  | pktinfoV6 addr _ => some (.v6 addr)
  | _ => none

/-- What is found so far, after one more message. -/
def find (found : UInt8 × Option IpAddr) (ancillary : Ancillary lib) : UInt8 × Option IpAddr :=
  (ancillary.ecnBits.getD found.1, ancillary.dstIp.or found.2)

end Ancillary

theorem ofNat_leValue_cons (byte : UInt8) (rest : List UInt8) : UInt8.ofNat (leValue (byte :: rest)) = byte := by
  apply UInt8.toNat_inj.mp
  have hbyte := byte.toNat_lt
  rw [UInt8.toNat_ofNat', leValue, List.foldr_cons]
  omega

variable (hlib : lib.Lawful)

include hlib

/-- A message is decoded as a type of its size, whose assertions then hold. -/
theorem CarriesAt.decode {hdr : MsgHdr} {cmsg : Nat} {message : ControlMessage} (h : CarriesAt hdr cmsg message)
    (debug : Bool) {layout : Layout} (hsize : message.data.length = layout.size) (halign : layout.align ≤ cmsghdrAlign)
    (hsmall : layout.size < 2 ^ 16) : hdr.decode lib debug layout cmsg = .ok message.data := by
  have hlen : hdr.lenAt cmsg = lib.cmsgLen layout.size := by rw [h.len, hsize, hlib.len _ hsmall]
  have hdata : slice hdr.control (cmsg + cmsghdrSize) (cmsg + hdr.lenAt cmsg) = message.data :=
    congrArg ControlMessage.data h.message
  rw [h.len, hsize, ← Nat.add_assoc] at hdata
  rw [MsgHdr.decode, if_neg (Nat.not_lt.mpr halign), if_neg fun h => h.2 hlen, hlib.data, hdata]

/-- One message of a received datagram, as the body of the loop reads it. -/
theorem CarriesAt.decodeCmsg (hrepr : repr.Lawful) {hdr : MsgHdr} {cmsg : Nat} {ancillary : Ancillary lib}
    (h : CarriesAt hdr cmsg ancillary.message) (debug : Bool) (found : UInt8 × Option IpAddr) :
    Udp.decodeCmsg lib repr debug hdr found cmsg = .ok (ancillary.find found) := by
  have hlevel : hdr.levelAt cmsg = ancillary.message.level := congrArg ControlMessage.level h.message
  have hty : hdr.typeAt cmsg = ancillary.message.ty := congrArg ControlMessage.ty h.message
  rw [Udp.decodeCmsg, hlevel, hty]
  cases ancillary with
  | tos bits =>
      rw [if_pos ⟨rfl, Or.inl rfl⟩, h.decode hlib debug rfl (by decide) (by decide)]
      rfl
  | recvtos bits =>
      rw [if_pos ⟨rfl, Or.inr rfl⟩, h.decode hlib debug rfl (by decide) (by decide)]
      rfl
  | tclass bits =>
      rw [if_neg fun h => hlib.ip_ne_ipv6 h.1.symm, if_pos ⟨rfl, rfl⟩,
        h.decode hlib debug rfl (by decide) (by decide)]
      exact congrArg (fun byte => Except.ok (byte, found.2)) (ofNat_leValue_cons _ _)
  | pktinfo ifindex specDst addr =>
      rw [if_neg fun h => h.2.elim hlib.tos_ne_pktinfo.symm hlib.recvtos_ne_pktinfo.symm,
        if_neg fun h => hlib.ip_ne_ipv6 h.1, if_pos ⟨rfl, rfl⟩, h.decode hlib debug rfl (by decide) (by decide)]
      exact congrArg (fun ip => Except.ok (found.1, some ip)) (hrepr.ipv4 addr)
  | pktinfoV6 addr ifindex =>
      have hlength : (in6Pktinfo (octetsV6 addr) (toLeBytes ifindex)).length = Layout.size ⟨20, 4⟩ := by
        rw [in6Pktinfo, List.length_append, octetsV6, List.length_reverse, length_leBytes]
        rfl
      have hfield : slice (in6Pktinfo (octetsV6 addr) (toLeBytes ifindex)) 0 16 = octetsV6 addr :=
        slice_field [] (octetsV6 addr) (toLeBytes ifindex) rfl rfl
          (by rw [octetsV6, List.length_reverse, length_leBytes])
      rw [if_neg fun h => hlib.ip_ne_ipv6 h.1.symm, if_neg fun h => hlib.tclass_ne_pktinfo h.2.symm,
        if_neg fun h => hlib.ip_ne_ipv6 h.1.symm, if_pos ⟨rfl, rfl⟩,
        h.decode hlib debug hlength (by decide) (by decide)]
      exact congrArg (fun ip => Except.ok (found.1, some ip)) ((congrArg _ hfield).trans (hrepr.ipv6 addr))
  | other message hip hipv6 =>
      rw [if_neg fun h => h.2.elim (hip h.1).1 (hip h.1).2.1, if_neg fun h => (hipv6 h.1).1 h.2,
        if_neg fun h => (hip h.1).2.2 h.2, if_neg fun h => (hipv6 h.1).2 h.2]
      rfl

theorem Carries.foldlM_decodeCmsg (hrepr : repr.Lawful) {hdr : MsgHdr} {start : Nat}
    {ancillaries : List (Ancillary lib)} (h : Carries hdr start (ancillaries.map Ancillary.message)) (debug : Bool)
    (found : UInt8 × Option IpAddr) :
    (offsets start (recordSizes (ancillaries.map Ancillary.message))).foldlM
      (Udp.decodeCmsg lib repr debug hdr) found = .ok (ancillaries.foldl Ancillary.find found) := by
  induction ancillaries generalizing start found with
  | nil => rfl
  | cons ancillary rest ih =>
      rw [List.map_cons] at h
      rw [List.map_cons, recordSizes, List.map_cons, offsets, List.foldlM_cons, h.1.decodeCmsg hlib hrepr]
      exact ih h.2 (ancillary.find found)

omit hlib in
/-- What is found is the last of its kind. -/
theorem foldl_find (ancillaries : List (Ancillary lib)) :
    ancillaries.foldl Ancillary.find (0, none) = ((ancillaries.filterMap Ancillary.ecnBits).getLast?.getD 0,
      (ancillaries.filterMap Ancillary.dstIp).getLast?) := by
  induction ancillaries using List.reverseRecOn with
  | nil => rfl
  | append_singleton before last ih =>
      rw [List.foldl_append, ih, List.filterMap_append, List.filterMap_append, List.getLast?_append,
        List.getLast?_append]
      cases last <;> rfl

end Decoding

/-- **What a received datagram came with.** When the kernel has filled the buffer with control messages in any order,
known ones with payloads of the size of their types and any others, `decode_recv` comes to an end and none of its
assertions fails, in builds with and without `debug_assertions`. It finds the codepoint in the last message that carries
one and the address in the last message that carries one, and passes over all others by their length. The address of the
sender is what the standard library reads from the bytes of the name as a socket address of its family; a name of
another family makes it panic. -/
theorem Udp.decodeRecv_exact {lib : Libc} (hlib : lib.Lawful) {repr : AddrRepr} (hrepr : repr.Lawful) (debug : Bool)
    (name : List UInt8) (len : Nat) {hdr : MsgHdr} {ancillaries : List (Ancillary lib)}
    (hcarries : Carries hdr 0 (ancillaries.map Ancillary.message))
    (hend : hdr.controllen = totalSpace (ancillaries.map Ancillary.message)) {fuel : Nat}
    (hfuel : ancillaries.length ≤ fuel) :
    let recvMeta (addr : SocketAddr) : RecvMeta := ⟨addr, len,
      EcnCodepoint.fromBits ((ancillaries.filterMap Ancillary.ecnBits).getLast?.getD 0),
      (ancillaries.filterMap Ancillary.dstIp).getLast?⟩
    decodeRecv lib repr debug fuel name hdr len = some (
      if family name = lib.afInet then .ok (recvMeta (repr.socketAddrV4 name))
      else if family name = lib.afInet6 then .ok (recvMeta (repr.socketAddrV6 name))
      else .error "internal error: entered unreachable code") := by
  intro recvMeta
  have hwalks := hcarries.walks hlib (by rw [hend, Nat.zero_add])
  have hlength : (recordSizes (ancillaries.map Ancillary.message)).length ≤ fuel := by
    rwa [recordSizes, List.length_map, List.length_map]
  rw [decodeRecv, cmsgFirsthdr_eq hlib hend, visitM_walks hwalks hlength, hcarries.foldlM_decodeCmsg hlib hrepr,
    foldl_find, Option.map_some, decodeName]
  refine congrArg some ?_
  split
  · rfl
  · split <;> rfl

/-- Addresses laid out as their octets, socket addresses as those of the C library. -/
def AddrRepr.plain : AddrRepr where
  ipv4Addr := fun octets => .v4 (readU32Le octets.reverse)
  ipv6Addr := fun octets => .v6 (BitVec.ofNat 128 (leValue octets.reverse))
  socketAddrV4 := fun name =>
    ⟨.v4 (readU32Le (slice name 4 8).reverse), UInt16.ofNat (leValue (slice name 2 4).reverse)⟩
  socketAddrV6 := fun name =>
    ⟨.v6 (BitVec.ofNat 128 (leValue (slice name 8 24).reverse)), UInt16.ofNat (leValue (slice name 2 4).reverse)⟩

theorem AddrRepr.plain_lawful : AddrRepr.plain.Lawful where
  ipv4 := by
    intro bits
    change IpAddr.v4 (readU32Le (octetsV4 bits).reverse) = _
    rw [octetsV4, List.reverse_reverse, readU32Le_toLeBytes]
  ipv6 := by
    intro bits
    have hvalue : leValue (leBytes 16 bits.toNat) = bits.toNat := by
      rw [leValue_leBytes]
      exact Nat.mod_eq_of_lt bits.isLt
    change IpAddr.v6 (BitVec.ofNat 128 (leValue (octetsV6 bits).reverse)) = _
    rw [octetsV6, List.reverse_reverse, hvalue, BitVec.ofNat_toNat, BitVec.setWidth_eq]

/-- A datagram to 127.0.0.1 with a codepoint, an unknown message between the two. -/
def receivedOptions : List (Ancillary .plain) :=
  [.tos 0b10, .other ⟨1, 29, [1, 2, 3]⟩ (by decide) (by decide), .pktinfo 1 0 0x7f000001]

theorem Udp.decodeRecv_exact_received :
    let hdr : MsgHdr := ⟨layout (receivedOptions.map Ancillary.message), 80⟩
    decodeRecv .plain .plain true 3 [2, 0, 0x10, 0, 127, 0, 0, 1] hdr 1200 =
      some (.ok ⟨⟨.v4 0x7f000001, 4096⟩, 1200, some .ect0, some (.v4 0x7f000001)⟩) := by
  have hcarries : Carries ⟨layout (receivedOptions.map Ancillary.message), 80⟩ ([] : List UInt8).length
      (receivedOptions.map Ancillary.message) := by
    apply carries_layout (List.append_nil _).symm
    decide
  exact Udp.decodeRecv_exact Libc.plain_lawful AddrRepr.plain_lawful true [2, 0, 0x10, 0, 127, 0, 0, 1] 1200 hcarries
    (by decide) (by decide)

end AsyncUdx
