import AsyncUdx.Socket

/-! The UDP layer under the socket: how transmits are handed to the kernel and how datagrams are read from it. What
the kernel and the reactor answer is a script, so the functions are those of the source with the system calls replaced
by its entries. There are three implementations of `poll_send` and of `poll_recv`: with messages in batches, with one
message a call, and with the socket of the runtime. -/

namespace AsyncUdx

/-! ### Errors -/

/-- The kinds of error that sending tells apart. -/
inductive OsErrorKind
  | interrupted
  | permissionDenied
  | wouldBlock
  | other
  deriving DecidableEq, Repr

/-- What a failed system call leaves behind. -/
inductive Errno
  | eintr
  | eagain
  | eperm
  | eacces
  | eio
  | other (code : Nat)
  deriving DecidableEq, Repr

def Errno.kind : Errno → OsErrorKind
  | .eintr => .interrupted
  | .eagain => .wouldBlock
  | .eperm | .eacces => .permissionDenied
  | .eio | .other _ => .other

/-- An error as `try_io` sees it: it would block, or it is handed on. -/
inductive IoFailure
  | wouldBlock
  | error (err : IoError)
  deriving DecidableEq, Repr

/-- A datagram as it is read into a buffer: the kernel drops what does not fit. -/
def Arrival.truncated (arrival : Arrival) : Arrival := ⟨arrival.source, arrival.data.take udxMtu⟩

/-! ### The UDP socket -/

def ioErrorLogInterval : Nat := millis 60000

/-- The state of the UDP layer: the number of segments it may offload, which all streams of the socket read, and the
instant of the last error that was logged, which may lie before the first instant of the clock. The other fields are
history variables: the instants of all warnings, latest first, and whether Linux has answered a send with `EIO`. -/
structure UdpSocket where
  maxGsoSegments : Nat
  lastSendError : Int
  logged : List Nat
  eio : Bool
  deriving DecidableEq, Repr

namespace UdpSocket

/-- `from_std`; `max_gso_segments` is 64 or 1. What `checked_sub` makes of an instant and `2 * ioErrorLogInterval` is
up to the standard library, which differs between platforms: `earlier` is its result. -/
def fromStd (now maxGsoSegments : Nat) (earlier : Option Int) : UdpSocket where
  maxGsoSegments := maxGsoSegments
  lastSendError := earlier.getD now
  logged := []
  eio := false

def logSendmsgError (udp : UdpSocket) (now : Nat) : UdpSocket :=
  -- `saturating_duration_since`
  if ioErrorLogInterval < (now - udp.lastSendError).toNat then
    { udp with lastSendError := now, logged := now :: udp.logged }
  else udp

/-- What follows an `EIO`: it prevents new transmits from being scheduled with segmentation offload. -/
def haltSegmentation (udp : UdpSocket) : UdpSocket :=
  if 1 < udp.maxGsoSegments then { udp with maxGsoSegments := 1, eio := true } else { udp with eio := true }

end UdpSocket

namespace Udp

/-! ### Sending -/

/-- What `send` returns, with the transmits the kernel has taken and those it has refused. -/
structure Sending where
  udp : UdpSocket
  result : Except IoFailure Nat
  taken : List Transmit
  refused : List Transmit

/-- What `poll_send` returns, with the transmits the kernel has taken and those it has refused. -/
structure Answer where
  udp : UdpSocket
  result : Poll (Except IoError Nat)
  taken : List Transmit
  refused : List Transmit

/-- The reactor reports an error, or that the socket is ready; the system calls made then have these replies. -/
inductive Readiness (ρ : Type)
  | failed (err : IoError)
  | ready (replies : List ρ)
  deriving DecidableEq, Repr

def Readiness.error? {ρ : Type} : Readiness ρ → Option IoError
  | .failed err => some err
  | .ready _ => none

/-- `send` with `sendmmsg`. The kernel takes a number of messages from the front, or fails and takes none. There is
no result as long as the call is interrupted. -/
def sendBatch (now batchSize : Nat) (transmits : List Transmit) :
    List (Except Errno Nat) → UdpSocket → Option Sending
  | [], _ => none
  | reply :: replies, udp =>
      let numTransmits := min transmits.length batchSize
      match reply with
      | .ok n => some ⟨udp, .ok (min n numTransmits), transmits.take (min n numTransmits), []⟩
      | .error errno =>
          match errno.kind with
          | .interrupted => sendBatch now batchSize transmits replies udp
          -- sending too much at once is reported as a denied permission
          | .permissionDenied => some ⟨udp, .error .wouldBlock, [], []⟩
          | .wouldBlock => some ⟨udp, .error .wouldBlock, [], []⟩
          | .other =>
              let udp := if errno = .eio then udp.haltSegmentation else udp
              -- drop the first message and retry the remaining ones
              some ⟨udp.logSendmsgError now, .ok (min numTransmits 1), [], transmits.take (min numTransmits 1)⟩

/-- `send` with `sendmsg`, one message after the other. -/
def sendEach (now : Nat) (transmits : List Transmit) :
    List (Except Errno Unit) → Nat → List Transmit → List Transmit → UdpSocket → Option Sending
  | [], sent, taken, refused, udp => if transmits.length ≤ sent then some ⟨udp, .ok sent, taken, refused⟩ else none
  | reply :: replies, sent, taken, refused, udp =>
      match transmits[sent]? with
      | none => some ⟨udp, .ok sent, taken, refused⟩
      | some transmit =>
          match reply with
          | .ok () => sendEach now transmits replies (sent + 1) (taken ++ [transmit]) refused udp
          | .error errno =>
              match errno.kind with
              | .interrupted => sendEach now transmits replies sent taken refused udp
              | .wouldBlock =>
                  if sent ≠ 0 then some ⟨udp, .ok sent, taken, refused⟩
                  else some ⟨udp, .error .wouldBlock, taken, refused⟩
              | .permissionDenied | .other =>
                  sendEach now transmits replies (sent + 1) taken (refused ++ [transmit]) (udp.logSendmsgError now)

/-- `poll_send`: the readiness is cleared when sending would block, and asked for again. The reactor is pending
after the last entry. -/
def pollSend {ρ : Type} (send : List ρ → UdpSocket → Option Sending) :
    List (Readiness ρ) → UdpSocket → Option Answer
  | [], udp => some ⟨udp, .pending, [], []⟩
  | .failed err :: _, udp => some ⟨udp, .ready (.error err), [], []⟩
  | .ready replies :: rest, udp =>
      match send replies udp with
      | none => none
      | some sending =>
          match sending.result with
          | .error .wouldBlock => pollSend send rest sending.udp
          | .error (.error err) => some ⟨sending.udp, .ready (.error err), sending.taken, sending.refused⟩
          | .ok n => some ⟨sending.udp, .ready (.ok n), sending.taken, sending.refused⟩

/-- `poll_send` of the fallback, which leaves waiting to the runtime. -/
def pollSendTo (now : Nat) :
    List Transmit → List (Poll (Except Errno Unit)) → Nat → List Transmit → List Transmit → UdpSocket → Answer
  | [], _, sent, taken, refused, udp => ⟨udp, .ready (.ok sent), taken, refused⟩
  | transmit :: rest, replies, sent, taken, refused, udp =>
      match replies.headD .pending with
      | .ready (.ok ()) => pollSendTo now rest replies.tail (sent + 1) (taken ++ [transmit]) refused udp
      | .ready (.error _) =>
          -- the error is expected to come again on the next call
          if sent ≠ 0 then ⟨udp, .ready (.ok sent), taken, refused⟩
          else pollSendTo now rest replies.tail (sent + 1) taken (refused ++ [transmit]) (udp.logSendmsgError now)
      | .pending => if sent ≠ 0 then ⟨udp, .ready (.ok sent), taken, refused⟩ else ⟨udp, .pending, taken, refused⟩

/-! ### Receiving -/

/-- What a failed receive leaves behind. -/
inductive RecvErrno
  | eintr
  | eagain
  | other (err : IoError)
  deriving DecidableEq, Repr

/-- `recv` with `recvmmsg`: one buffer of the size of the largest packet for each message of a batch. -/
def recvBatch (batchSize : Nat) : List (Except RecvErrno (List Arrival)) → Option (Except IoFailure (List Arrival))
  | [] => none
  | .error .eintr :: replies => recvBatch batchSize replies
  | .error .eagain :: _ => some (.error .wouldBlock)
  | .error (.other err) :: _ => some (.error (.error err))
  | .ok arrivals :: _ => some (.ok ((arrivals.take batchSize).map Arrival.truncated))

/-- `recv` with `recvmsg`: one message, and one that does not fit is skipped. -/
def recvEach : List (Except RecvErrno Arrival) → Option (Except IoFailure (List Arrival))
  | [] => none
  | .error .eintr :: replies => recvEach replies
  | .error .eagain :: _ => some (.error .wouldBlock)
  | .error (.other err) :: _ => some (.error (.error err))
  | .ok arrival :: replies =>
      if udxMtu < arrival.data.length then recvEach replies else some (.ok [arrival.truncated])

/-- `poll_recv`, with what is left of the script. -/
def pollRecv {ρ : Type} (recv : List ρ → Option (Except IoFailure (List Arrival))) :
    List (Readiness ρ) → Option (Poll (Except IoError (List Arrival)) × List (Readiness ρ))
  | [] => some (.pending, [])
  | .failed err :: rest => some (.ready (.error err), rest)
  | .ready replies :: rest =>
      match recv replies with
      | none => none
      | some (.error .wouldBlock) => pollRecv recv rest
      | some (.error (.error err)) => some (.ready (.error err), rest)
      | some (.ok arrivals) => some (.ready (.ok arrivals), rest)

/-- What the calls of `poll_recv` in one poll of the driver return, until it is pending. -/
def pollRecvs {ρ : Type} (recv : List ρ → Option (Except IoFailure (List Arrival))) :
    Nat → List (Readiness ρ) → Option (List (Except IoError (List Arrival)))
  | 0, _ => some []
  | iters + 1, script =>
      match pollRecv recv script with
      | none => none
      | some (.pending, _) => some []
      | some (.ready result, rest) => (pollRecvs recv iters rest).map fun results => result :: results

/-- `poll_recv` of the fallback: one datagram a call, or an error of the runtime. -/
def recvFrom (script : List (Except IoError Arrival)) : List (Except IoError (List Arrival)) :=
  script.map fun result => result.map fun arrival => [arrival.truncated]

end Udp

end AsyncUdx
