import AsyncUdx.Emission
import AsyncUdx.Reassembly

/-! Two streams connected to each other over a network that loses, duplicates and reorders. The network is
the list of all packets one side has handed to its socket: any of them may arrive at the other side at any
time, any number of times, or never. What arrives is decoded from the bytes of the packet, as the socket of
the receiver does it. -/

namespace AsyncUdx

open Relation UdxStreamInner Reassembly

inductive Side
  | a
  | b
  deriving DecidableEq, Repr

def Side.other : Side → Side
  | .a => .b
  | .b => .a

structure Pair where
  a : UdxStream
  b : UdxStream

inductive PairEvent
  /-- A call of the users or the runtime of one side. -/
  | call (x : Side) (c : Call)
  /-- The `n`-th packet transmitted by a side arrives at the other one. -/
  | deliver (x : Side) (n : Nat)
  deriving DecidableEq, Repr

namespace Pair

/-- Two streams, each the remote of the other. -/
def connect (startA startB : Nat) (addrA addrB : SocketAddr) (idA idB : UInt32) : Pair where
  a := .connect startA addrB idB idA
  b := .connect startB addrA idA idB

def peer (p : Pair) : Side → UdxStream
  | .a => p.a
  | .b => p.b

def set (p : Pair) (x : Side) (u : UdxStream) : Pair :=
  match x with
  | .a => { p with a := u }
  | .b => { p with b := u }

/-- What the socket at the other side makes of the `n`-th packet transmitted: the packet for its stream. -/
def datagram (p : Pair) (x : Side) (n : Nat) : Option IncomingPacket :=
  match (transmitted (p.peer x).inner.sendTx.events)[n]? with
  | none => none
  | some ref =>
      match IncomingPacket.ofDatagram (p.peer x.other).inner.remoteAddr ref.deref.buf.asSlice with
      | .error _ => none
      | .ok packet => if packet.header.streamId = (p.peer x.other).inner.localId then some packet else none

def step (p : Pair) : PairEvent → Pair
  | .call x c => p.set x ((p.peer x).step (.call c))
  | .deliver x n =>
      match p.datagram x n with
      | none => p
      | some packet =>
          p.set x.other ((p.peer x.other).step (.recv packet.header packet.buf packet.source))

/-- The states of every run of two connected streams. -/
def Reachable (p : Pair) : Prop :=
  ∃ (startA startB : Nat) (addrA addrB : SocketAddr) (idA idB : UInt32) (events : List PairEvent),
    Runs.run step (connect startA startB addrA addrB idA idB) events = p

end Pair

/-! ### A pair seen from one side -/

/-- A packet that one stream has transmitted, as the other one receives it. -/
def Arrives (u v : UdxStream) (packet : IncomingPacket) : Prop :=
  ∃ ref ∈ transmitted u.inner.sendTx.events,
    IncomingPacket.ofDatagram v.inner.remoteAddr ref.deref.buf.asSlice = .ok packet

/-- What an event does to a stream and its peer. -/
inductive Link (u v : UdxStream) : UdxStream → UdxStream → Prop
  | stay : Link u v u v
  | near (c : Call) : Link u v (u.step (.call c)) v
  | far (c : Call) : Link u v u (v.step (.call c))
  | there (packet : IncomingPacket) (h : Arrives u v packet) :
      Link u v u (v.step (.recv packet.header packet.buf packet.source))
  | back (packet : IncomingPacket) (h : Arrives v u packet) :
      Link u v (u.step (.recv packet.header packet.buf packet.source)) v

theorem Link.symm {u v u' v' : UdxStream} (h : Link u v u' v') : Link v u v' u' := by
  cases h with
  | stay => exact .stay
  | near c => exact .far c
  | far c => exact .near c
  | there packet h => exact .back packet h
  | back packet h => exact .there packet h

namespace Pair

theorem datagram_arrives {p : Pair} {x : Side} {n : Nat} {packet : IncomingPacket}
    (h : p.datagram x n = some packet) : Arrives (p.peer x) (p.peer x.other) packet := by
  unfold datagram at h
  split at h
  · cases h
  · rename_i ref href
    split at h
    · cases h
    · rename_i packet' hpacket
      split at h
      · cases h
        exact ⟨ref, List.mem_of_getElem? href, hpacket⟩
      · cases h

/-- Every event is such a step, from whichever side it is seen. -/
theorem step_link (p : Pair) (e : PairEvent) (x : Side) :
    Link (p.peer x) (p.peer x.other) ((p.step e).peer x) ((p.step e).peer x.other) := by
  cases e with
  | call z c =>
      cases x <;> cases z
      · exact .near c
      · exact .far c
      · exact .far c
      · exact .near c
  | deliver z n =>
      rw [step]
      split
      · exact .stay
      · rename_i packet hpacket
        have harrives := datagram_arrives hpacket
        cases x <;> cases z
        · exact .there packet harrives
        · exact .back packet harrives
        · exact .back packet harrives
        · exact .there packet harrives

/-- **Invariants of a pair.** What holds of two freshly connected streams and is kept by every step that ends
within a bound, as seen from one side, holds in every reachable state within the bound. -/
theorem Reachable.invariant (x : Side) (Inv : UdxStream → UdxStream → Prop) (Bound : UdxStream → UdxStream → Prop)
    (hconnect : ∀ start dest remoteId localId start' dest' remoteId' localId',
      Inv (.connect start dest remoteId localId) (.connect start' dest' remoteId' localId'))
    (hback : ∀ u v u' v', Link u v u' v' → Bound u' v' → Bound u v)
    (hstep : ∀ u v u' v', Link u v u' v' → Inv u v → Bound u' v' → Inv u' v')
    {p : Pair} (hp : p.Reachable) (hbound : Bound (p.peer x) (p.peer x.other)) :
    Inv (p.peer x) (p.peer x.other) := by
  obtain ⟨startA, startB, addrA, addrB, idA, idB, events, rfl⟩ := hp
  refine Runs.run_invariant_bounded (fun _ => True) (fun p : Pair => Inv (p.peer x) (p.peer x.other))
    (fun p : Pair => Bound (p.peer x) (p.peer x.other)) (fun _ _ _ => trivial) ?_ ?_ trivial ?_ hbound
  · exact fun p e _ hb => hback _ _ _ _ (step_link p e x) hb
  · exact fun p e _ hi hb => hstep _ _ _ _ (step_link p e x) hi hb
  · cases x <;> exact hconnect _ _ _ _ _ _ _ _

end Pair

end AsyncUdx
