import AsyncUdx.SendAccounting

/-! What a stream puts on the network. Every packet in the send queue and every packet handed to the socket
is a copy of a data packet the stream has created, under the number of its creation, or a state packet
without payload; its bytes decode to its header. This holds whatever the peer sends, as long as the numbers
of the data packets do not wrap. -/

namespace AsyncUdx

open Relation UdxStreamInner

variable {ok : IncomingPacket → Prop} {now : Nat}

/-- The same header and the same bytes; the atomics may differ. -/
def SameContent (p q : Packet) : Prop := p.header = q.header ∧ p.buf = q.buf

/-- A state packet: no flag but END, no payload, bytes that decode. -/
structure IsState (packet : Packet) : Prop where
  typ : packet.header.typ = 0 ∨ packet.header.typ = udxHeaderEnd
  body : packet.body = []
  encoded : packet.Encoded

/-- The `n`-th data packet created: its number, its flag, a payload, bytes that decode. -/
structure IsData (packet : Packet) (n : Nat) : Prop where
  seq : packet.header.seq.toNat = n
  typ : packet.header.typ = udxHeaderData
  body : packet.body ≠ []
  encoded : packet.Encoded

/-- A copy of one of the data packets created, or a state packet. -/
def Emitted (created : List Packet) (packet : Packet) : Prop :=
  (∃ original ∈ created, SameContent packet original) ∨ IsState packet

/-- The packets handed to the socket so far. -/
def transmitted (events : List EventOutgoing) : List PacketRef :=
  events.flatMap fun
    | .transmit set => set.packets
    | _ => []

/-- The fields of a stream that concern what it emits. -/
structure EmitSide where
  seq : UInt32
  error : Option UdxError
  state : StreamState
  outgoing : SeqMap Packet
  sendQueue : List PacketRef
  events : List EventOutgoing
  created : List Packet

def UdxStreamInner.emitSide (s : UdxStreamInner) : EmitSide where
  seq := s.seq
  error := s.error
  state := s.state
  outgoing := s.outgoing
  sendQueue := s.sendQueue
  events := s.sendTx.events
  created := s.ghost.created

structure Emits (v : EmitSide) : Prop where
  /-- A stream that closes its side has been terminated. -/
  terminated : v.state.isLocalClosed = true → v.error.isSome
  seq_eq : v.seq.toNat = v.created.length
  created : ∀ n packet, v.created[n]? = some packet → IsData packet n
  outgoing : ∀ k packet, v.outgoing.lookup k = some packet → ∃ original ∈ v.created, SameContent packet original
  queued : ∀ ref ∈ v.sendQueue, Emitted v.created ref.deref
  sent : ∀ ref ∈ transmitted v.events, Emitted v.created ref.deref

/-! ### State packets -/

theorem statePacket_isState (s : UdxStreamInner) : IsState s.statePacket where
  typ := statePacket_typ s
  body := statePacket_body s
  encoded := by
    refine Packet.new_encoded _ _ _ ?_ (by decide : (0 : Nat) < 256)
    change s.statePacket.header.typ < 256
    rcases statePacket_typ s with h | h <;> rw [h] <;> decide

/-- A packet joins the queue. -/
theorem Emits.queue {v : EmitSide} (hv : Emits v) {ref : PacketRef} (href : Emitted v.created ref.deref) :
    Emits { v with sendQueue := v.sendQueue ++ [ref] } where
  terminated := hv.terminated
  seq_eq := hv.seq_eq
  created := hv.created
  outgoing := hv.outgoing
  queued := by
    intro other hother
    rcases List.mem_append.mp hother with h | h
    · exact hv.queued other h
    · rw [List.mem_singleton] at h
      exact h ▸ href
  sent := hv.sent

theorem terminate_emits {s : UdxStreamInner} (hs : Emits s.emitSide) (error : UdxError) :
    Emits (s.terminate error).emitSide := by
  let marked : UdxStreamInner := { s with
    error := some error
    state := s.state.closeLocal
    ghost := { s.ghost with reasons := s.ghost.reasons ++ [error.kind] } }
  have hmarked : Emits marked.emitSide :=
    ⟨fun _ => rfl, hs.seq_eq, hs.created, hs.outgoing, hs.queued, hs.sent⟩
  exact hmarked.queue (Or.inr (statePacket_isState marked))

/-! ### Copies of data packets -/

theorem Emits.replace {v : EmitSide} (hv : Emits v) {i : UInt32} {packet : Packet}
    (hlookup : v.outgoing.lookup i = some packet) (packet' : Packet) (hsame : SameContent packet' packet) :
    Emits { v with outgoing := v.outgoing.insert i packet' } where
  terminated := hv.terminated
  seq_eq := hv.seq_eq
  created := hv.created
  outgoing := by
    intro k p hp
    rcases AList.lookup_insert_eq_some hp with ⟨rfl, rfl⟩ | ⟨-, hp⟩
    · obtain ⟨original, horiginal, hcopy⟩ := hv.outgoing _ packet hlookup
      exact ⟨original, horiginal, hsame.1.trans hcopy.1, hsame.2.trans hcopy.2⟩
    · exact hv.outgoing k p hp
  queued := hv.queued
  sent := hv.sent

theorem ackPacket_emits {s : UdxStreamInner} (i : UInt32) (hs : Emits s.emitSide) :
    Emits (s.ackPacket now i).emitSide := by
  unfold ackPacket
  split
  · refine ⟨hs.terminated, hs.seq_eq, hs.created, fun k packet h => ?_, hs.queued, hs.sent⟩
    exact hs.outgoing k packet (AList.lookup_erase_eq_some h).2
  · exact hs

theorem transmitted_append (events events' : List EventOutgoing) :
    transmitted (events ++ events') = transmitted events ++ transmitted events' := List.flatMap_append

/-- A packet that was handed over before or is in one of the sets that are handed over now. -/
theorem mem_transmitted_append {events : List EventOutgoing} {sets : List PacketSet} {ref : PacketRef}
    (h : ref ∈ transmitted (events ++ sets.map .transmit)) :
    ref ∈ transmitted events ∨ ∃ set ∈ sets, ref ∈ set.packets := by
  rw [transmitted_append] at h
  refine (List.mem_append.mp h).imp id fun h => ?_
  obtain ⟨event, hevent, href⟩ := List.mem_flatMap.mp h
  obtain ⟨set, hset, rfl⟩ := List.mem_map.mp hevent
  exact ⟨set, hset, href⟩

/-- The completion of the driver hands no packet to the socket. -/
theorem complete_transmitted (s : UdxStreamInner) :
    transmitted s.complete.sendTx.events = transmitted s.sendTx.events :=
  (transmitted_append _ _).trans (List.append_nil _)

theorem Micro.emits {s t : UdxStreamInner} (h : Micro ok now s t) (hs : Emits s.emitSide) :
    Emits t.emitSide := by
  cases h with
  | ackNext packet hok hlt =>
      exact ackPacket_emits _ ⟨hs.terminated, hs.seq_eq, hs.created, hs.outgoing, hs.queued, hs.sent⟩
  | sack packet i hok htype => exact ackPacket_emits i hs
  | park i packet hlookup hwaiting hmax hdue => exact hs.replace hlookup _ ⟨rfl, rfl⟩
  | requeue i packet hlookup hwaiting hroom =>
      let again : Packet := { packet with waiting := false, queuedAt := now :: packet.queuedAt }
      have hcopy : Emitted s.ghost.created (PacketRef.shared again).deref := Or.inl (hs.outgoing i packet hlookup)
      exact (hs.replace hlookup again ⟨rfl, rfl⟩).queue hcopy
  | mark i packet sent hlookup => exact hs.replace hlookup _ ⟨rfl, rfl⟩
  | finish packet hok htype =>
      have hclosed : Emits { s with state := s.state.closeRemote }.emitSide := by
        refine ⟨fun h => hs.terminated ?_, hs.seq_eq, hs.created, hs.outgoing, hs.queued, hs.sent⟩
        change s.state.isLocalClosed = true
        change s.state.closeRemote.isLocalClosed = true at h
        cases hstate : s.state <;> rw [hstate] at h <;> first | rfl | exact h
      exact terminate_emits hclosed _
  | data packet hok htype =>
      -- only the state packet at the end concerns what is emitted
      refine hs.queue (Or.inr ?_)
      exact statePacket_isState _
  | transmit rest sets hrest hsets =>
      refine ⟨hs.terminated, hs.seq_eq, hs.created, hs.outgoing, fun ref href => hs.queued ref (hrest ref href), ?_⟩
      intro ref href
      rcases mem_transmitted_append href with h | ⟨set, hset, hmem⟩
      · exact hs.sent ref h
      · exact hs.queued ref (hsets set hset ref hmem)
  | _ => exact hs

/-- A stream that has not been terminated has not closed its side. -/
theorem Emits.opened {v : EmitSide} (hv : Emits v) (herror : v.error = none) : v.state.isLocalClosed = false := by
  rw [Bool.eq_false_iff]
  intro hclosed
  have hsome := hv.terminated hclosed
  rw [herror] at hsome
  cases hsome

theorem createHeader_typ {s : UdxStreamInner} (hopen : s.state.isLocalClosed = false) (typ : UInt32) :
    (s.createHeader typ).typ = typ := by
  rw [createHeader, hopen]
  rfl

theorem createPacket_encoded {s : UdxStreamInner} (hopen : s.state.isLocalClosed = false) (body : List UInt8) :
    (s.createPacket udxHeaderData body).Encoded := by
  have hbyte : (s.createHeader udxHeaderData).typ < 256 := by
    rw [createHeader_typ hopen]
    decide
  exact Packet.new_encoded s.remoteAddr (s.createHeader udxHeaderData) body hbyte (by decide : (0 : Nat) < 256)

/-- The data packet of an open stream carries the next number. -/
theorem createPacket_isData {s : UdxStreamInner} {body : List UInt8} (hs : Emits s.emitSide) (herror : s.error = none)
    (hbody : body ≠ []) : IsData (s.createPacket udxHeaderData body) s.ghost.created.length := by
  have hopen : s.state.isLocalClosed = false := hs.opened herror
  have hpacket : (s.createPacket udxHeaderData body).body = body := Packet.new_body _ _ _
  exact ⟨hs.seq_eq, createHeader_typ hopen _, by rwa [hpacket], createPacket_encoded hopen body⟩

/-- An admitted data packet is created under the next number. -/
theorem pushData_emits {s : UdxStreamInner} {body : List UInt8} (hs : Emits s.emitSide) (herror : s.error = none)
    (hbody : body ≠ []) (hfew : FewCreated (s.pushData now body)) : Emits (s.pushData now body).emitSide := by
  let packet : Packet := { s.createPacket udxHeaderData body with queuedAt := [now] }
  have hlen : s.ghost.created.length + 1 < 2 ^ 32 := by
    have h : (s.ghost.created ++ [packet]).length < 2 ^ 32 := hfew
    rwa [List.length_append, List.length_singleton] at h
  have hseq : s.seq.toNat = s.ghost.created.length := hs.seq_eq
  have hdata : IsData packet s.ghost.created.length := by
    have h := createPacket_isData hs herror hbody
    exact ⟨h.seq, h.typ, h.body, h.encoded⟩
  have hgrow : ∀ p, (∃ original ∈ s.ghost.created, SameContent p original) →
      ∃ original ∈ s.ghost.created ++ [packet], SameContent p original :=
    fun p ⟨original, horiginal, h⟩ => ⟨original, List.mem_append_left _ horiginal, h⟩
  have hgrow' : ∀ p, Emitted s.ghost.created p → Emitted (s.ghost.created ++ [packet]) p :=
    fun p h => h.imp (hgrow p) id
  have hnew : ∃ original ∈ s.ghost.created ++ [packet], SameContent packet original :=
    ⟨packet, List.mem_append_right _ (List.mem_singleton.mpr rfl), rfl, rfl⟩
  constructor
  · exact hs.terminated
  · change (s.seq + 1).toNat = (s.ghost.created ++ [packet]).length
    rw [Counter.toNat_succ (by omega), hseq, List.length_append, List.length_singleton]
  · intro n p hp
    change (s.ghost.created ++ [packet])[n]? = some p at hp
    rcases Nat.lt_trichotomy n s.ghost.created.length with hlt | heq | hgt
    · rw [List.getElem?_append_left hlt] at hp
      exact hs.created n p hp
    · subst heq
      rw [List.getElem?_concat_length] at hp
      cases hp
      exact hdata
    · rw [List.getElem?_eq_none (by rw [List.length_append, List.length_singleton]; omega)] at hp
      cases hp
  · intro k p hp
    rcases AList.lookup_insert_eq_some hp with ⟨-, rfl⟩ | ⟨-, hp⟩
    · exact hnew
    · exact hgrow p (hs.outgoing k p hp)
  · intro ref href
    rcases List.mem_append.mp href with h | h
    · exact hgrow' _ (hs.queued ref h)
    · rw [List.mem_singleton] at h
      subst h
      exact Or.inl hnew
  · exact fun ref href => hgrow' _ (hs.sent ref href)

theorem Move.emits {s t : UdxStreamInner} (h : Move ok now s t) (hs : Emits s.emitSide) (ht : FewCreated t) :
    Emits t.emitSide := by
  cases h with
  | micro h => exact h.emits hs
  | send body herror hbody hlen hroom => exact pushData_emits hs herror hbody ht
  | terminate error => exact terminate_emits hs error
  | complete hdone =>
      refine ⟨hs.terminated, hs.seq_eq, hs.created, hs.outgoing, hs.queued, fun ref href => hs.sent ref ?_⟩
      exact complete_transmitted s ▸ href
  | _ => exact hs

/-- **What a stream emits**, whatever its peer does. -/
theorem emits_invariant : MoveInvariant UdxStream.anyPacket (fun s => Emits s.emitSide) FewCreated where
  connect := fun _ _ _ _ =>
    { terminated := fun h => by cases h
      seq_eq := rfl
      created := fun n packet h => by cases h
      outgoing := fun k _ h => absurd (AList.mem_of_lookup h) (AList.notMem_empty k)
      queued := fun _ h => absurd h List.not_mem_nil
      sent := fun _ h => absurd h List.not_mem_nil }
  back := fun _ _ _ h => h.fewCreated
  move := fun _ _ _ h => h.emits
  channel := fun _ _ => id
  channel_back := fun _ _ => id

end AsyncUdx
