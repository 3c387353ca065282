import AsyncUdx.AfterLoss

/-! Recovery from loss, between two streams. Suppose that everything two connected streams have transmitted so far is
lost. As long as no outstanding packet has used up its transmissions, the timer of the sender and the packets
transmitted from then on bring everything to the reader: one timeout is enough, since each acknowledgement makes room
for the next packets. This holds from every reachable state, and also for a sender that is being closed. -/

namespace AsyncUdx

open Relation UdxStreamInner

/-- A stream that takes packets and answers them. -/
structure Listening (u : UdxStream) : Prop extends Online u, Heeds u where
  onTime : OnTime u

section Listening

variable {u : UdxStream} {cx : Context} (h : Listening u)

include h

theorem Listening.checked (hu : u.Reachable) (hnow : cx.now = u.clock) : (u.checked cx).2 = .ok () :=
  congrArg Prod.snd (pollCheckTimeouts_unexpired (h.onTime.unexpired hu hnow))

theorem Listening.poll (hu : u.Reachable) (hnow : cx.now = u.clock) (hlag : cx.timerLag = 0) :
    Listening (u.poll cx) where
  toOnline := h.toOnline.poll h.going (h.checked hu hnow)
  toHeeds := h.toHeeds.poll h.toOnline (h.checked hu hnow)
  onTime := h.onTime.poll hu h.toOnline h.going hnow hlag

theorem Listening.arrive {header : Header} (buf : List UInt8) (source : SocketAddr)
    (htyp : header.typ = 0 ∨ header.typ = udxHeaderData) : Listening (u.step (.recv header buf source)) where
  toOnline := ⟨h.running, h.recv, h.send⟩
  toHeeds := h.toHeeds.arrive buf source htyp
  onTime := h.onTime

end Listening

/-- What a read leaves alone of a stream. -/
def UdxStreamInner.unreadSide (s : UdxStreamInner) :
    RecvChannel × SendChannel × Option UdxError × Nat × UInt32 × UInt32 :=
  (s.recvRx, s.sendTx, s.error, s.rtoTimeout, s.remoteAcked, s.seq)

theorem readSide_call (u : UdxStream) (waker : Waker) (remaining : Nat) :
    (u.call (.read waker remaining)).inner.unreadSide = u.inner.unreadSide := by
  rw [UdxStream.call]
  split
  · rfl
  · exact (pollRead_frame unreadSide (fun _ _ => rfl) _ _ _).trans
      (readNext_frame unreadSide (fun _ _ _ => rfl) (fun _ _ => rfl) _ _)

theorem Listening.read {u : UdxStream} (h : Listening u) (waker : Waker) (remaining : Nat) :
    Listening (u.call (.read waker remaining)) := by
  have hside := readSide_call u waker remaining
  have hdriver : (u.call (.read waker remaining)).driver = u.driver ∧
      (u.call (.read waker remaining)).clock = u.clock := by
    rw [UdxStream.call]
    split <;> exact ⟨rfl, rfl⟩
  have hrecv : (u.call (.read waker remaining)).inner.recvRx = u.inner.recvRx := congrArg Prod.fst hside
  refine ⟨⟨hdriver.1.trans h.running, by rw [hrecv]; exact h.recv, ?_⟩, ⟨?_, by rw [hrecv]; exact h.channel⟩, ?_⟩
  · exact (congrArg (fun side => side.2.1.closed) hside).trans h.send
  · exact (congrArg (fun side => side.2.2.1) hside).trans h.error
  · refine h.onTime.imp (fun hpending => ?_) fun hacked => ?_
    · rw [hdriver.2]
      exact hpending.trans_eq (congrArg (fun side => side.2.2.2.1) hside).symm
    · exact (congrArg (fun side => side.2.2.2.2.1) hside).trans
        (hacked.trans (congrArg (fun side => side.2.2.2.2.2) hside).symm)

theorem Resending.arrive {mark : Nat} {u : UdxStream} (h : Resending mark u) (header : Header) (buf : List UInt8)
    (source : SocketAddr) : Resending mark (u.step (.recv header buf source)) :=
  ⟨⟨h.running, h.recv, h.send⟩, h.onTime, h.idle, h.mark_le, h.oldestFirst, h.copied, h.first⟩

namespace Pair

/-! ### Events of the recovery -/

/-- A poll of a side, on time, that takes every packet of its channel. -/
def pollAll (p : Pair) (x : Side) : PairEvent := .call x (.poll 0 0 ((p.peer x).inner.recvRx.queue.length + 1) 1)

def pollCx (p : Pair) (x : Side) : Context := ⟨0, (p.peer x).clock, 0, (p.peer x).inner.recvRx.queue.length + 1, 1⟩

theorem pollAll_fresh (mark : Side → Nat) (p : Pair) (x : Side) : Fresh mark (p.pollAll x) := ⟨rfl, Nat.succ_pos _⟩

theorem pollAll_peer {p : Pair} {x : Side} (hrunning : (p.peer x).driver = .running) :
    (p.step (p.pollAll x)).peer x = (p.peer x).poll (p.pollCx x) := by
  rw [pollAll, step, peer_set, if_pos rfl, UdxStream.step, UdxStream.call_poll hrunning]
  rfl

theorem pollAll_other (p : Pair) (x : Side) : (p.step (p.pollAll x)).peer x.other = p.peer x.other := by
  cases x <;> rfl

theorem Reachable.deliver_sent {p : Pair} (hp : p.Reachable) {x : Side} {n : Nat} {ref : PacketRef}
    (href : (p.peer x).sent[n]? = some ref) :
    (p.step (.deliver x n)).peer x = p.peer x ∧ (p.step (.deliver x n)).peer x.other =
      (p.peer x.other).step (.recv ref.deref.header ref.deref.body (p.peer x.other).inner.remoteAddr) := by
  have haddressed := (hp.peer x).addressed (List.mem_of_getElem? href)
  rw [hp.deliver_eq x href haddressed.encoded haddressed.streamId]
  cases x <;> exact ⟨rfl, rfl⟩

theorem Reachable.booked {p : Pair} (hp : p.Reachable) (hfew : ∀ z, FewCreated (p.peer z).inner) (x : Side) :
    Booked (p.peer x).inner where
  accounted := accounted_invariant.reachable (fun _ _ _ => trivial) (hp.peer x) (hfew x)
  unacked := fun k hk => (Counter.mem_range.mp ((hp.inWindow x (hfew x) (hfew x.other)).2 k hk)).1

/-- A stream that has everything acknowledged stays so. -/
theorem Reachable.poll_acked {p : Pair} (hp : p.Reachable) (hfew : ∀ z, FewCreated (p.peer z).inner) {x : Side}
    (hopen : (p.peer x).inner.closedAndDrained = false) (hrunning : (p.peer x).driver = .running)
    (hacked : (p.peer x).inner.remoteAcked = (p.peer x).inner.seq) :
    ((p.step (p.pollAll x)).peer x).inner.remoteAcked = ((p.step (p.pollAll x)).peer x).inner.seq := by
  have hresumes : Resumes (fun _ => 0) p (p.step (p.pollAll x)) := (Runs.Reaches.refl p).tail (pollAll_fresh _ p x)
  have hseq : ((p.step (p.pollAll x)).peer x).inner.seq = _ := congrArg Setting.seq (hresumes.setting_eq x)
  have hle := ((hp.step (p.pollAll x)).inWindow x (hresumes.few (hfew x)) (hresumes.few (hfew x.other))).1
  refine UInt32.le_antisymm hle ?_
  rw [hseq, pollAll_peer hrunning, poll_remoteAcked hopen]
  change (p.peer x).inner.seq ≤ _
  rw [← hacked]
  exact Counter.le_larger_left _ _

/-! ### A round -/

/-- One side sends again what may be lost, and the other one listens. -/
structure Recovering (mark : Side → Nat) (x : Side) (p : Pair) : Prop where
  reachable : p.Reachable
  few : ∀ z, FewCreated (p.peer z).inner
  sender : Resending (mark x) (p.peer x)
  listener : Listening (p.peer x.other)
  mark_le : mark x.other ≤ (p.peer x.other).sent.length

/-- What the recovery of one side leaves alone: the sender is not terminated by it, and the packets of the listener
are not declared lost. -/
structure Spares (x : Side) (p q : Pair) : Prop where
  heeds : Heeds (p.peer x) → Heeds (q.peer x)
  attempts : AttemptsLeft (p.peer x.other).inner → AttemptsLeft (q.peer x.other).inner
  acked : (p.peer x.other).inner.remoteAcked = (p.peer x.other).inner.seq →
    (q.peer x.other).inner.remoteAcked = (q.peer x.other).inner.seq

theorem Spares.refl (x : Side) (p : Pair) : Spares x p p := ⟨id, id, id⟩

/-- A poll of the sender that does not fail. -/
theorem pollAll_spares {p : Pair} {x : Side} (honline : Online (p.peer x))
    (hcheck : ((p.peer x).checked (p.pollCx x)).2 = .ok ()) : Spares x p (p.step (p.pollAll x)) where
  heeds := fun hheeds => by
    rw [pollAll_peer honline.running]
    exact hheeds.poll honline hcheck
  attempts := by
    rw [pollAll_other]
    exact id
  acked := by
    rw [pollAll_other]
    exact id

theorem Spares.trans {x : Side} {p q r : Pair} (h : Spares x p q) (h' : Spares x q r) : Spares x p r :=
  ⟨h'.heeds ∘ h.heeds, h'.attempts ∘ h.attempts, h'.acked ∘ h.acked⟩

/-- The oldest packet of the sender was transmitted again, and it carries data. -/
theorem Recovering.oldest {mark : Side → Nat} {x : Side} {p : Pair} (h : Recovering mark x p)
    (hleft : (p.peer x).inner.remoteAcked ≠ (p.peer x).inner.seq) :
    ∃ n ref, mark x ≤ n ∧ (p.peer x).sent[n]? = some ref ∧ ref.deref.header.typ = udxHeaderData ∧
      ref.deref.header.seq = (p.peer x).inner.remoteAcked := by
  have hlined := h.reachable.lined x (h.few x.other)
  have hle := (h.reachable.inWindow x (h.few x) (h.few x.other)).1
  obtain ⟨packet, hlookup⟩ := AList.exists_lookup_of_mem
    (hlined.mem _ (UInt32.le_refl _) (UInt32.lt_of_le_of_ne hle hleft))
  have hfirst := h.sender.first _ packet hlookup (h.reachable.booked h.few x).unacked
  obtain ⟨n, ref, hn, href, hheader⟩ := h.sender.copied _ packet hlookup hfirst
  have hemits := (h.reachable.flow x (h.few x)).emits
  obtain ⟨original, hmem, hsame⟩ := hemits.outgoing _ packet hlookup
  obtain ⟨i, hi⟩ := List.mem_iff_getElem?.mp hmem
  refine ⟨n, ref, hn, href, ?_, ?_⟩
  · rw [hheader, hsame.1]
    exact (hemits.created i original hi).typ
  · rw [hheader]
    exact hlined.seq_eq _ packet hlookup

/-- The first half of a round: the oldest packet arrives, and the listener acknowledges it. -/
theorem Recovering.answered {mark : Side → Nat} {x : Side} {p : Pair} (h : Recovering mark x p)
    (hleft : (p.peer x).inner.remoteAcked ≠ (p.peer x).inner.seq) :
    ∃ q, Resumes mark p q ∧ Spares x p q ∧ q.peer x = p.peer x ∧ Listening (q.peer x.other) ∧
      ∃ n ref, mark x.other ≤ n ∧ (q.peer x.other).sent[n]? = some ref ∧ ref.deref.header.typ = 0 ∧
        (p.peer x).inner.remoteAcked < ref.deref.header.ack := by
  obtain ⟨n, ref, hn, href, htyp, hseq⟩ := h.oldest hleft
  obtain ⟨hnear, hfar⟩ := h.reachable.deliver_sent href
  let p₁ := p.step (.deliver x n)
  have hresumes₁ : Resumes mark p p₁ := (Runs.Reaches.refl p).tail hn
  have hreach₁ : p₁.Reachable := h.reachable.step _
  have hlistening₁ : Listening (p₁.peer x.other) := by
    rw [hfar]
    exact h.listener.arrive _ _ (Or.inr htyp)
  let p₂ := p₁.step (p₁.pollAll x.other)
  have hresumes₂ : Resumes mark p p₂ := hresumes₁.tail (pollAll_fresh mark p₁ x.other)
  have hreach₂ : p₂.Reachable := hreach₁.step _
  have hpoll : p₂.peer x.other = (p₁.peer x.other).poll (p₁.pollCx x.other) := pollAll_peer hlistening₁.running
  have hsame : p₂.peer x = p.peer x := by
    rw [← hnear]
    have hother := p₁.pollAll_other x.other
    rwa [Side.other_other] at hother
  have hqueue : (p₁.peer x.other).inner.recvRx.queue = (p.peer x.other).inner.recvRx.queue ++
      [⟨ref.deref.header, ref.deref.body, 0, (p.peer x.other).inner.remoteAddr⟩] := by
    rw [hfar]
    rfl
  obtain ⟨hreceived, m, answer, hm, hanswer, hflags, hack⟩ := hlistening₁.toHeeds.answers (hreach₁.peer x.other)
    hlistening₁.toOnline (hlistening₁.checked (hreach₁.peer x.other) rfl) hqueue
    (show _ ≤ (p₁.pollCx x.other).budget from Nat.le_succ _) htyp
  rw [← hpoll] at hreceived hanswer hack
  refine ⟨p₂, hresumes₂, ⟨?_, ?_, ?_⟩, hsame, ?_, m, answer, ?_, hanswer, hflags, ?_⟩
  · rw [hsame]
    exact id
  · intro hattempts
    rw [hpoll]
    refine poll_attemptsLeft (hreach₁.peer x.other) hlistening₁.toOnline hlistening₁.going
      (hlistening₁.onTime.unexpired (hreach₁.peer x.other) rfl) ?_
    rw [hfar]
    exact hattempts
  · intro hacked
    refine hreach₁.poll_acked (fun z => hresumes₁.few (h.few z)) hlistening₁.going hlistening₁.running ?_
    rw [hfar]
    exact hacked
  · rw [hpoll]
    exact hlistening₁.poll (hreach₁.peer x.other) rfl rfl
  · exact (h.mark_le.trans (hresumes₁.sent_grows x.other).length_le).trans hm
  · -- what was received is acknowledged, and not less than before
    have hagreed := hreach₂.agreed x (hresumes₂.few (h.few x)) (hresumes₂.few (h.few x.other))
    have hle := hagreed.unforgotten.remoteAcked_le
    rw [hsame] at hle
    rw [hack]
    refine UInt32.lt_of_le_of_ne hle fun heq => hagreed.flow.receives.reassembled.least.1 ?_
    change (p₂.peer x.other).inner.ack ∈ (p₂.peer x.other).inner.ghost.received
    rw [← show (p.peer x).inner.remoteAcked = (p₂.peer x.other).inner.ack from heq, ← hseq]
    exact hreceived

/-- A sender with something outstanding is not done. -/
theorem Reachable.going {p : Pair} (hp : p.Reachable) (hfew : ∀ z, FewCreated (p.peer z).inner) {x : Side}
    (hleft : (p.peer x).inner.remoteAcked ≠ (p.peer x).inner.seq) : (p.peer x).inner.closedAndDrained = false := by
  have hle := (hp.inWindow x (hfew x) (hfew x.other)).1
  have hmem := (hp.lined x (hfew x.other)).mem _ (UInt32.le_refl _) (UInt32.lt_of_le_of_ne hle hleft)
  rw [Bool.eq_false_iff, Ne, closedAndDrained_iff]
  rintro ⟨-, -, hempty⟩
  exact AList.notMem_of_isEmpty (List.isEmpty_iff.mpr hempty) _ hmem

/-- **One round.** The oldest packet arrives, its acknowledgement arrives, and the sender goes on with the packets
after it. -/
theorem Recovering.round {mark : Side → Nat} {x : Side} {p : Pair} (h : Recovering mark x p)
    (hleft : (p.peer x).inner.remoteAcked ≠ (p.peer x).inner.seq) :
    ∃ q, Resumes mark p q ∧ Spares x p q ∧ Recovering mark x q ∧
      (p.peer x).inner.remoteAcked < (q.peer x).inner.remoteAcked := by
  obtain ⟨p₁, hresumes₁, hspares, hsame, hlistening, n, ref, hn, href, htyp, hack⟩ := h.answered hleft
  have hreach₁ : p₁.Reachable := hresumes₁.reachable h.reachable
  obtain ⟨hnear, hfar⟩ := hreach₁.deliver_sent href
  rw [Side.other_other, hsame] at hfar
  let p₂ := p₁.step (.deliver x.other n)
  have hresumes₂ : Resumes mark p p₂ := hresumes₁.tail hn
  have hreach₂ : p₂.Reachable := hreach₁.step _
  have hfew₂ : ∀ z, FewCreated (p₂.peer z).inner := fun z => hresumes₂.few (h.few z)
  have hsender₂ : Resending (mark x) (p₂.peer x) := by
    rw [hfar]
    exact h.sender.arrive _ _ _
  have hopen₂ : (p₂.peer x).inner.closedAndDrained = false := by
    rw [hfar]
    exact h.reachable.going h.few hleft
  let p₃ := p₂.step (p₂.pollAll x)
  have hresumes₃ : Resumes mark p p₃ := hresumes₂.tail (pollAll_fresh mark p₂ x)
  have hpoll : p₃.peer x = (p₂.peer x).poll (p₂.pollCx x) := pollAll_peer hsender₂.running
  have hother : p₃.peer x.other = p₁.peer x.other := (p₂.pollAll_other x).trans hnear
  -- the answer has no flag, so it does not terminate the sender
  have hspares₂ : Spares x p₁ p₂ := by
    refine ⟨fun hheeds => ?_, by rw [hnear]; exact id, by rw [hnear]; exact id⟩
    rw [hfar]
    rw [hsame] at hheeds
    exact hheeds.arrive _ _ (Or.inl htyp)
  have hspares₃ : Spares x p₂ p₃ := pollAll_spares hsender₂.toOnline
    (congrArg Prod.snd (pollCheckTimeouts_unexpired (hsender₂.onTime.unexpired (hreach₂.peer x) rfl)))
  refine ⟨p₃, hresumes₃, (hspares.trans hspares₂).trans hspares₃, ⟨hresumes₃.reachable h.reachable,
    fun z => hresumes₃.few (h.few z), ?_, ?_, ?_⟩, ?_⟩
  · rw [hpoll]
    exact hsender₂.poll (hreach₂.peer x) (hreach₂.booked hfew₂ x) hopen₂ rfl rfl
  · rw [hother]
    exact hlistening
  · exact h.mark_le.trans (hresumes₃.sent_grows x.other).length_le
  · rw [hpoll, poll_remoteAcked hopen₂]
    refine UInt32.lt_of_lt_of_le hack (UInt32.le_trans ?_ (Counter.le_larger_right _ _))
    let answer : IncomingPacket := ⟨ref.deref.header, ref.deref.body, 0, (p.peer x).inner.remoteAddr⟩
    have hmem : answer ∈ (p₂.peer x).inner.recvRx.queue := by
      rw [hfar]
      exact List.mem_append_right _ (List.mem_singleton_self _)
    rw [← List.take_of_length_le (show _ ≤ (p₂.pollCx x).budget from Nat.le_succ _)] at hmem
    rw [appliedAck, hsender₂.recv]
    exact le_largestAck hmem

/-- Rounds until everything is acknowledged. -/
theorem Recovering.finishes {mark : Side → Nat} {x : Side} {p : Pair} (h : Recovering mark x p) :
    ∃ q, Resumes mark p q ∧ Spares x p q ∧ Recovering mark x q ∧
      (q.peer x).inner.remoteAcked = (q.peer x).inner.seq := by
  let Inv (q : Pair) : Prop := Resumes mark p q ∧ Spares x p q ∧ Recovering mark x q
  let rank (q : Pair) : Nat := (p.peer x).inner.seq.toNat - (q.peer x).inner.remoteAcked.toNat
  have hseq : ∀ q, Inv q → (q.peer x).inner.seq = (p.peer x).inner.seq := fun q hq =>
    congrArg Setting.seq (hq.1.setting_eq x)
  have hlower : ∀ r, Inv r → rank r ≠ 0 → ∃ t, Resumes mark r t ∧ Inv t ∧ rank t < rank r := by
    intro r hr hleft
    have hpos : (p.peer x).inner.seq.toNat - (r.peer x).inner.remoteAcked.toNat ≠ 0 := hleft
    obtain ⟨t, hstep, hspares, ht, hlt⟩ := hr.2.2.round fun heq => hpos (by rw [heq, hseq r hr, Nat.sub_self])
    refine ⟨t, hstep, ⟨hr.1.trans hstep, hr.2.1.trans hspares, ht⟩, ?_⟩
    have hlt := UInt32.lt_iff_toNat_lt.mp hlt
    change (p.peer x).inner.seq.toNat - _ < (p.peer x).inner.seq.toNat - _
    omega
  obtain ⟨q, -, hq, hrank⟩ := Runs.Reaches.exists_rank_zero Inv rank hlower ⟨.refl p, .refl x p, h⟩
  have hle := UInt32.le_iff_toNat_le.mp (hq.2.2.reachable.inWindow x (hq.2.2.few x) (hq.2.2.few x.other)).1
  have hzero : (p.peer x).inner.seq.toNat - (q.peer x).inner.remoteAcked.toNat = 0 := hrank
  rw [← hseq q hq] at hzero
  exact ⟨q, hq.1, hq.2.1, hq.2.2, UInt32.toNat.inj (by omega)⟩

/-! ### The timeout -/

/-- Two connected streams of which one may have lost everything it has transmitted, and the other one listens. -/
structure Threatened (mark : Side → Nat) (x : Side) (p : Pair) : Prop where
  reachable : p.Reachable
  few : ∀ z, FewCreated (p.peer z).inner
  online : Online (p.peer x)
  attempts : AttemptsLeft (p.peer x).inner
  listener : Listening (p.peer x.other)
  mark_le : ∀ z, mark z ≤ (p.peer z).sent.length

theorem Threatened.recovering {mark : Side → Nat} {x : Side} {p q : Pair} (h : Threatened mark x p)
    (hresumes : Resumes mark p q) (hother : q.peer x.other = p.peer x.other) {n : Nat}
    (hle : (p.peer x).sent.length ≤ n) (hsender : Resending n (q.peer x)) : Recovering mark x q where
  reachable := hresumes.reachable h.reachable
  few := fun z => hresumes.few (h.few z)
  sender := hsender.mono ((h.mark_le x).trans hle)
  listener := hother ▸ h.listener
  mark_le := hother ▸ h.mark_le x.other

/-- A sender that has nothing to handle waits for its timer. -/
theorem Threatened.fires {mark : Side → Nat} {x : Side} {p : Pair} (h : Threatened mark x p)
    (hidle : (p.peer x).inner.sendQueue = []) (hempty : (p.peer x).inner.recvRx.queue = []) :
    ∃ q, Resumes mark p q ∧ Spares x p q ∧ Recovering mark x q := by
  by_cases hacked : (p.peer x).inner.remoteAcked = (p.peer x).inner.seq
  · exact ⟨p, .refl p, .refl x p, h.recovering (.refl p) rfl (Nat.le_refl _)
      (Resending.of_idle (h.reachable.booked h.few x) h.online hidle hacked)⟩
  · let p₁ := p.step (.call x (.tick (p.peer x).inner.rtoTimeout))
    have hticked : p₁.peer x = { p.peer x with clock := (p.peer x).clock + (p.peer x).inner.rtoTimeout } := by
      cases x <;> rfl
    have hother₁ : p₁.peer x.other = p.peer x.other := by cases x <;> rfl
    have hresumes₁ : Resumes mark p p₁ := (Runs.Reaches.refl p).tail trivial
    have hreach₁ : p₁.Reachable := h.reachable.step _
    have hspares₁ : Spares x p p₁ := by
      refine ⟨fun hheeds => ?_, by rw [hother₁]; exact id, by rw [hother₁]; exact id⟩
      rw [hticked]
      exact ⟨hheeds.error, hheeds.channel⟩
    have honline₁ : Online (p₁.peer x) := by
      rw [hticked]
      exact ⟨h.online.running, h.online.recv, h.online.send⟩
    have hbooked₁ : Booked (p₁.peer x).inner := hreach₁.booked (fun z => hresumes₁.few (h.few z)) x
    have hopen₁ : (p₁.peer x).inner.closedAndDrained = false := by
      rw [hticked]
      exact h.reachable.going h.few hacked
    have hattempts₁ : AttemptsLeft (p₁.peer x).inner := by
      rw [hticked]
      exact h.attempts
    have hfired : ¬UdxStreamInner.Unexpired { (p₁.peer x).inner with driveWaker := none } (p₁.pollCx x) := by
      have hnil : (UdxStreamInner.pollIncoming { (p₁.peer x).inner with driveWaker := none } (p₁.pollCx x)).1 =
          { (p₁.peer x).inner with driveWaker := none } := by
        refine pollIncoming_nil ?_ _
        rw [hticked]
        exact hempty
      unfold UdxStreamInner.Unexpired
      rw [hnil, pollCx, hticked, not_or]
      refine ⟨?_, hacked⟩
      change ¬(p.peer x).clock + (p.peer x).inner.rtoTimeout < (p.peer x).inner.rtoTimeout + 0
      omega
    let p₂ := p₁.step (p₁.pollAll x)
    have hresumes₂ : Resumes mark p p₂ := hresumes₁.tail (pollAll_fresh mark p₁ x)
    have hcheck := checked_ok_of_attempts hfired (hreach₁.peer x).onFirewall hattempts₁
    have hsender := resending_of_fired (hreach₁.peer x) hbooked₁ honline₁ hopen₁ hcheck rfl hfired
    rw [← pollAll_peer honline₁.running] at hsender
    refine ⟨p₂, hresumes₂, hspares₁.trans (pollAll_spares honline₁ hcheck), ?_⟩
    exact h.recovering hresumes₂ ((p₁.pollAll_other x).trans hother₁) (hresumes₁.sent_grows x).length_le hsender

/-- A sender handles its channel; then its timer fires, unless everything has been acknowledged. -/
theorem Threatened.starts {mark : Side → Nat} {x : Side} {p : Pair} (h : Threatened mark x p) :
    ∃ q, Resumes mark p q ∧ Spares x p q ∧ Recovering mark x q := by
  have hbooked := h.reachable.booked h.few x
  cases hopen : (p.peer x).inner.closedAndDrained with
  | true =>
      obtain ⟨-, hidle, -⟩ := (closedAndDrained_iff _).mp hopen
      have hacked : (p.peer x).inner.remoteAcked = (p.peer x).inner.seq := by
        by_contra hleft
        rw [h.reachable.going h.few hleft] at hopen
        cases hopen
      exact ⟨p, .refl p, .refl x p, h.recovering (.refl p) rfl (Nat.le_refl _)
        (Resending.of_idle hbooked h.online hidle hacked)⟩
  | false =>
      let p₁ := p.step (p.pollAll x)
      have hresumes₁ : Resumes mark p p₁ := (Runs.Reaches.refl p).tail (pollAll_fresh mark p x)
      have hpoll : p₁.peer x = (p.peer x).poll (p.pollCx x) := pollAll_peer h.online.running
      by_cases hquiet : UdxStreamInner.Unexpired { (p.peer x).inner with driveWaker := none } (p.pollCx x)
      · have hcheck : ((p.peer x).checked (p.pollCx x)).2 = .ok () :=
          congrArg Prod.snd (pollCheckTimeouts_unexpired hquiet)
        have hthreatened : Threatened mark x p₁ := by
          refine ⟨hresumes₁.reachable h.reachable, fun z => hresumes₁.few (h.few z), ?_, ?_, ?_, fun z => ?_⟩
          · rw [hpoll]
            exact h.online.poll hopen hcheck
          · rw [hpoll]
            exact poll_attemptsLeft (h.reachable.peer x) h.online hopen hquiet h.attempts
          · rw [pollAll_other]
            exact h.listener
          · exact (h.mark_le z).trans (hresumes₁.sent_grows z).length_le
        obtain ⟨q, hresumes, hspares, hq⟩ := hthreatened.fires
          (by
            obtain ⟨-, events, hpolled, -⟩ := poll_checked h.online hopen hcheck
            rw [hpoll, hpolled])
          (by
            rw [hpoll, UdxStream.poll_recvRx _ hopen]
            exact List.drop_eq_nil_of_le (Nat.le_succ _))
        exact ⟨q, hresumes₁.trans hresumes, (pollAll_spares h.online hcheck).trans hspares, hq⟩
      · have hcheck := checked_ok_of_attempts hquiet (h.reachable.peer x).onFirewall h.attempts
        have hsender := resending_of_fired (h.reachable.peer x) hbooked h.online hopen hcheck rfl hquiet
        rw [← hpoll] at hsender
        exact ⟨p₁, hresumes₁, pollAll_spares h.online hcheck,
          h.recovering hresumes₁ (p.pollAll_other x) (Nat.le_refl _) hsender⟩

theorem Threatened.finishes {mark : Side → Nat} {x : Side} {p : Pair} (h : Threatened mark x p) :
    ∃ q, Resumes mark p q ∧ Spares x p q ∧ Recovering mark x q ∧
      (q.peer x).inner.remoteAcked = (q.peer x).inner.seq := by
  obtain ⟨q, hresumes, hspares, hq⟩ := h.starts
  obtain ⟨r, hresumes', hspares', hr, hacked⟩ := hq.finishes
  exact ⟨r, hresumes.trans hresumes', hspares.trans hspares', hr, hacked⟩

/-! ### The readers -/

/-- When everything is acknowledged, some read takes all that was accepted. -/
theorem Reachable.reads_all {p : Pair} (hp : p.Reachable) (hfew : ∀ z, FewCreated (p.peer z).inner) {x : Side}
    (hacked : (p.peer x).inner.remoteAcked = (p.peer x).inner.seq) (hhandles : (p.peer x.other).handles ≠ 0) :
    ∃ capacity, ((p.peer x.other).call (.read 0 capacity)).deliveredBytes = (p.peer x).accepted := by
  have hagreed := hp.agreed x (hfew x) (hfew x.other)
  obtain ⟨capacity, hall⟩ := exists_readNext_all (hfew x) hagreed.flow.receives
  refine ⟨capacity, ?_⟩
  let s := ((p.peer x.other).inner.readNext capacity).1
  have hread : Moves (FromPeer (p.peer x).inner.ghost.created) 0 (p.peer x.other).inner s := readLoop_moves _ _ _
  have hafter : Receives (p.peer x).inner.ghost.created s.recvSide :=
    chain_invariant (fun s => Receives (p.peer x).inner.ghost.created s.recvSide) (fun _ _ h => h.receives (hfew x))
      hread hagreed.flow.receives
  have hack : s.ack = (p.peer x).inner.seq := by
    refine (readNext_frame UdxStreamInner.ack (fun _ _ _ => rfl) (fun _ _ => rfl) _ _).trans ?_
    exact UInt32.le_antisymm hagreed.flow.ack_le_seq (hacked ▸ hagreed.unforgotten.remoteAcked_le)
  have hdelivered : ((p.peer x.other).call (.read 0 capacity)).deliveredBytes =
      (s.recvSide.delivered.map Prod.snd).flatten := by
    rw [UdxStream.call, if_neg hhandles, UdxStream.deliveredBytes]
    exact congrArg (fun v : RecvSide => (v.delivered.map Prod.snd).flatten)
      (pollRead_frame recvSide (fun _ _ => rfl) (p.peer x.other).inner 0 capacity)
  rw [hdelivered, hagreed.flow.accepted]
  refine (hafter.delivered_all_iff (fun packet hpacket => ?_) fun hmem => ?_).mpr ?_
  · obtain ⟨n, hn⟩ := List.mem_iff_getElem?.mp hpacket
    exact (hagreed.flow.emits.created n packet hn).body
  · have hreceived := ((hafter.reassembled.keys_iff _).mp hmem).1
    rw [show s.recvSide.readCursor = s.recvSide.ack from hall] at hreceived
    exact absurd hreceived hafter.reassembled.least.1
  · calc s.recvSide.readCursor.toNat = s.ack.toNat := congrArg UInt32.toNat hall
      _ = (p.peer x).inner.seq.toNat := congrArg UInt32.toNat hack
      _ = (p.peer x).inner.ghost.created.length := hagreed.flow.emits.seq_eq

/-- Both streams are open and on time, and each has everything acknowledged. -/
structure Settled (p : Pair) : Prop where
  listening : ∀ x, Listening (p.peer x)
  acked : ∀ x, (p.peer x).inner.remoteAcked = (p.peer x).inner.seq

theorem Settled.read {p : Pair} (h : Settled p) (x : Side) (capacity : Nat) :
    Settled (p.step (.call x (.read 0 capacity))) := by
  have hread := readSide_call (p.peer x) 0 capacity
  have hlistening := (h.listening x).read 0 capacity
  constructor
  · intro z
    rw [step, peer_set]
    split_ifs
    · exact hlistening
    · exact h.listening z
  · intro z
    rw [step, peer_set]
    split_ifs
    · exact (congrArg (fun side => side.2.2.2.2.1) hread).trans
        ((h.acked x).trans (congrArg (fun side => side.2.2.2.2.2) hread).symm)
    · exact h.acked z

/-- Both sides recover, one after the other. -/
theorem Reachable.settles {p : Pair} (hp : p.Reachable) (hfew : ∀ x, FewCreated (p.peer x).inner)
    (hlistening : ∀ x, Listening (p.peer x)) (hattempts : ∀ x, AttemptsLeft (p.peer x).inner) :
    ∃ q, Resumes (fun x => (p.peer x).sent.length) p q ∧ Settled q := by
  let mark (x : Side) : Nat := (p.peer x).sent.length
  have hfirst : Threatened mark .a p :=
    ⟨hp, hfew, (hlistening .a).toOnline, hattempts .a, hlistening .b, fun _ => Nat.le_refl _⟩
  obtain ⟨q, hresumes, hspares, hq, hacked⟩ := hfirst.finishes
  have hlistening : Listening (q.peer .a) :=
    ⟨hq.sender.toOnline, hspares.heeds (hlistening .a).toHeeds, hq.sender.onTime⟩
  have hsecond : Threatened mark .b q := ⟨hq.reachable, hq.few, hq.listener.toOnline, hspares.attempts (hattempts .b),
    hlistening, fun z => (hresumes.sent_grows z).length_le⟩
  obtain ⟨r, hresumes', hspares', hr, hacked'⟩ := hsecond.finishes
  have hlistening' : Listening (r.peer .b) :=
    ⟨hr.sender.toOnline, hspares'.heeds hq.listener.toHeeds, hr.sender.onTime⟩
  refine ⟨r, hresumes.trans hresumes', fun x => ?_, fun x => ?_⟩
  · cases x
    · exact hr.listener
    · exact hlistening'
  · cases x
    · exact hspares'.acked hacked
    · exact hacked'

/-- Both sides recover, and then their users read to the end. -/
theorem Reachable.settles_read {p : Pair} (hp : p.Reachable) (hfew : ∀ x, FewCreated (p.peer x).inner)
    (hlistening : ∀ x, Listening (p.peer x)) (hattempts : ∀ x, AttemptsLeft (p.peer x).inner)
    (hhandles : ∀ x, (p.peer x).handles ≠ 0) :
    ∃ q, Resumes (fun x => (p.peer x).sent.length) p q ∧ Settled q ∧
      ∀ x, (q.peer x.other).deliveredBytes = (p.peer x).accepted := by
  obtain ⟨q, hresumes, hq⟩ := hp.settles hfew hlistening hattempts
  have hreach := hresumes.reachable hp
  have hfew' : ∀ z, FewCreated (q.peer z).inner := fun z => hresumes.few (hfew z)
  obtain ⟨capacity, hthere⟩ := hreach.reads_all hfew' (hq.acked .a) (by rw [hresumes.handles_eq]; exact hhandles _)
  obtain ⟨capacity', hback⟩ := hreach.reads_all hfew' (hq.acked .b) (by rw [hresumes.handles_eq]; exact hhandles _)
  refine ⟨(q.step (.call .b (.read 0 capacity))).step (.call .a (.read 0 capacity')),
    (hresumes.tail (e := .call .b (.read 0 capacity)) trivial).tail (e := .call .a (.read 0 capacity')) trivial,
    (hq.read .b capacity).read .a capacity', fun x => ?_⟩
  cases x
  · exact hthere.trans (hresumes.accepted_eq .a)
  · exact hback.trans (hresumes.accepted_eq .b)

/-- **Recovery from loss.** From every state of every run of two connected streams in which both are open and have a
handle, no timeout is due, no outstanding packet has used up its transmissions and neither stream has created `2 ^ 32`
data packets: even if everything transmitted so far is lost, time, polls of the drivers, reads and the packets
transmitted from then on lead to a state in which each side has read all that the other one has accepted, nothing is
outstanding, and both streams are still open. -/
theorem recovers_from_loss {p : Pair} (hp : p.Reachable) (hfew : ∀ x, FewCreated (p.peer x).inner)
    (hlistening : ∀ x, Listening (p.peer x)) (hattempts : ∀ x, AttemptsLeft (p.peer x).inner)
    (hhandles : ∀ x, (p.peer x).handles ≠ 0) :
    ∃ q, Resumes (fun x => (p.peer x).sent.length) p q ∧ ∀ x,
      (q.peer x.other).deliveredBytes = (p.peer x).accepted ∧ (q.peer x).accepted = (p.peer x).accepted ∧
      (∀ k, k ∉ (q.peer x).inner.outgoing) ∧ (q.peer x).driver = .running ∧ (q.peer x).inner.error = none := by
  obtain ⟨q, hresumes, hq, hread⟩ := hp.settles_read hfew hlistening hattempts hhandles
  have hbooked := (hresumes.reachable hp).booked fun z => hresumes.few (hfew z)
  exact ⟨q, hresumes, fun x => ⟨hread x, hresumes.accepted_eq x, (hbooked x).nothing_left (hq.acked x),
    (hq.listening x).running, (hq.listening x).error⟩⟩

/-- Both sides have written and handed their packets to their sockets, and nothing has arrived. -/
def silentRun : List PairEvent :=
  [.call .a (.write 0 [1, 2, 3]), .call .b (.write 0 [4]), .call .a (.poll 0 0 10 1), .call .b (.poll 0 0 10 1)]

theorem recovers_from_loss_silent :
    let p := Runs.run step (connect 0 0 ⟨.v4 0, 1⟩ ⟨.v4 0, 2⟩ 1 2) silentRun
    p.a.sent.length = 1 ∧ p.b.sent.length = 1 ∧ p.a.deliveredBytes = [] ∧ p.b.deliveredBytes = [] ∧
    ∃ q, Resumes (fun x => (p.peer x).sent.length) p q ∧ ∀ x,
      (q.peer x.other).deliveredBytes = (p.peer x).accepted ∧ (q.peer x).accepted = (p.peer x).accepted ∧
      (∀ k, k ∉ (q.peer x).inner.outgoing) ∧ (q.peer x).driver = .running ∧ (q.peer x).inner.error = none := by
  refine ⟨by decide, by decide, by decide, by decide, recovers_from_loss ⟨0, 0, _, _, 1, 2, silentRun, rfl⟩ ?_ ?_ ?_ ?_⟩
  · intro x
    cases x <;> decide
  · intro x
    cases x <;> exact ⟨⟨by decide, by decide, by decide⟩, ⟨by decide, by decide⟩, Or.inl (by decide)⟩
  · intro x
    cases x <;> exact attemptsLeft_of_entries (by decide)
  · intro x
    cases x <;> decide

/-- **A close waits for the data.** A stream was closed, its driver runs and its socket is there, no outstanding packet
has used up its transmissions, its peer is open and has a handle and no timeout due, and neither of the two has created
`2 ^ 32` data packets: even if everything transmitted so far is lost, time, polls, reads and the packets transmitted
from then on lead to a state in which the driver has completed and the peer has read all that the stream had
accepted. -/
theorem close_waits_for_data {p : Pair} (hp : p.Reachable) (x : Side) (hfew : ∀ z, FewCreated (p.peer z).inner)
    (hclosed : (p.peer x).inner.error.isSome = true) (honline : Online (p.peer x))
    (hattempts : AttemptsLeft (p.peer x).inner) (hlistening : Listening (p.peer x.other))
    (hhandles : (p.peer x.other).handles ≠ 0) :
    ∃ q, Resumes (fun z => (p.peer z).sent.length) p q ∧ (q.peer x).driver = .completed ∧
      (q.peer x.other).deliveredBytes = (p.peer x).accepted := by
  have hthreatened : Threatened (fun z => (p.peer z).sent.length) x p :=
    ⟨hp, hfew, honline, hattempts, hlistening, fun _ => Nat.le_refl _⟩
  obtain ⟨q, hresumes, -, hq, hacked⟩ := hthreatened.finishes
  obtain ⟨capacity, hread⟩ := hq.reachable.reads_all hq.few hacked (by rw [hresumes.handles_eq]; exact hhandles)
  let q₁ := q.step (.call x.other (.read 0 capacity))
  have hnear : q₁.peer x = q.peer x := by cases x <;> rfl
  have hfar : q₁.peer x.other = (q.peer x.other).call (.read 0 capacity) := by cases x <;> rfl
  have hdone : (q₁.peer x).inner.closedAndDrained = true := by
    rw [hnear, closedAndDrained_iff]
    refine ⟨hresumes.terminated hclosed, hq.sender.idle, AList.entries_eq_nil fun k => ?_⟩
    exact AList.lookup_eq_none.mpr ((hq.reachable.booked hq.few x).nothing_left hacked k)
  let r := q₁.step (q₁.pollAll x)
  have hresumes₁ : Resumes (fun z => (p.peer z).sent.length) p q₁ :=
    hresumes.tail (e := .call x.other (.read 0 capacity)) trivial
  refine ⟨r, hresumes₁.tail (pollAll_fresh _ q₁ x), ?_, ?_⟩
  · rw [pollAll_peer (by rw [hnear]; exact hq.sender.running)]
    exact (poll_drained _ hdone).1
  · rw [pollAll_other, hfar, hread, hresumes.accepted_eq]

/-- A side has written and was closed, and nothing of it has arrived. -/
def closedRun : List PairEvent :=
  [.call .a (.write 0 [1, 2, 3]), .call .a (.poll 0 0 10 1), .call .a .close, .call .a (.poll 0 0 10 1)]

theorem close_waits_for_data_closed :
    let p := Runs.run step (connect 0 0 ⟨.v4 0, 1⟩ ⟨.v4 0, 2⟩ 1 2) closedRun
    p.a.sent.length = 2 ∧ p.a.driver = .running ∧ p.b.deliveredBytes = [] ∧
    ∃ q, Resumes (fun z => (p.peer z).sent.length) p q ∧ (q.peer .a).driver = .completed ∧
      (q.peer .b).deliveredBytes = (p.peer .a).accepted := by
  refine ⟨by decide, by decide, by decide,
    close_waits_for_data ⟨0, 0, _, _, 1, 2, closedRun, rfl⟩ .a ?_ ?_ ?_ ?_ ?_ ?_⟩
  · intro x
    cases x <;> decide
  · decide
  · exact ⟨by decide, by decide, by decide⟩
  · exact attemptsLeft_of_entries (by decide)
  · exact ⟨⟨by decide, by decide, by decide⟩, ⟨by decide, by decide⟩, Or.inl (by decide)⟩
  · decide

end Pair

end AsyncUdx
