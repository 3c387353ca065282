import AsyncUdx.DriverSleep
import AsyncUdx.EndAnswer
import AsyncUdx.PairExchange
import AsyncUdx.SendProgress

/-! Recovery from loss, at the sender. When the timer fires, every outstanding packet is parked; the window is then
filled with the oldest of them, and what is acknowledged makes room for the next ones. So the packets under way are
always the oldest, and as long as packets are outstanding the oldest one is under way: a copy of it was handed to the
socket after the timer had fired. -/

namespace AsyncUdx

open Relation UdxStreamInner

variable {now : Nat}

/-! ### The packets that are queued again -/

/-- A packet that waits holds back every later one. -/
def OldestFirst (outgoing : SeqMap Packet) : Prop :=
  ∀ i j packet other, outgoing.lookup i = some packet → outgoing.lookup j = some other → i < j →
    packet.waiting = true → other.waiting = true

/-- Packets that are queued in their order leave the order as it was. -/
theorem flushLoop_oldestFirst {keys : List UInt32} (hsorted : keys.Pairwise (· < ·)) {s : UdxStreamInner}
    (hkeys : ∀ k packet, s.outgoing.lookup k = some packet → packet.waiting = true → k ∈ keys)
    (hs : OldestFirst s.outgoing) : OldestFirst (flushLoop now keys s).outgoing := by
  induction keys generalizing s with
  | nil => exact hs
  | cons i rest ih =>
      obtain ⟨hfirst, hrest⟩ := List.pairwise_cons.mp hsorted
      -- a key that is passed over has no packet that waits
      have hskip (hidle : ∀ packet, s.outgoing.lookup i = some packet → packet.waiting = false) :
          OldestFirst (flushLoop now rest s).outgoing := by
        refine ih hrest (fun k packet hlookup hwaiting => ?_) hs
        rcases List.mem_cons.mp (hkeys k packet hlookup hwaiting) with rfl | hmem
        · rw [hidle packet hlookup] at hwaiting
          cases hwaiting
        · exact hmem
      rw [flushLoop]
      split
      · rename_i hnone
        exact hskip fun packet hlookup => by rw [hnone] at hlookup; cases hlookup
      · rename_i packet hsome
        split_ifs with hidle hfull
        · refine hskip fun other hother => ?_
          rw [hsome] at hother
          cases hother
          simpa using hidle
        · exact hs
        · -- the first packet that waits goes, and all others that wait come after it
          have hlater : ∀ k other, (s.requeue now i packet).outgoing.lookup k = some other → other.waiting = true →
              s.outgoing.lookup k = some other ∧ k ∈ rest := by
            intro k other hlookup hwaiting
            rcases AList.lookup_insert_eq_some hlookup with ⟨-, rfl⟩ | ⟨hne, hold⟩
            · cases hwaiting
            · exact ⟨hold, (List.mem_cons.mp (hkeys k other hold hwaiting)).resolve_left hne⟩
          refine ih hrest (fun k other hlookup hwaiting => (hlater k other hlookup hwaiting).2) ?_
          intro a b first second ha hb hlt hwaiting
          obtain ⟨hold, hmem⟩ := hlater a first ha hwaiting
          rcases AList.lookup_insert_eq_some hb with ⟨rfl, -⟩ | ⟨-, hsecond⟩
          · exact absurd (UInt32.lt_trans hlt (hfirst a hmem)) (UInt32.lt_irrefl _)
          · exact hs a b first second hold hsecond hlt hwaiting

/-- A packet that is under way was so before, or it has just been queued. -/
theorem flushLoop_underWay (keys : List UInt32) (s : UdxStreamInner) {k : UInt32} {packet : Packet}
    (hlookup : (flushLoop now keys s).outgoing.lookup k = some packet) (hway : packet.waiting = false) :
    s.outgoing.lookup k = some packet ∨ PacketRef.shared packet ∈ (flushLoop now keys s).sendQueue := by
  induction keys generalizing s with
  | nil => exact Or.inl hlookup
  | cons i rest ih =>
      rw [flushLoop] at hlookup ⊢
      split at hlookup
      · exact ih s hlookup
      · rename_i found hsome
        split_ifs at hlookup ⊢
        · exact ih s hlookup
        · exact Or.inl hlookup
        · rcases ih (s.requeue now i found) hlookup with hsame | hqueued
          · rcases AList.lookup_insert_eq_some hsame with ⟨-, rfl⟩ | ⟨-, hold⟩
            · refine Or.inr ((flushLoop_sendQueue now rest (s.requeue now i found)).subset ?_)
              exact List.mem_append_right _ (List.mem_singleton_self _)
            · exact Or.inl hold
          · exact Or.inr hqueued

/-! ### A poll, with or without a timeout -/

/-- The state of a stream in a poll before the waiting packets are looked at. -/
def UdxStream.checked (u : UdxStream) (cx : Context) : UdxStreamInner × Except Fault Unit :=
  (UdxStreamInner.pollIncoming { u.inner with driveWaker := none } cx).1.pollCheckTimeouts cx

/-- A stream whose driver runs and whose socket is there. -/
structure Online (u : UdxStream) : Prop where
  running : u.driver = .running
  recv : u.inner.recvRx.closed = false
  send : u.inner.sendTx.closed = false

theorem pollCheckTimeouts_frame {β : Type} (f : UdxStreamInner → β) (hback : ∀ s now, f (backOff s now) = f s)
    (hpark : ∀ s now i packet, f (park s now i packet) = f s) (s : UdxStreamInner) (cx : Context) :
    f (s.pollCheckTimeouts cx).1 = f s := by
  unfold pollCheckTimeouts
  split_ifs
  · rfl
  · rfl
  · exact (timeoutLoop_frame f hpark _ _).trans (hback s cx.now)

/-- A poll whose timeouts do not end the stream hands everything on the queue to the socket. -/
theorem poll_checked {u : UdxStream} {cx : Context} (hu : Online u) (hopen : u.inner.closedAndDrained = false)
    (hcheck : (u.checked cx).2 = .ok ()) :
    let s := (u.checked cx).1.flushWaitingPackets cx.now
    (UdxStreamInner.pollDrive { u.inner with driveWaker := none } cx).2 = .ok false ∧
    ∃ events, u.poll cx = { u with inner := { s with
        sendQueue := [], sendTx := { s.sendTx with events := events }, driveWaker := some cx.waker } } ∧
      transmitted events = u.sent ++ s.sendQueue := by
  intro s
  let idle : UdxStreamInner := { u.inner with driveWaker := none }
  have hin : (idle.pollIncoming cx).2 = .ok () := pollIncoming_open (s := idle) hu.recv cx
  have htimer : (u.checked cx).1.sendTx = (idle.pollIncoming cx).1.sendTx :=
    pollCheckTimeouts_frame sendTx (fun _ _ => rfl) (fun _ _ _ _ => rfl) _ cx
  have htx : s.sendTx = u.inner.sendTx :=
    (flushLoop_frame sendTx (fun _ _ _ _ => rfl) _ _).trans (htimer.trans (pollIncoming_sendTx idle cx))
  have hsend : s.sendTx.closed = false := by
    rw [htx]
    exact hu.send
  have htransmit : (s.pollTransmit cx).2 = .ok () := transmitLoop_ok _ _ _ _ _ hsend
  have hdrive : idle.pollDrive cx = ((s.pollTransmit cx).1, .ok false) := pollDrive_eq hin hcheck htransmit
  have hqueue : (s.pollTransmit cx).1.sendQueue = [] := transmitLoop_sendQueue _ _ _ _ _ rfl htransmit
  have hsent := transmitLoop_transmitted (min cx.maxGsoSegments maxSegments) s.sendQueue 0 [] s hsend
  have hok : (idle.pollDrive cx).2 = .ok false := congrArg Prod.snd hdrive
  have hpoll : u.poll cx = { u with inner := { (idle.pollDrive cx).1 with driveWaker := some cx.waker } } :=
    poll_ok hopen hok
  obtain ⟨rest, sets, hspec, -⟩ := transmitLoop_spec (min cx.maxGsoSegments maxSegments) s.sendQueue 0 [] s
  have hstate : (s.pollTransmit cx).1 = _ := hspec
  rw [hstate] at hqueue
  rw [hspec] at hsent
  obtain rfl : rest = [] := hqueue
  have hresult : (idle.pollDrive cx).1 = { s with
      sendQueue := [], sendTx := { s.sendTx with events := s.sendTx.events ++ sets.map .transmit } } :=
    (congrArg Prod.fst hdrive).trans hstate
  refine ⟨hok, s.sendTx.events ++ sets.map .transmit, ?_, ?_⟩
  · rw [hpoll, hresult]
  · rw [UdxStream.sent, ← htx]
    exact hsent

/-! ### The timer -/

/-- No timeout is due: the timer is pending, or nothing is outstanding. -/
def OnTime (u : UdxStream) : Prop := u.clock < u.inner.rtoTimeout ∨ u.inner.remoteAcked = u.inner.seq

theorem rto_pos {s t : UdxStreamInner} (h : Chain UdxStream.anyPacket now s t) (hs : TimerArmed s.timerSide) :
    0 < t.rto := by
  have harmed := chain_invariant (fun s => TimerArmed s.timerSide) (fun _ _ h => h.timerArmed) h hs
  exact Nat.lt_of_lt_of_le (by decide : 0 < millis 1000) harmed.floor

section Poll

variable {u : UdxStream} {cx : Context}

theorem pollIncoming_chain (s : UdxStreamInner) (cx : Context) :
    Chain UdxStream.anyPacket cx.now s (s.pollIncoming cx).1 :=
  incomingLoop_chain _ _ s (Or.inl rfl) fun _ _ => trivial

theorem pollIncoming_seq (s : UdxStreamInner) (cx : Context) : (s.pollIncoming cx).1.seq = s.seq :=
  chain_value UdxStreamInner.seq (fun _ _ h => h.seq_eq) (pollIncoming_chain s cx)

/-- The incoming packets of a poll put off a timeout, and never bring one about. -/
theorem OnTime.unexpired (hu : u.Reachable) (h : OnTime u) (hnow : cx.now = u.clock) :
    UdxStreamInner.Unexpired { u.inner with driveWaker := none } cx := by
  let idle : UdxStreamInner := { u.inner with driveWaker := none }
  have hrto : 0 < (idle.pollIncoming cx).1.rto :=
    rto_pos (pollIncoming_chain idle cx) (timerArmed_invariant.of_reachable hu)
  have htimer := pollIncoming_rtoTimeout idle cx
  unfold UdxStreamInner.Unexpired
  split_ifs at htimer with hnone
  · refine h.imp (fun hpending => ?_) fun hsame => ?_
    · rw [htimer, hnow]
      exact Nat.lt_add_right _ hpending
    · rw [pollIncoming_remoteAcked, Counter.larger_of_le hnone, pollIncoming_seq]
      exact hsame
  · left
    rw [htimer]
    omega

/-- The timer after a poll that finds it pending. -/
theorem OnTime.poll (hu : u.Reachable) (h : OnTime u) (honline : Online u) (hopen : u.inner.closedAndDrained = false)
    (hnow : cx.now = u.clock) (hlag : cx.timerLag = 0) : OnTime (u.poll cx) := by
  have hquiet := h.unexpired hu hnow
  have hchecked := pollCheckTimeouts_unexpired hquiet
  obtain ⟨-, events, hpoll, -⟩ := poll_checked honline hopen (congrArg Prod.snd hchecked)
  rw [hpoll, show (u.checked cx).1 = _ from congrArg Prod.fst hchecked]
  refine hquiet.imp (fun hpending => ?_) fun hsame => ?_
  · rw [hlag, Nat.add_zero, hnow] at hpending
    exact hpending.trans_eq (flushLoop_frame rtoTimeout (fun _ _ _ _ => rfl) _ _).symm
  · exact (flushLoop_frame remoteAcked (fun _ _ _ _ => rfl) _ _).trans
      (hsame.trans (flushLoop_frame seq (fun _ _ _ _ => rfl) _ _).symm)

/-! ### After a timeout -/

/-- The books of a stream are right, and nothing is outstanding that was acknowledged. -/
structure Booked (s : UdxStreamInner) : Prop where
  accounted : Accounted s.sendSide
  unacked : KeysUnacked s.sendSide

theorem Booked.chain {ok : IncomingPacket → Prop} {s t : UdxStreamInner} (hs : Booked s) (h : Chain ok now s t) :
    Booked t :=
  chain_invariant Booked (fun _ _ h hs => ⟨h.accounted hs.accounted, h.keysUnacked hs.unacked⟩) h hs

theorem Booked.mem_range {s : UdxStreamInner} (hs : Booked s) {k : UInt32} {packet : Packet}
    (hlookup : s.outgoing.lookup k = some packet) : k ∈ Counter.range s.remoteAcked s.seq :=
  Counter.mem_range.mpr ⟨hs.unacked k (AList.mem_of_lookup hlookup),
    hs.accounted.keys_lt k (AList.mem_of_lookup hlookup)⟩

theorem Booked.nothing_left {s : UdxStreamInner} (hs : Booked s) (hacked : s.remoteAcked = s.seq) (k : UInt32) :
    k ∉ s.outgoing := by
  intro hmem
  obtain ⟨packet, hlookup⟩ := AList.exists_lookup_of_mem hmem
  obtain ⟨hlow, hhigh⟩ := Counter.mem_range.mp (hs.mem_range hlookup)
  exact UInt32.lt_irrefl _ (UInt32.lt_of_lt_of_le hhigh (hacked ▸ hlow))

/-- When the window is in use, the oldest packet is under way. -/
theorem Booked.oldest_underWay {s : UdxStreamInner} (hs : Booked s) (horder : OldestFirst s.outgoing)
    (hpos : 0 < s.inflight) {k : UInt32} {packet : Packet} (hlookup : s.outgoing.lookup k = some packet)
    (hfirst : ∀ j ∈ s.outgoing, k ≤ j) : packet.waiting = false := by
  obtain ⟨j, other, hother, hweight⟩ := AList.exists_lookup_of_total_pos _ (hpos.trans_eq hs.accounted.inflight_eq)
  have hway : other.waiting = false := by
    cases hwaiting : other.waiting with
    | false => rfl
    | true => simp [flightWeight, hwaiting] at hweight
  by_cases hne : k = j
  · rw [← hne] at hother
    cases Option.some.inj (hlookup.symm.trans hother)
    exact hway
  · have hlt : k < j := UInt32.lt_of_le_of_ne (hfirst j (AList.mem_of_lookup hother)) hne
    by_contra hwaiting
    rw [horder _ _ _ _ hlookup hother hlt (Bool.eq_true_of_not_eq_false hwaiting)] at hway
    cases hway

/-- No outstanding packet has used up its transmissions. -/
def AttemptsLeft (s : UdxStreamInner) : Prop := AllOutgoing (fun packet => packet.transmits ≤ udxMaxTransmits) s

theorem attemptsLeft_of_entries {s : UdxStreamInner}
    (h : ∀ entry ∈ s.outgoing.entries, entry.2.transmits ≤ udxMaxTransmits) : AttemptsLeft s :=
  fun k packet hlookup => h ⟨k, packet⟩ (AList.mem_lookup_iff.mp hlookup)

theorem checked_chain (u : UdxStream) (cx : Context) :
    Chain UdxStream.anyPacket cx.now { u.inner with driveWaker := none } (u.checked cx).1 :=
  (pollIncoming_chain _ cx).trans (pollCheckTimeouts_chain _ cx)

/-- A loop over the packets that succeeds has met none that has used up its transmissions. -/
theorem timeoutLoop_limit {keys : List UInt32} {s : UdxStreamInner} (hok : (timeoutLoop now keys s).2 = .ok ())
    {i : UInt32} (hi : i ∈ keys) {packet : Packet} (hlookup : s.outgoing.lookup i = some packet)
    (hway : packet.waiting = false) : packet.transmits ≤ udxMaxTransmits := by
  induction keys generalizing s with
  | nil => exact absurd hi List.not_mem_nil
  | cons j rest ih =>
      rw [timeoutLoop] at hok
      by_cases heq : i = j
      · rw [← heq, hlookup] at hok
        dsimp only at hok
        rw [hway, if_neg Bool.false_ne_true] at hok
        split_ifs at hok with hmax
        exact Nat.not_lt.mp hmax
      · have hrest := List.mem_of_ne_of_mem heq hi
        split at hok
        · exact ih hok hrest hlookup
        · split_ifs at hok
          · exact ih hok hrest hlookup
          · exact ih hok hrest ((AList.lookup_insert_ne heq).trans hlookup)

section Fired

variable (hbooked : Booked u.inner) (hfired : ¬UdxStreamInner.Unexpired { u.inner with driveWaker := none } cx)

include hfired in
theorem checked_eq_of_fired : u.checked cx =
    let s := (UdxStreamInner.pollIncoming { u.inner with driveWaker := none } cx).1
    timeoutLoop cx.now (Counter.range s.remoteAcked s.seq) (s.backOff cx.now) := by
  obtain ⟨hdue, hout⟩ := not_or.mp hfired
  unfold UdxStream.checked pollCheckTimeouts
  rw [if_neg hdue, if_neg hout]
  rfl

include hfired in
/-- A timeout with transmissions left does not end the stream. -/
theorem checked_ok_of_attempts (hfirewall : u.inner.onFirewall = none) (hleft : AttemptsLeft u.inner) :
    (u.checked cx).2 = .ok () := by
  rw [checked_eq_of_fired hfired]
  refine (timeoutLoop_lookup cx.now _ _ fun i packet hlookup _ => ?_).1
  exact pollIncoming_allOutgoing (s := { u.inner with driveWaker := none }) hfirewall cx hleft i packet hlookup

include hbooked hfired in
/-- A timeout that does not end the stream has found transmissions left. -/
theorem checked_limit (hcheck : (u.checked cx).2 = .ok ()) {k : UInt32} {packet : Packet}
    (hlookup : (UdxStreamInner.pollIncoming { u.inner with driveWaker := none } cx).1.outgoing.lookup k = some packet)
    (hway : packet.waiting = false) : packet.transmits ≤ udxMaxTransmits := by
  let idle : UdxStreamInner := { u.inner with driveWaker := none }
  have hs : Booked (idle.pollIncoming cx).1 :=
    Booked.chain (s := idle) ⟨hbooked.accounted, hbooked.unacked⟩ (pollIncoming_chain idle cx)
  rw [checked_eq_of_fired hfired] at hcheck
  exact timeoutLoop_limit hcheck (hs.mem_range hlookup) hlookup hway

include hbooked hfired in
/-- A timeout that does not end the stream parks everything that is outstanding. -/
theorem checked_parks (hcheck : (u.checked cx).2 = .ok ()) (k : UInt32) :
    (u.checked cx).1.outgoing.lookup k =
      ((UdxStreamInner.pollIncoming { u.inner with driveWaker := none } cx).1.outgoing.lookup k).map Packet.parked := by
  let idle : UdxStreamInner := { u.inner with driveWaker := none }
  let s := (idle.pollIncoming cx).1
  have hs : Booked s := Booked.chain (s := idle) ⟨hbooked.accounted, hbooked.unacked⟩ (pollIncoming_chain idle cx)
  obtain ⟨-, hparked⟩ := timeoutLoop_lookup cx.now (Counter.range s.remoteAcked s.seq) (s.backOff cx.now)
    fun i packet hlookup hway => checked_limit hbooked hfired hcheck hlookup hway
  rw [checked_eq_of_fired hfired]
  refine (hparked k).trans ?_
  split_ifs with hmem
  · rfl
  · have hnone : s.outgoing.lookup k = none := by
      by_contra hsome
      obtain ⟨packet, hlookup⟩ := Option.ne_none_iff_exists'.mp hsome
      exact hmem (hs.mem_range hlookup)
    exact hnone.trans (congrArg (Option.map Packet.parked) hnone).symm

include hfired in
theorem checked_timer : (u.checked cx).1.rtoTimeout =
    cx.now + 2 * (UdxStreamInner.pollIncoming { u.inner with driveWaker := none } cx).1.rto := by
  rw [checked_eq_of_fired hfired]
  exact timeoutLoop_frame rtoTimeout (fun _ _ _ _ => rfl) _ _

end Fired

/-- A stream whose timer has fired when it had handed `mark` packets to its socket: the packets under way are the
oldest ones, a copy of each was handed over since, and the oldest of all is under way. -/
structure Resending (mark : Nat) (u : UdxStream) : Prop extends Online u where
  onTime : OnTime u
  idle : u.inner.sendQueue = []
  mark_le : mark ≤ u.sent.length
  oldestFirst : OldestFirst u.inner.outgoing
  copied : ∀ k packet, u.inner.outgoing.lookup k = some packet → packet.waiting = false →
    ∃ n ref, mark ≤ n ∧ u.sent[n]? = some ref ∧ ref.deref.header = packet.header
  first : ∀ k packet, u.inner.outgoing.lookup k = some packet → (∀ j ∈ u.inner.outgoing, k ≤ j) →
    packet.waiting = false

theorem Online.poll (h : Online u) (hopen : u.inner.closedAndDrained = false) (hcheck : (u.checked cx).2 = .ok ()) :
    Online (u.poll cx) := by
  obtain ⟨-, events, hpoll, -⟩ := poll_checked h hopen hcheck
  have hchain : Chain UdxStream.anyPacket cx.now { u.inner with driveWaker := none }
      ((u.checked cx).1.flushWaitingPackets cx.now) := (checked_chain u cx).trans (flushLoop_chain _ _)
  have hsetting := chain_value setting (fun _ _ h => h.setting_eq) hchain
  rw [hpoll]
  exact ⟨h.running, (congrArg Setting.recvClosed hsetting).trans h.recv,
    (congrArg Setting.sendClosed hsetting).trans h.send⟩

/-- The window is filled with the oldest packets first, and it always has room for one. -/
theorem Resending.of_checked {mark : Nat} (hu : u.Reachable) (hbooked : Booked u.inner)
    (honline : Online u) (hopen : u.inner.closedAndDrained = false) (hcheck : (u.checked cx).2 = .ok ())
    (htimer : OnTime (u.poll cx)) (hmark : mark ≤ u.sent.length) (horder : OldestFirst (u.checked cx).1.outgoing)
    (hcopied : ∀ k packet, (u.checked cx).1.outgoing.lookup k = some packet → packet.waiting = false →
      ∃ n ref, mark ≤ n ∧ u.sent[n]? = some ref ∧ ref.deref.header = packet.header) :
    Resending mark (u.poll cx) := by
  let idle : UdxStreamInner := { u.inner with driveWaker := none }
  obtain ⟨hok, events, hpoll, hevents⟩ := poll_checked honline hopen hcheck
  let s := (u.checked cx).1.flushWaitingPackets cx.now
  have hchecked : Booked (u.checked cx).1 :=
    Booked.chain (s := idle) ⟨hbooked.accounted, hbooked.unacked⟩ (checked_chain u cx)
  have hflush : Chain UdxStream.anyPacket cx.now (u.checked cx).1 s := flushLoop_chain _ _
  have hs : Booked s := hchecked.chain hflush
  have horder : OldestFirst s.outgoing := flushLoop_oldestFirst (Counter.range_increasing _ _)
    (fun k packet hlookup _ => hchecked.mem_range hlookup) horder
  have hsent : (u.poll cx).sent = u.sent ++ s.sendQueue := by
    rw [hpoll]
    exact hevents
  refine ⟨honline.poll hopen hcheck, htimer, ?_, ?_, ?_, ?_, ?_⟩
  · rw [hpoll]
  · rw [hsent, List.length_append]
    exact Nat.le_add_right_of_le hmark
  · rw [hpoll]
    exact horder
  · intro k packet hlookup hway
    rw [hpoll] at hlookup
    rw [hsent]
    rcases flushLoop_underWay _ _ hlookup hway with hbefore | hqueued
    · obtain ⟨n, ref, hn, href, hheader⟩ := hcopied k packet hbefore hway
      obtain ⟨hlt, -⟩ := List.getElem?_eq_some_iff.mp href
      exact ⟨n, ref, hn, (List.getElem?_append_left hlt).trans href, hheader⟩
    · obtain ⟨n, hn⟩ := List.mem_iff_getElem?.mp hqueued
      refine ⟨u.sent.length + n, .shared packet, Nat.le_add_right_of_le hmark, ?_, rfl⟩
      rw [List.getElem?_append_right (Nat.le_add_right _ _), Nat.add_sub_cancel_left]
      exact hn
  · intro k packet hlookup hfirst
    have hinflight : (u.poll cx).inner.inflight = (idle.pollDrive cx).1.inflight := by
      rw [poll_ok hopen hok]
    have houtgoing : (u.poll cx).inner.outgoing = (idle.pollDrive cx).1.outgoing := by
      rw [poll_ok hopen hok]
    have hpos : 0 < (idle.pollDrive cx).1.inflight := by
      refine pollDrive_not_stuck (s := idle) (roomy_invariant.of_reachable hu)
        (sized_invariant.invariant.of_reachable hu) hbooked.accounted (waitingUnacked_reachable hu) hu.onFirewall hok ?_
      rw [← houtgoing]
      intro hempty
      rw [AList.lookup_of_entries_nil hempty] at hlookup
      cases hlookup
    rw [← hinflight, hpoll] at hpos
    rw [hpoll] at hlookup hfirst
    exact hs.oldest_underWay horder hpos hlookup hfirst

/-- A poll whose timer has fired with packets outstanding starts over. -/
theorem resending_of_fired (hu : u.Reachable) (hbooked : Booked u.inner) (honline : Online u)
    (hopen : u.inner.closedAndDrained = false) (hcheck : (u.checked cx).2 = .ok ()) (hnow : cx.now = u.clock)
    (hfired : ¬UdxStreamInner.Unexpired { u.inner with driveWaker := none } cx) :
    Resending u.sent.length (u.poll cx) := by
  let idle : UdxStreamInner := { u.inner with driveWaker := none }
  have hparked : ∀ k packet, (u.checked cx).1.outgoing.lookup k = some packet → packet.waiting = true := by
    intro k packet hlookup
    rw [checked_parks hbooked hfired hcheck] at hlookup
    obtain ⟨before, -, rfl⟩ := Option.map_eq_some_iff.mp hlookup
    unfold Packet.parked
    split_ifs with hwaiting
    · exact hwaiting
    · rfl
  have hrto : 0 < (idle.pollIncoming cx).1.rto :=
    rto_pos (pollIncoming_chain idle cx) (timerArmed_invariant.of_reachable hu)
  refine Resending.of_checked hu hbooked honline hopen hcheck (Or.inl ?_) (Nat.le_refl _) ?_ ?_
  · obtain ⟨-, events, hpoll, -⟩ := poll_checked honline hopen hcheck
    rw [hpoll]
    calc u.clock < cx.now + 2 * (idle.pollIncoming cx).1.rto := by omega
      _ = (u.checked cx).1.rtoTimeout := (checked_timer hfired).symm
      _ = _ := (flushLoop_frame rtoTimeout (fun _ _ _ _ => rfl) _ _).symm
  · intro i j packet other hi hj hlt hwaiting
    exact hparked j other hj
  · intro k packet hlookup hway
    rw [hparked k packet hlookup] at hway
    cases hway

/-- A poll without a timeout goes on. -/
theorem Resending.poll {mark : Nat} (hu : u.Reachable) (hbooked : Booked u.inner) (h : Resending mark u)
    (hopen : u.inner.closedAndDrained = false) (hnow : cx.now = u.clock) (hlag : cx.timerLag = 0) :
    Resending mark (u.poll cx) := by
  have hchecked : u.checked cx = _ := pollCheckTimeouts_unexpired (h.onTime.unexpired hu hnow)
  have hlookup : ∀ k packet, (u.checked cx).1.outgoing.lookup k = some packet →
      u.inner.outgoing.lookup k = some packet := by
    intro k packet hlookup
    rw [hchecked, pollIncoming_lookup (s := { u.inner with driveWaker := none }) hu.onFirewall] at hlookup
    split_ifs at hlookup
    exact hlookup
  refine Resending.of_checked hu hbooked h.toOnline hopen (congrArg Prod.snd hchecked)
    (h.onTime.poll hu h.toOnline hopen hnow hlag) h.mark_le ?_ ?_
  · intro i j packet other hi hj
    exact h.oldestFirst i j packet other (hlookup i packet hi) (hlookup j other hj)
  · intro k packet hk
    exact h.copied k packet (hlookup k packet hk)

/-- A stream with nothing outstanding and nothing queued has nothing to send again. -/
theorem Resending.of_idle (hbooked : Booked u.inner) (honline : Online u) (hidle : u.inner.sendQueue = [])
    (hacked : u.inner.remoteAcked = u.inner.seq) : Resending u.sent.length u := by
  have hnone : ∀ k packet, u.inner.outgoing.lookup k ≠ some packet := fun k _ hlookup =>
    hbooked.nothing_left hacked k (AList.mem_of_lookup hlookup)
  exact ⟨honline, Or.inr hacked, hidle, Nat.le_refl _, fun i _ packet _ hi => absurd hi (hnone i packet),
    fun k packet hk => absurd hk (hnone k packet), fun k packet hk => absurd hk (hnone k packet)⟩

theorem Resending.mono {mark mark' : Nat} (h : Resending mark u) (hle : mark' ≤ mark) : Resending mark' u := by
  refine { h with mark_le := hle.trans h.mark_le, copied := ?_ }
  intro k packet hlookup hway
  obtain ⟨n, ref, hn, href⟩ := h.copied k packet hlookup hway
  exact ⟨n, ref, hle.trans hn, href⟩

theorem poll_attemptsLeft (hu : u.Reachable) (honline : Online u) (hopen : u.inner.closedAndDrained = false)
    (hquiet : UdxStreamInner.Unexpired { u.inner with driveWaker := none } cx) (hleft : AttemptsLeft u.inner) :
    AttemptsLeft (u.poll cx).inner := by
  have hchecked : u.checked cx = _ := pollCheckTimeouts_unexpired hquiet
  obtain ⟨-, events, hpoll, -⟩ := poll_checked honline hopen (congrArg Prod.snd hchecked)
  have hbefore : AttemptsLeft (u.checked cx).1 := by
    rw [hchecked]
    exact pollIncoming_allOutgoing (s := { u.inner with driveWaker := none }) hu.onFirewall cx hleft
  rw [hpoll]
  intro k packet hlookup
  have hsame := flushLoop_transmits cx.now (Counter.range (u.checked cx).1.remoteAcked (u.checked cx).1.seq)
    (u.checked cx).1 k
  rw [show (flushLoop cx.now _ (u.checked cx).1).outgoing.lookup k = some packet from hlookup] at hsame
  obtain ⟨before, hlookup', htransmits⟩ := Option.map_eq_some_iff.mp hsame.symm
  exact htransmits ▸ hbefore k before hlookup'

theorem poll_remoteAcked (hopen : u.inner.closedAndDrained = false) :
    (u.poll cx).inner.remoteAcked = Counter.larger u.inner.remoteAcked (appliedAck u.inner cx.budget) := by
  rw [UdxStream.poll_frame remoteAcked (fun _ _ => rfl) (fun _ _ _ => rfl), pollDriver_remoteAcked _ _ hopen]

end Poll

end AsyncUdx
