import AsyncUdx.SocketSend

/-! When the socket driver stops sending. `poll_transmit` tells the driver to go to sleep unless it has stopped for lack
of room; a send that takes only a part of what is queued is not a reason to go on. So a short send leaves
transmits behind that nothing wakes the driver for, if the channel has run dry in the same call. -/

namespace AsyncUdx

namespace UdxSocket

/-- What the queue of transmits grows to when everything within the budget is taken out of the channel. -/
def queuedWithin (h : UdxSocket) (budget : Nat) : Nat :=
  h.inner.outgoingTransmits.length + (sources (h.inner.sendRx.take budget)).length

/-- The loop has stopped for lack of events exactly if there was room for all of them, and then it has taken them. -/
theorem takeEvents_dry_iff (budget : Nat) (h : UdxSocket) :
    ((h.takeEvents budget).2 = true ↔ h.queuedWithin budget < h.batchSize) ∧
    ((h.takeEvents budget).2 = true →
      (h.takeEvents budget).1.inner.outgoingTransmits.length = h.queuedWithin budget) := by
  induction budget generalizing h with
  | zero =>
      have hlen : h.queuedWithin 0 = h.inner.outgoingTransmits.length := rfl
      unfold takeEvents
      rw [hlen]
      split
      · exact ⟨iff_of_true rfl ‹_›, fun _ => rfl⟩
      · exact ⟨iff_of_false Bool.false_ne_true ‹_›, fun h => absurd h Bool.false_ne_true⟩
  | succ budget ih =>
      unfold takeEvents
      split
      · rename_i hroom
        cases hqueue : h.inner.sendRx with
        | nil =>
            have hlen : h.queuedWithin (budget + 1) = h.inner.outgoingTransmits.length := by
              rw [queuedWithin, hqueue]
              rfl
            rw [hlen]
            exact ⟨iff_of_true rfl hroom, fun _ => rfl⟩
        | cons sent rest =>
            have htake := handleEvent_takes hqueue
            have hrest : (({ h with inner := { h.inner with sendRx := rest } }).handleEvent sent).inner.sendRx = rest :=
              (List.cons.inj (hqueue.symm.trans htake.sendRx)).2.symm
            -- the first event counts either way, as one that is taken or as one that is left
            have hlen : (({ h with inner := { h.inner with sendRx := rest } }).handleEvent sent).queuedWithin budget =
                h.queuedWithin (budget + 1) := by
              rw [queuedWithin, queuedWithin, htake.length, hrest, hqueue, List.take_succ_cons, Nat.add_assoc,
                ← List.length_append, sources, sources, sources, ← List.filterMap_append]
              rfl
            have hnext := ih (({ h with inner := { h.inner with sendRx := rest } }).handleEvent sent)
            rwa [hlen, htake.batchSize] at hnext
      · rename_i hfull
        refine ⟨iff_of_false Bool.false_ne_true fun hlt => hfull ?_, fun h => absurd h Bool.false_ne_true⟩
        exact Nat.lt_of_le_of_lt (Nat.le_add_right _ _) hlt

/-- When sending tells the driver to sleep, there is nothing left to send, or the UDP socket will wake the driver, or
the timer that holds back sending will. -/
def SleepsSafely (h : UdxSocket) (cx : SocketContext) : Prop :=
  (h.pollTransmit cx).2 = .ok false →
    (h.pollTransmit cx).1.inner.outgoingTransmits = [] ∨ cx.sendOutcome = .pending ∨
      (h.pollTransmit cx).1.inner.sendOverflowTimer.isSome = true

/-- The UDP socket takes fewer transmits than are queued, and the channel has no more of them. -/
def ShortSend (h : UdxSocket) (cx : SocketContext) : Prop :=
  h.inner.sendOverflowTimer = none ∧ h.queuedWithin cx.budget < h.batchSize ∧
    ∃ n < h.queuedWithin cx.budget, cx.sendOutcome = .sent n

theorem handleEvent_timer (h : UdxSocket) (sent : Sent) :
    (h.handleEvent sent).inner.sendOverflowTimer = h.inner.sendOverflowTimer := by
  unfold handleEvent
  split
  · rw [remove_eq]
  · rfl
  · rfl

theorem takeEvents_timer (budget : Nat) (h : UdxSocket) :
    (h.takeEvents budget).1.inner.sendOverflowTimer = h.inner.sendOverflowTimer :=
  takeEvents_invariant (fun t => t.inner.sendOverflowTimer = h.inner.sendOverflowTimer)
    (fun _ sent _ _ ht => (handleEvent_timer _ sent).trans ht) budget rfl

/-- When nothing is queued, nothing can be left behind. -/
theorem sleepsSafely_of_nil {h : UdxSocket} {cx : SocketContext}
    (hempty : (h.takeEvents cx.budget).1.inner.outgoingTransmits = []) : h.SleepsSafely cx ∧ ¬h.ShortSend cx := by
  obtain ⟨hdry, hlen⟩ := takeEvents_dry_iff cx.budget h
  constructor
  · intro _
    left
    rw [pollTransmit]
    dsimp only
    rw [if_pos (List.isEmpty_iff.mpr hempty)]
    exact hempty
  · rintro ⟨-, hroom, n, hn, -⟩
    rw [← hlen (hdry.mpr hroom), hempty] at hn
    exact absurd hn (Nat.not_lt_zero n)

theorem pollTransmit_of_queued {h : UdxSocket} {cx : SocketContext}
    (hqueued : (h.takeEvents cx.budget).1.inner.outgoingTransmits ≠ []) :
    h.pollTransmit cx =
      match cx.sendOutcome with
      | .pending => ((h.takeEvents cx.budget).1, .ok false)
      | .interrupted =>
          ({ (h.takeEvents cx.budget).1 with inner := { (h.takeEvents cx.budget).1.inner with
            sendOverflowTimer := some ((h.takeEvents cx.budget).1.clock + millis 20) } }, .ok false)
      | .failed err => ((h.takeEvents cx.budget).1, .error err)
      | .sent n => ((h.takeEvents cx.budget).1.drain n cx.sentAt, .ok !(h.takeEvents cx.budget).2) := by
  rw [pollTransmit]
  exact if_neg fun h => hqueued (List.isEmpty_iff.mp h)

/-- A send that is not one of some transmits gives the driver a reason to wake up, or ends it. -/
theorem sleepsSafely_of_not_sent {h : UdxSocket} {cx : SocketContext}
    (hqueued : (h.takeEvents cx.budget).1.inner.outgoingTransmits ≠ []) (hsent : ∀ n, cx.sendOutcome ≠ .sent n) :
    h.SleepsSafely cx ∧ ¬h.ShortSend cx := by
  constructor
  · unfold SleepsSafely
    rw [pollTransmit_of_queued hqueued]
    cases houtcome : cx.sendOutcome with
    | pending => exact fun _ => Or.inr (Or.inl rfl)
    | interrupted => exact fun _ => Or.inr (Or.inr rfl)
    | failed err =>
        intro hfalse
        cases hfalse
    | sent n => exact absurd houtcome (hsent n)
  · rintro ⟨-, -, n, -, houtcome⟩
    exact hsent n houtcome

/-- A send of some transmits goes to sleep on the others exactly if the channel has run dry and no timer is armed. -/
theorem sleepsSafely_sent_iff {h : UdxSocket} {cx : SocketContext} {n : Nat} (hsent : cx.sendOutcome = .sent n)
    (hqueued : (h.takeEvents cx.budget).1.inner.outgoingTransmits ≠ []) : h.SleepsSafely cx ↔ ¬h.ShortSend cx := by
  obtain ⟨hdry, hlen⟩ := takeEvents_dry_iff cx.budget h
  have hpoll : h.pollTransmit cx = ((h.takeEvents cx.budget).1.drain n cx.sentAt, .ok !(h.takeEvents cx.budget).2) := by
    rw [pollTransmit_of_queued hqueued, hsent]
  have hleft : ((h.takeEvents cx.budget).1.drain n cx.sentAt).inner.outgoingTransmits = [] ↔
      (h.takeEvents cx.budget).1.inner.outgoingTransmits.length ≤ n := by
    rw [drain_eq]
    exact List.drop_eq_nil_iff
  have htimer : ((h.takeEvents cx.budget).1.drain n cx.sentAt).inner.sendOverflowTimer = h.inner.sendOverflowTimer := by
    rw [drain_eq]
    exact takeEvents_timer cx.budget h
  rw [SleepsSafely, hpoll]
  dsimp only
  rw [hleft, htimer]
  constructor
  · rintro hsafe ⟨hnone, hroom, m, hm, houtcome⟩
    rw [hsent] at houtcome
    cases houtcome
    have hstopped := hdry.mpr hroom
    rcases hsafe (by rw [hstopped]; rfl) with hall | hpending | harmed
    · rw [hlen hstopped] at hall
      omega
    · rw [hsent] at hpending
      cases hpending
    · rw [hnone] at harmed
      cases harmed
  · intro hfine hsleep
    have hstopped : (h.takeEvents cx.budget).2 = true := by
      injection hsleep with hsleep
      simpa using hsleep
    cases hnone : h.inner.sendOverflowTimer with
    | some deadline => exact Or.inr (Or.inr rfl)
    | none =>
        left
        rw [hlen hstopped]
        exact Nat.le_of_not_lt fun hlt => hfine ⟨hnone, hdry.mp hstopped, n, hlt, hsent⟩

/-- **The driver does not sleep on transmits, short sends apart.** For every state of the socket and every outcome of
the send: when `poll_transmit` says that there is nothing to go on with, the queue is empty, or the UDP socket was
pending, or the timer is armed; exactly unless the send took only a part of what was queued and the channel had
run dry. -/
theorem sleepsSafely_iff (h : UdxSocket) (cx : SocketContext) : h.SleepsSafely cx ↔ ¬h.ShortSend cx := by
  by_cases hempty : (h.takeEvents cx.budget).1.inner.outgoingTransmits = []
  · obtain ⟨hsafe, hfine⟩ := sleepsSafely_of_nil hempty
    exact iff_of_true hsafe hfine
  · by_cases hsent : ∃ n, cx.sendOutcome = .sent n
    · obtain ⟨n, hsent⟩ := hsent
      exact sleepsSafely_sent_iff hsent hempty
    · obtain ⟨hsafe, hfine⟩ := sleepsSafely_of_not_sent hempty fun n h => hsent ⟨n, h⟩
      exact iff_of_true hsafe hfine

/-- Two datagrams of the user are queued, and the UDP socket takes one. -/
def shortSendContext : SocketContext := ⟨0, 10, 0, [], .sent 1, 0⟩

theorem shortSend_strands :
    let h := (((UdxSocket.bind 0 32).step (.send ⟨.v4 0, 2⟩ [1])).step (.send ⟨.v4 0, 2⟩ [2]))
    (h.pollTransmit shortSendContext).2 = .ok false ∧
      (h.pollTransmit shortSendContext).1.inner.outgoingTransmits = [⟨⟨.v4 0, 2⟩, [2], none⟩] ∧
      ¬h.SleepsSafely shortSendContext := by
  intro h
  refine ⟨rfl, by decide, fun hsafe => ?_⟩
  rcases hsafe rfl with hempty | hpending | harmed
  · exact absurd hempty (by decide)
  · cases hpending
  · cases harmed

end UdxSocket

end AsyncUdx
