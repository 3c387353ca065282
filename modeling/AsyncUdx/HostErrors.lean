import AsyncUdx.HostRun

/-! What errors do to a host. Errors of single messages are swallowed by the UDP layer, which warns of one of them now
and then; the socket driver only ever sees the errors of the reactor and those of receiving. In particular it never sees
that a send was interrupted, so the timer that is to hold back sending is armed only if the reactor itself reports an
interruption. -/

namespace AsyncUdx

open Udp

/-! ### How the driver fails -/

namespace UdxSocket

theorem recvLoop_error {iters : Nat} {received : List (Except IoError (List Arrival))} {h : UdxSocket} {err : IoError}
    (herr : (recvLoop iters received h).2 = .error err) : .error err ∈ received := by
  induction iters generalizing received h with
  | zero => cases herr
  | succ iters ih =>
      match received with
      | [] => cases herr
      | .error err' :: rest =>
          cases herr
          exact List.mem_cons_self
      | .ok arrivals :: rest => exact List.mem_cons_of_mem _ (ih herr)

theorem pollTransmit_error {h : UdxSocket} {cx : SocketContext} {err : IoError}
    (herr : (h.pollTransmit cx).2 = .error err) : cx.sendOutcome = .failed err := by
  unfold pollTransmit at herr
  dsimp only at herr
  split at herr
  · cases herr
  · split at herr <;> cases herr
    assumption

theorem settle_driver (h : UdxSocket) (cx : SocketContext) (shouldContinue : Bool) :
    (h.settle cx shouldContinue).driver = h.driver ∨ (h.settle cx shouldContinue).driver = .finished (.ok ()) := by
  unfold settle
  split_ifs
  · exact Or.inr (finish_driver h _)
  · exact Or.inl rfl
  · exact Or.inl rfl

/-- A driver that fails in a poll has failed to receive, or the UDP socket has failed to send. -/
theorem poll_failed {h : UdxSocket} {cx : SocketContext} {err : IoError} (hrunning : h.driver = .running)
    (hend : (h.poll cx).driver = .finished (.error err)) :
    .error err ∈ cx.received ∨ cx.sendOutcome = .failed err := by
  have hrecv : (h.pollRecv cx).1.driver = .running :=
    (pollRecv_frame driver (fun _ _ _ _ _ _ _ => rfl) h cx).trans hrunning
  have hsettled : ∀ (t : UdxSocket) (shouldContinue : Bool), t.driver = .running →
      (t.settle cx shouldContinue).driver ≠ .finished (.error err) := by
    intro t shouldContinue ht hfinished
    rcases t.settle_driver cx shouldContinue with hsame | hok
    · cases ht.symm.trans (hsame.symm.trans hfinished)
    · cases hok.symm.trans hfinished
  unfold poll at hend
  split at hend
  · rename_i t err' hpoll
    left
    rw [finish_driver] at hend
    cases hend
    apply recvLoop_error
    rw [show recvLoop (maxLoop - 1) cx.received h = _ from hpoll]
  · rename_i t shouldContinue hpoll
    rw [hpoll] at hrecv
    split at hend
    · split at hend
      · exact absurd hend (hsettled t _ hrecv)
      · exact absurd hend (hsettled _ _ hrecv)
    · have htransmit := pollTransmit_frame driver (fun _ _ _ htake => htake.driver) (fun _ _ _ _ _ _ => rfl) t cx
      split at hend
      · rename_i t' err' hsent
        right
        rw [finish_driver] at hend
        cases hend
        apply pollTransmit_error
        rw [hsent]
      · rename_i t' more hsent
        rw [hsent] at htransmit
        exact absurd hend (hsettled t' _ (htransmit.trans hrecv))

/-! ### The clock -/

theorem handleEvent_clock (h : UdxSocket) (sent : Sent) : (h.handleEvent sent).clock = h.clock := by
  unfold handleEvent
  split
  · rw [remove_eq]
  · rfl
  · rfl

theorem poll_clock (h : UdxSocket) (cx : SocketContext) : (h.poll cx).clock = h.clock := by
  refine poll_invariant_of_pollRecv (fun t => t.clock = h.clock) (fun _ _ _ _ _ ht => ht) (fun _ ht => ht)
    (fun _ _ ht => ht) (fun t cx ht => ?_) cx (pollRecv_frame clock (fun _ _ _ _ _ _ _ => rfl) h cx)
  refine pollTransmit_invariant (fun t => t.clock = h.clock) (fun t sent rest _ ht => ?_) (fun _ _ _ _ _ ht => ht)
    (fun _ _ _ _ ht => ht) cx ht
  exact (handleEvent_clock _ sent).trans ht

theorem step_clock_le (h : UdxSocket) (e : SocketEvent) : h.clock ≤ (h.step e).clock := by
  cases e with
  | tick elapsed => exact Nat.le_add_right _ _
  | poll cx =>
      rw [step]
      split
      · exact (h.poll_clock cx).ge
      · exact Nat.le_refl _
  | stream n c =>
      rw [step, callStream]
      split
      · split <;> exact Nat.le_refl _
      · exact Nat.le_refl _
  | connect dest localId remoteId =>
      rw [step]
      split
      · exact Nat.le_refl _
      · unfold connect dropHandle
        dsimp only
        split <;> exact Nat.le_refl _
  | send dest buf =>
      rw [step]
      split <;> exact Nat.le_refl _
  | recv waker =>
      rw [step, recv]
      split
      · exact Nat.le_refl _
      · split <;> exact Nat.le_refl _
  | clone =>
      rw [step]
      split <;> exact Nat.le_refl _
  | drop =>
      rw [step]
      split
      · exact Nat.le_refl _
      · unfold release onDrop
        split_ifs <;> exact Nat.le_refl _

end UdxSocket

namespace Host

variable {p : Platform}

/-- The errors the reactor and the kernel report to a host in an event. -/
def reported : HostEvent p → List IoError
  | .poll cx => p.failures cx.readable ++ p.reactor cx.writable
  | _ => []

theorem ofPoll_failed {result : Poll (Except IoError Nat)} {err : IoError}
    (h : SendOutcome.ofPoll result = .failed err) : result = .ready (.error err) := by
  unfold SendOutcome.ofPoll at h
  split at h
  · cases h
  · split at h <;> cases h
    rfl
  · cases h

theorem ofPoll_interrupted {result : Poll (Except IoError Nat)} (h : SendOutcome.ofPoll result = .interrupted) :
    ∃ err : IoError, err.kind = .interrupted ∧ result = .ready (.error err) := by
  unfold SendOutcome.ofPoll at h
  split at h
  · cases h
  · rename_i err
    split at h
    · exact ⟨err, ‹_›, rfl⟩
    · cases h
  · cases h

/-- A driver fails with an error that was reported in the same event. -/
theorem step_failed {h : Host p} {e : HostEvent p} {err : IoError}
    (hend : (h.step e).socket.driver = .finished (.error err)) :
    h.socket.driver = .finished (.error err) ∨ err ∈ reported e := by
  have hstepped := h.step_stepped e
  generalize h.step e = after at hstepped hend
  cases hstepped with
  | same => exact Or.inl hend
  | quiet e' he' =>
      left
      rw [← UdxSocket.step_frame UdxSocket.driver (fun _ _ _ _ _ _ _ => rfl) h.socket e' he']
      exact hend
  | polls cx he hrunning hpolled =>
      right
      rw [he]
      cases hpolled with
      | stuck => cases hrunning.symm.trans hend
      | silent received hreceived hnone =>
          rcases UdxSocket.poll_failed hrunning hend with hmem | hfailed
          · exact List.mem_append_left _ (p.fails _ _ err hreceived hmem)
          · cases hfailed
      | sends received answer hreceived hoffered hanswer =>
          rcases UdxSocket.poll_failed hrunning hend with hmem | hfailed
          · exact List.mem_append_left _ (p.fails _ _ err hreceived hmem)
          · exact List.mem_append_right _ ((p.answers _ _ _ _ _ hanswer).failed err (ofPoll_failed hfailed))

/-- The timer that holds back sending is armed only when the reactor says that it was interrupted. -/
theorem step_timer {h : Host p} (hs : h.socket.inner.sendOverflowTimer = none) {e : HostEvent p}
    (he : ∀ err ∈ reported e, err.kind ≠ .interrupted) : (h.step e).socket.inner.sendOverflowTimer = none := by
  have hpoll : ∀ cx : SocketContext, cx.sendOutcome ≠ .interrupted →
      (h.socket.poll cx).inner.sendOverflowTimer = none := by
    intro cx hcx
    rcases h.socket.poll_transmits cx with ⟨-, -, -, hidle⟩ | ⟨t, new, -, -, -, htransmits⟩
    · exact hidle hs
    · exact (htransmits.timer hcx).trans hs
  have hstepped := h.step_stepped e
  generalize h.step e = after at hstepped ⊢
  cases hstepped with
  | same => exact hs
  | quiet e' he' => exact (UdxSocket.txSide_inj (h.socket.step_txSide he')).2.2.trans hs
  | polls cx hcx hrunning hpolled =>
      cases hpolled with
      | stuck => exact hs
      | silent received hreceived hnone => exact hpoll (cx.lower received .pending) SendOutcome.noConfusion
      | sends received answer hreceived hoffered hanswer =>
          apply hpoll
          intro hinterrupted
          obtain ⟨err, hkind, hresult⟩ := ofPoll_interrupted hinterrupted
          have hreactor := (p.answers _ _ _ _ _ hanswer).failed err hresult
          rw [hcx] at he
          exact he err (List.mem_append_right _ hreactor) hkind

/-- **Only the reactor stops the socket driver.** In every run of a host, whatever errors the kernel has for single
messages, the driver ends with an error only if that error was reported by the reactor or on receiving; and as long as
none of these is an interruption, the timer that holds back sending is never armed. -/
theorem driver_fails_as_reported (now maxGsoSegments : Nat) (earlier : Option Int) (events : List (HostEvent p)) :
    let h := Runs.run step (Host.bind now maxGsoSegments earlier) events
    (∀ err, h.socket.driver = .finished (.error err) → ∃ e ∈ events, err ∈ reported e) ∧
      ((∀ e ∈ events, ∀ err ∈ reported e, err.kind ≠ .interrupted) → h.socket.inner.sendOverflowTimer = none) := by
  refine ⟨?_, fun hquiet => ?_⟩
  · refine List.foldlRecOn (motive := fun h : Host p =>
      ∀ err, h.socket.driver = .finished (.error err) → ∃ e ∈ events, err ∈ reported e) events step ?_ ?_
    · intro err hend
      cases hend
    · intro h hs e he err hend
      exact (step_failed hend).elim (hs err) fun hmem => ⟨e, he, hmem⟩
  · refine List.foldlRecOn (motive := fun h : Host p => h.socket.inner.sendOverflowTimer = none) events step rfl ?_
    exact fun h hs e he => step_timer hs (hquiet e he)

/-! ### The log -/

/-- Warnings are logged at least `ioErrorLogInterval` apart, the latest first; once there is one, `last_send_error` is
the instant of the latest. -/
structure Spaced (start : Nat) (clock : Nat) (udp : UdpSocket) : Prop where
  last : ∀ later ∈ udp.logged, (later : Int) ≤ udp.lastSendError
  last_le : udp.logged ≠ [] → udp.lastSendError ≤ clock
  spaced : udp.logged.Pairwise fun later earlier => ioErrorLogInterval < later - earlier
  count : udp.logged ≠ [] → start ≤ udp.lastSendError ∧
    (udp.logged.length - 1) * ioErrorLogInterval ≤ (udp.lastSendError - start).toNat

theorem Spaced.mono {start clock clock' : Nat} {udp : UdpSocket} (h : Spaced start clock udp) (hle : clock ≤ clock') :
    Spaced start clock' udp :=
  ⟨h.last, fun hne => (h.last_le hne).trans (Int.ofNat_le.mpr hle), h.spaced, h.count⟩

theorem Spaced.log {start clock : Nat} {udp udp' : UdpSocket} (h : Spaced start clock udp) (hstart : start ≤ clock)
    (hlog : LogStep clock udp udp') : Spaced start clock udp' := by
  rcases hlog with ⟨hlast, hlogged⟩ | ⟨hlong, hlast, hlogged⟩
  · constructor
    · rw [hlast, hlogged]
      exact h.last
    · rw [hlast, hlogged]
      exact h.last_le
    · rw [hlogged]
      exact h.spaced
    · rw [hlast, hlogged]
      exact h.count
  · constructor
    · rw [hlast, hlogged]
      intro later hlater
      rcases List.mem_cons.mp hlater with rfl | hold
      · exact Int.le_refl _
      · exact (h.last later hold).trans (h.last_le (List.ne_nil_of_mem hold))
    · exact fun _ => hlast.le
    · rw [hlogged]
      refine List.pairwise_cons.mpr ⟨fun earlier hearlier => ?_, h.spaced⟩
      have := h.last earlier hearlier
      omega
    · intro _
      rw [hlast, hlogged]
      refine ⟨Int.ofNat_le.mpr hstart, ?_⟩
      rw [List.length_cons, Nat.add_sub_cancel]
      by_cases hempty : udp.logged = []
      · rw [hempty, List.length_nil, Nat.zero_mul]
        exact Nat.zero_le _
      · obtain ⟨hsince, hcount⟩ := h.count hempty
        have hpos : 0 < udp.logged.length := List.length_pos_iff.mpr hempty
        calc udp.logged.length * ioErrorLogInterval
            = (udp.logged.length - 1) * ioErrorLogInterval + ioErrorLogInterval := by
              rw [← Nat.succ_mul, Nat.succ_eq_add_one, Nat.sub_add_cancel hpos]
          _ ≤ (udp.lastSendError - start).toNat + (clock - udp.lastSendError).toNat :=
              Nat.add_le_add hcount hlong.le
          _ = ((clock : Int) - start).toNat := by
              have := h.last_le hempty
              omega

theorem step_spaced {start : Nat} {h : Host p} (hstart : start ≤ h.socket.clock)
    (hs : Spaced start h.socket.clock h.udp) (e : HostEvent p) :
    start ≤ (h.step e).socket.clock ∧ Spaced start (h.step e).socket.clock (h.step e).udp := by
  have hstepped := h.step_stepped e
  generalize h.step e = after at hstepped ⊢
  cases hstepped with
  | same => exact ⟨hstart, hs⟩
  | quiet e' he' =>
      have hle := h.socket.step_clock_le e'
      exact ⟨hstart.trans hle, hs.mono hle⟩
  | polls cx he hrunning hpolled =>
      cases hpolled with
      | stuck => exact ⟨hstart, hs⟩
      | silent received hreceived hnone =>
          have hle := (h.socket.poll_clock (cx.lower received .pending)).ge
          exact ⟨hstart.trans hle, hs.mono hle⟩
      | sends received answer hreceived hoffered hanswer =>
          have hle := (h.socket.poll_clock (cx.lower received (.ofPoll answer.result))).ge
          exact ⟨hstart.trans hle, (hs.log hstart (p.answers _ _ _ _ _ hanswer).logged).mono hle⟩

/-- **The warnings are limited.** In every run of a host, however many messages the kernel refuses, two warnings of
`log_sendmsg_error` are more than `ioErrorLogInterval` apart, so there is at most one for each such interval since the
start, and one more. On Linux `send` also logs every refusal as an error, which nothing limits. -/
theorem warnings_limited (now maxGsoSegments : Nat) (earlier : Option Int) (events : List (HostEvent p)) :
    let h := Runs.run step (Host.bind now maxGsoSegments earlier) events
    (h.udp.logged.Pairwise fun later earlier => ioErrorLogInterval < later - earlier) ∧
      h.udp.logged.length * ioErrorLogInterval ≤ (h.socket.clock - now) + ioErrorLogInterval := by
  let Inv (h : Host p) : Prop := now ≤ h.socket.clock ∧ Spaced now h.socket.clock h.udp
  have hinv : Inv (Runs.run step (Host.bind now maxGsoSegments earlier) events) := by
    refine Runs.run_invariant Inv (fun h e hs => step_spaced hs.1 hs.2 e) ⟨Nat.le_refl _, ?_⟩ events
    exact ⟨fun _ h => absurd h List.not_mem_nil, fun hne => absurd rfl hne, .nil, fun hne => absurd rfl hne⟩
  generalize (Runs.run step (Host.bind now maxGsoSegments earlier) events : Host p) = h at hinv
  obtain ⟨hstart, hs⟩ := hinv
  refine ⟨hs.spaced, ?_⟩
  by_cases hempty : h.udp.logged = []
  · rw [hempty, List.length_nil, Nat.zero_mul]
    exact Nat.zero_le _
  · have hpos : 0 < h.udp.logged.length := List.length_pos_iff.mpr hempty
    have hsince : (h.udp.lastSendError - now).toNat ≤ h.socket.clock - now := by
      have := hs.last_le hempty
      omega
    calc h.udp.logged.length * ioErrorLogInterval
        = (h.udp.logged.length - 1) * ioErrorLogInterval + ioErrorLogInterval := by
          rw [← Nat.succ_mul, Nat.succ_eq_add_one, Nat.sub_add_cancel hpos]
      _ ≤ (h.socket.clock - now) + ioErrorLogInterval :=
          Nat.add_le_add_right ((hs.count hempty).2.trans hsince) _

end Host

end AsyncUdx
