import AsyncUdx.StreamTask

/-! The close future. `close` hands out a future whose sender waits in the one slot of the stream; the
driver fires it when the stream is closed and drained. A second `close` puts its own sender into the slot,
and the sender it replaces is dropped, which resolves the first future as well. So a resolved future means
that everything was flushed exactly when no `close` replaces a sender while packets are outstanding. -/

namespace AsyncUdx

open Relation UdxStreamInner

variable {ok : IncomingPacket → Prop} {now : Nat}

/-- While a handle is left, a resolved close future means that every packet was acknowledged. -/
def FlushedWhenResolved (u : UdxStream) : Prop :=
  u.handles ≠ 0 → ∀ future ∈ u.inner.ghost.resolved, ∀ k, k ∉ u.inner.outgoing

/-- `close` is called with the slot free or nothing outstanding. -/
def ClosesFlushed (u : UdxStream) : Event → Prop
  | .call .close => u.handles ≠ 0 → u.inner.onClose = none ∨ ∀ k, k ∉ u.inner.outgoing
  | _ => True

/-! ### Terminated streams stay so and send nothing new -/

theorem ackPacket_error (s : UdxStreamInner) (i : UInt32) : (s.ackPacket now i).error = s.error := by
  unfold ackPacket
  split <;> rfl

theorem Move.error_isSome {s t : UdxStreamInner} (h : Move ok now s t) (hs : s.error.isSome) :
    t.error.isSome := by
  cases h with
  | micro h =>
      cases h with
      | ackNext packet hok hlt => exact (congrArg Option.isSome (ackPacket_error _ _)).trans hs
      | sack packet i hok htype => exact (congrArg Option.isSome (ackPacket_error _ _)).trans hs
      | finish packet hok htype => rfl
      | _ => exact hs
  | terminate error => rfl
  | _ => exact hs

/-- Terminated, with nothing outstanding. -/
def Drained (s : UdxStreamInner) : Prop := s.error.isSome ∧ ∀ k, k ∉ s.outgoing

/-- Once terminated, a stream with nothing outstanding stays so. -/
theorem Move.drained {s t : UdxStreamInner} (h : Move ok now s t) (hs : Drained s) : Drained t := by
  refine ⟨h.error_isSome hs.1, ?_⟩
  cases h with
  | micro h => exact fun k hk => hs.2 k (h.mem_outgoing hk)
  | send body herror hbody hlen hroom => exact absurd hs.1 (by rw [herror]; decide)
  | _ => exact hs.2

theorem step_terminated {u : UdxStream} (e : Event) (hu : u.inner.error.isSome) :
    (u.step e).inner.error.isSome :=
  (u.step_advance_any e).invariant (fun s => s.error.isSome) (fun _ _ h => h.error_isSome) (fun _ _ => id) hu

theorem step_drained {u : UdxStream} (e : Event) (hu : Drained u.inner) : Drained (u.step e).inner :=
  (u.step_advance_any e).invariant Drained (fun _ _ h => h.drained) (fun _ _ => id) hu

theorem closedAndDrained_spec {s : UdxStreamInner} (h : s.closedAndDrained = true) : Drained s := by
  simp only [closedAndDrained, Bool.and_eq_true] at h
  exact ⟨h.1.1, AList.notMem_of_isEmpty h.2⟩

/-- The driver completes only on a stream that is closed and drained. -/
theorem step_completed {u : UdxStream} {e : Event} (h : (u.step e).driver = .completed) :
    u.driver = .completed ∨ u.inner.closedAndDrained = true := by
  cases e with
  | recv header buf source => exact Or.inl h
  | call c =>
      change (u.call c).driver = .completed at h
      cases c with
      | poll waker timerLag budget maxGsoSegments =>
          rw [UdxStream.call] at h
          split at h
          · cases hdone : u.inner.closedAndDrained with
            | true => exact Or.inr rfl
            | false =>
                left
                rw [UdxStream.poll_eq] at h
                rcases pollDriver_cases u.inner ⟨waker, u.clock, timerLag, budget, maxGsoSegments⟩ hdone with
                  ⟨flag, waker, woken, -, hpoll⟩ | ⟨err, woken, -, hpoll⟩ | ⟨message, -, hpoll⟩ <;> rw [hpoll] at h
                · exact h
                · exact h
                · cases h
          · exact Or.inl h
      | _ =>
          rw [UdxStream.call_driver] at h
          · exact Or.inl h
          · intros
            exact Call.noConfusion

/-! ### When futures are resolved -/

theorem ackPacket_resolved (s : UdxStreamInner) (i : UInt32) :
    (s.ackPacket now i).ghost.resolved = s.ghost.resolved := by
  unfold ackPacket
  split <;> rfl

theorem Micro.resolved_eq {s t : UdxStreamInner} (h : Micro ok now s t) : t.ghost.resolved = s.ghost.resolved := by
  cases h with
  | ackNext packet hok hlt => exact ackPacket_resolved _ _
  | sack packet i hok htype => exact ackPacket_resolved _ _
  | _ => rfl

theorem Chain.resolved_eq {s t : UdxStreamInner} (h : Chain ok now s t) : t.ghost.resolved = s.ghost.resolved :=
  chain_value (fun s => s.ghost.resolved) (fun _ _ h => h.resolved_eq) h

theorem onDrop_resolved (u : UdxStream) : u.onDrop.inner.ghost.resolved = u.inner.ghost.resolved := by
  unfold UdxStream.onDrop
  split <;> rfl

/-- A poll resolves a future only when the stream is closed and drained. -/
theorem poll_resolved {u : UdxStream} (hhandles : u.handles ≠ 0) (cx : Context) :
    (u.poll cx).inner.ghost.resolved = u.inner.ghost.resolved ∨ u.inner.closedAndDrained = true := by
  cases hdone : u.inner.closedAndDrained with
  | true => exact Or.inr rfl
  | false =>
      left
      have hdrive : Chain UdxStream.anyPacket cx.now { u.inner with driveWaker := none } _ :=
        pollDrive_chain { u.inner with driveWaker := none } cx fun _ _ => trivial
      have hdriver : (u.inner.pollDriver cx).1.ghost.resolved = u.inner.ghost.resolved :=
        (pollDriver_frame (fun s => s.ghost.resolved) (fun _ _ => rfl) (fun _ _ _ => rfl) u.inner cx hdone).trans
          hdrive.resolved_eq
      have hdrop : ∀ (inner : UdxStreamInner) (driver : Driver),
          ({ u with inner := inner }.dropDriver driver).inner.ghost.resolved = inner.ghost.resolved := by
        intro inner driver
        rw [UdxStream.dropDriver_of_handles { u with inner := inner } hhandles]
        exact onDrop_resolved _
      unfold UdxStream.poll
      split <;> rename_i inner h <;> rw [h] at hdriver
      · exact (hdrop _ _).trans hdriver
      · exact hdriver
      · exact (hdrop _ _).trans hdriver

theorem close_resolved (u : UdxStream) :
    u.close.inner.ghost.resolved = u.inner.onClose.toList ++ u.inner.ghost.resolved := rfl

theorem close_outgoing (u : UdxStream) : u.close.inner.outgoing = u.inner.outgoing := rfl

/-- What resolves futures while a handle is left: the end of the driver, with nothing outstanding, and a
`close` that finds a sender in the slot. -/
theorem step_resolved {u : UdxStream} {e : Event} (hhandles : (u.step e).handles ≠ 0) :
    (u.step e).inner.ghost.resolved = u.inner.ghost.resolved ∨ u.inner.closedAndDrained = true ∨
      e = .call .close := by
  have hbefore := UdxStream.step_handles hhandles
  cases e with
  | recv header buf source => exact Or.inl rfl
  | call c =>
      change (u.call c).inner.ghost.resolved = _ ∨ _
      cases c with
      | write waker buf =>
          rw [UdxStream.call, if_neg hbefore]
          exact Or.inl (pollWrite_frame (fun s => s.ghost.resolved) (fun _ _ => rfl) (fun _ _ => rfl) _ _ _)
      | read waker remaining =>
          rw [UdxStream.call, if_neg hbefore]
          rw [pollRead_frame (fun s => s.ghost.resolved) fun _ _ => rfl]
          exact Or.inl (readNext_frame (fun s => s.ghost.resolved) (fun _ _ _ => rfl) (fun _ _ => rfl) _ _)
      | close => exact Or.inr (Or.inr rfl)
      | clone =>
          rw [UdxStream.call, if_neg hbefore]
          exact Or.inl rfl
      | drop =>
          change (u.call .drop).handles ≠ 0 at hhandles
          rw [UdxStream.drop_eq u hbefore] at hhandles
          have hleft : ({ u.onDrop with handles := u.handles - 1 } : UdxStream).handles ≠ 0 := hhandles
          rw [UdxStream.call, if_neg hbefore, UdxStream.release_of_handles hleft]
          exact Or.inl (onDrop_resolved u)
      | poll waker timerLag budget maxGsoSegments =>
          rw [UdxStream.call]
          split
          · rcases poll_resolved hbefore ⟨waker, u.clock, timerLag, budget, maxGsoSegments⟩ with h | h
            · exact Or.inl h
            · exact Or.inr (Or.inl h)
          · exact Or.inl rfl
      | tick elapsed => exact Or.inl rfl
      | markSent seq sent =>
          have h : Chain UdxStream.anyPacket u.clock u.inner _ := UdxStream.markSent_chain u.inner seq sent
          exact Or.inl h.resolved_eq
      | socketGone recvClosed sendClosed => exact Or.inl rfl

/-! ### Runs -/

/-- While a handle is left, a resolved future belongs to a terminated stream. -/
def ResolvedTerminated (u : UdxStream) : Prop :=
  u.handles ≠ 0 → u.inner.ghost.resolved ≠ [] → u.inner.error.isSome

theorem step_resolvedTerminated (u : UdxStream) (e : Event) (hu : ResolvedTerminated u) :
    ResolvedTerminated (u.step e) := by
  intro hhandles hresolved
  have hbefore := UdxStream.step_handles hhandles
  rcases step_resolved hhandles with hsame | hdone | rfl
  · rw [hsame] at hresolved
    exact step_terminated e (hu hbefore hresolved)
  · exact step_terminated e (closedAndDrained_spec hdone).1
  · change (u.call .close).inner.error.isSome
    rw [UdxStream.call, if_neg hbefore]
    rfl

/-- A step keeps the meaning of the close future exactly if it replaces no sender of a stream with packets
outstanding. -/
theorem step_flushed_iff (u : UdxStream) (e : Event) (hterminated : ResolvedTerminated u)
    (hu : FlushedWhenResolved u) : FlushedWhenResolved (u.step e) ↔ ClosesFlushed u e := by
  by_cases hclose : e = .call .close
  · subst hclose
    by_cases hzero : u.handles = 0
    · have hstep : u.step (.call .close) = u := if_pos hzero
      rw [hstep]
      exact ⟨fun _ h => absurd hzero h, fun _ => hu⟩
    · have hstep : u.step (.call .close) = u.close := if_neg hzero
      rw [hstep, FlushedWhenResolved, close_resolved, close_outgoing]
      refine forall_congr' fun hhandles => ?_
      constructor
      · intro h
        cases hslot : u.inner.onClose with
        | none => exact Or.inl rfl
        | some sender =>
            refine Or.inr (h sender ?_)
            rw [hslot]
            exact List.mem_append_left _ (List.mem_singleton.mpr rfl)
      · rintro (hnone | hempty) future hfuture
        · rw [hnone] at hfuture
          exact hu hhandles future hfuture
        · exact hempty
  · have hguard : ClosesFlushed u e := by
      unfold ClosesFlushed
      split
      · exact absurd rfl hclose
      · trivial
    refine ⟨fun _ => hguard, fun _ hhandles future hfuture => ?_⟩
    have hbefore := UdxStream.step_handles hhandles
    rcases step_resolved hhandles with hsame | hdone | h
    · rw [hsame] at hfuture
      exact (step_drained e ⟨hterminated hbefore (List.ne_nil_of_mem hfuture), hu hbefore future hfuture⟩).2
    · exact (step_drained e (closedAndDrained_spec hdone)).2
    · exact absurd h hclose

/-- **A resolved close future means flushed, in every state of a run, exactly when no `close` of the run
replaces the sender of an earlier one while packets are outstanding.** -/
theorem flushed_always_iff (start : Nat) (dest : SocketAddr) (remoteId localId : UInt32) (events : List Event) :
    Runs.Always UdxStream.step FlushedWhenResolved (.connect start dest remoteId localId) events ↔
      Runs.Along UdxStream.step ClosesFlushed (.connect start dest remoteId localId) events :=
  Runs.always_iff_along ResolvedTerminated (fun _ => True) (fun _ _ _ => trivial)
    (fun u e hu _ => step_resolvedTerminated u e hu) (fun u e hi hu _ => step_flushed_iff u e hi hu)
    (fun _ h => absurd rfl h) (fun _ _ h => absurd h List.not_mem_nil) trivial

/-- A write that is not acknowledged, and two calls of `close`. -/
def closeTwiceRun : List Event := [.call (.write 0 [1]), .call .close, .call .close]

/-- The future of the first call is resolved, with the packet still in `outgoing`. -/
theorem closeTwiceRun_resolves_early :
    let u := (UdxStream.connect 0 ⟨.v4 0, 2⟩ 2 1).run closeTwiceRun
    u.handles = 1 ∧ u.inner.ghost.resolved = [0] ∧ 0 ∈ u.inner.outgoing := by
  decide

end AsyncUdx
