import AsyncUdx.HostRun

/-! Segmentation offload over whole runs. How many packets a stream may put into one set is read from state that it
shares with the UDP layer, which sets it to one when the kernel turns out not to support the offload. From then on every
set holds one packet, and where it is one from the start, no transmit ever asks for segmentation. -/

namespace AsyncUdx

open Udp UdxStreamInner

/-- Beyond the events of before, only sets with at most so many packets were handed over. -/
def GrowsWithin (limit : Nat) (before events : List EventOutgoing) : Prop :=
  ∃ more, events = before ++ more ∧ ∀ set, .transmit set ∈ more → set.packets.length ≤ limit

section Streams

variable {limit : Nat} {before events : List EventOutgoing}

theorem GrowsWithin.refl (limit : Nat) (before : List EventOutgoing) : GrowsWithin limit before before :=
  ⟨[], (List.append_nil _).symm, fun _ h => absurd h List.not_mem_nil⟩

theorem GrowsWithin.append (h : GrowsWithin limit before events) {event : EventOutgoing}
    (hevent : ∀ set, event = .transmit set → set.packets.length ≤ limit) :
    GrowsWithin limit before (events ++ [event]) := by
  obtain ⟨more, rfl, hmore⟩ := h
  refine ⟨more ++ [event], List.append_assoc _ _ _, fun set hset => ?_⟩
  rcases List.mem_append.mp hset with hold | hnew
  · exact hmore set hold
  · exact hevent set (List.mem_singleton.mp hnew).symm

/-- The packets that are collected never exceed the limit of the loop. -/
theorem transmitLoop_growsWithin {atMost : Nat} (hpos : 0 < atMost) (hle : atMost ≤ limit) (pending : List PacketRef)
    (segmentSize : Nat) (queue : List PacketRef) (s : UdxStreamInner) (hqueue : queue.length ≤ atMost)
    (hs : GrowsWithin limit before s.sendTx.events) :
    GrowsWithin limit before (transmitLoop atMost pending segmentSize queue s).1.sendTx.events := by
  induction pending generalizing segmentSize queue s with
  | nil =>
      rw [transmitLoop]
      split
      · exact hs
      · apply hs.append
        rintro set ⟨⟩
        exact hqueue.trans hle
  | cons packet rest ih =>
      rw [transmitLoop]
      dsimp only
      split_ifs with hflush hempty hclosed
      · exact ih _ _ _ hpos hs
      · exact hs
      · refine ih _ _ _ hpos (hs.append ?_)
        rintro set ⟨⟩
        exact hqueue.trans hle
      · refine ih _ _ _ ?_ hs
        rw [List.length_append]
        exact Nat.lt_of_le_of_ne hqueue fun h => hflush (Or.inr h)

theorem growsWithin_callInvariant (limit : Nat) (before : List EventOutgoing) (now : Nat) :
    CallInvariant now fun s => GrowsWithin limit before s.sendTx.events where
  push := fun _ _ _ _ _ _ => id
  blocked := fun _ _ _ _ _ _ => id
  readPart := fun _ _ _ => id
  readWhole := fun _ _ => id
  readWaker := fun _ _ => id
  terminate := fun _ _ => id
  slot := fun _ _ _ => id
  complete := fun _ hs => hs.append nofun
  mark := fun _ _ _ _ _ => id
  gone := fun _ _ _ => id

/-- A call hands over sets with as many packets as it is allowed to. -/
theorem UdxStream.call_growsWithin {u : UdxStream} (hu : GrowsWithin limit before u.inner.sendTx.events) {c : Call}
    (hc : ∀ waker timerLag budget maxGsoSegments, c = .poll waker timerLag budget maxGsoSegments →
      0 < maxGsoSegments ∧ min maxGsoSegments maxSegments ≤ limit) :
    GrowsWithin limit before (u.call c).inner.sendTx.events := by
  by_cases hdrives : u.drives c
  · cases c with
    | poll waker timerLag budget maxGsoSegments =>
        obtain ⟨hpos, hle⟩ := hc waker timerLag budget maxGsoSegments rfl
        have hlimit : 0 < min maxGsoSegments maxSegments := Nat.lt_min.mpr ⟨hpos, by decide⟩
        have hinv := growsWithin_callInvariant limit before u.clock
        rw [call_poll hdrives.1]
        refine poll_invariant _ hinv.terminate hinv.slot (fun _ _ _ => id) hdrives.2 ?_
        exact pollDrive_sendTx (fun tx => GrowsWithin limit before tx.events) { u.inner with driveWaker := none } _ hu
          fun t ht => transmitLoop_growsWithin hlimit hle t.sendQueue 0 [] t (Nat.zero_le _) ht
    | _ => exact hdrives.elim
  · exact u.call_invariant c (growsWithin_callInvariant limit before u.clock) hdrives hu

end Streams

namespace Host

variable {p : Platform}

/-! ### The shared number of segments -/

theorem step_gso (h : Host p) (e : HostEvent p) : GsoStep h.udp (h.step e).udp := by
  have hstepped := h.step_stepped e
  generalize h.step e = after at hstepped ⊢
  cases hstepped with
  | same => exact .refl h.udp
  | quiet e' he' => exact .refl h.udp
  | polls cx he hrunning hpolled =>
      cases hpolled with
      | stuck => exact .refl h.udp
      | silent received hreceived hnone => exact .refl h.udp
      | sends received answer hreceived hoffered hanswer => exact (p.answers _ _ _ _ _ hanswer).gso

/-- What a stream may put into a set, since a moment at which the UDP layer allowed `limit` segments and the streams had
handed over `outbox`. -/
structure Segmented (limit : Nat) (outbox : List (List EventOutgoing)) (h : Host p) : Prop where
  pos : 0 < h.udp.maxGsoSegments
  le : h.udp.maxGsoSegments ≤ limit
  streams : h.socket.Attends outbox.length fun n u =>
    GrowsWithin (min limit maxSegments) (outbox.getD n []) u.inner.sendTx.events

theorem Segmented.step {limit : Nat} {outbox : List (List EventOutgoing)} {h : Host p} (hs : h.Segmented limit outbox)
    (e : HostEvent p) : (h.step e).Segmented limit outbox where
  pos := by
    rcases (h.step_gso e).1 with heq | hone
    · rw [heq]
      exact hs.pos
    · rw [hone]
      exact Nat.one_pos
  le := by
    rcases (h.step_gso e).1 with heq | hone
    · rw [heq]
      exact hs.le
    · rw [hone]
      exact hs.pos.trans_le hs.le
  streams := by
    apply attends_step hs.streams
    · exact fun n u c hc hu => u.call_growsWithin hu (by rintro _ _ _ _ rfl; cases hc)
    · intro n c _ u hu
      refine u.call_growsWithin hu fun waker timerLag budget maxGsoSegments hc => ?_
      cases c with
      | poll =>
          cases hc
          exact ⟨hs.pos, min_le_min_right _ hs.le⟩
      | _ => cases hc
    · exact fun raw _ n u hu _ _ => hu
    · intro dest localId remoteId _ _
      rw [List.getD_eq_getElem?_getD, List.getElem?_eq_none hs.streams.length_le]
      exact .refl _ _

theorem run_grounded (now maxGsoSegments : Nat) (earlier : Option Int) (events : List (HostEvent p)) :
    (Runs.run step (Host.bind now maxGsoSegments earlier) events : Host p).Grounded fun _ => True :=
  Runs.run_invariant (Grounded fun _ => True) (fun _ _ hs => hs.step fun _ _ _ => trivial)
    (bind_grounded _ now maxGsoSegments earlier) events

/-- Once Linux has answered a send with `EIO`, there is no offload any more. -/
theorem run_eio (now maxGsoSegments : Nat) (earlier : Option Int) (events : List (HostEvent p)) :
    let h : Host p := Runs.run step (Host.bind now maxGsoSegments earlier) events
    h.udp.eio = true → h.udp.maxGsoSegments ≤ 1 := by
  refine Runs.run_invariant (fun h : Host p => h.udp.eio = true → h.udp.maxGsoSegments ≤ 1) (fun h e hs heio => ?_)
    (fun h => absurd h Bool.false_ne_true) events
  obtain ⟨hmax, hsame | hnone⟩ := h.step_gso e
  · rcases hmax with heq | hone
    · rw [heq]
      exact hs (hsame.symm.trans heio)
    · exact hone.le
  · exact hnone

theorem run_gso_pos {now maxGsoSegments : Nat} (hpos : 0 < maxGsoSegments) (earlier : Option Int)
    (events : List (HostEvent p)) :
    0 < (Runs.run step (Host.bind now maxGsoSegments earlier) events : Host p).udp.maxGsoSegments := by
  refine Runs.run_invariant (fun h : Host p => 0 < h.udp.maxGsoSegments) (fun h e hs => ?_) hpos events
  rcases (h.step_gso e).1 with heq | hone
  · rw [heq]
    exact hs
  · rw [hone]
    exact Nat.one_pos

/-- The streams of a host, from a moment on. -/
theorem run_segmented {h : Host p} (hgrounded : h.Grounded fun _ => True) (hpos : 0 < h.udp.maxGsoSegments)
    (rest : List (HostEvent p)) : (Runs.run step h rest).Segmented h.udp.maxGsoSegments h.socket.outbox := by
  refine Runs.run_invariant (Segmented h.udp.maxGsoSegments h.socket.outbox) (fun _ e hs => hs.step e)
    ⟨hpos, Nat.le_refl _, ?_⟩ rest
  have hlength : h.socket.outbox.length = h.socket.tasks.length := List.length_map _
  rw [hlength]
  apply hgrounded.attends.of_all
  intro n u hu
  rw [List.getD_eq_getElem?_getD, UdxSocket.outbox, List.getElem?_map, hu]
  exact .refl _ _

/-- **The limit on segments is respected from any moment on.** In every run of a host, the number of segments that the
UDP layer allows never rises, and every set that a stream hands over after some moment holds at most as many packets as
it allowed at that moment. Once Linux has answered a send with `EIO`, that is one packet. -/
theorem sets_respect_limit {now maxGsoSegments : Nat} (earlier : Option Int) (hpos : 0 < maxGsoSegments)
    (first rest : List (HostEvent p)) :
    let h := Runs.run step (Host.bind now maxGsoSegments earlier) first
    let h' := Runs.run step h rest
    h'.udp.maxGsoSegments ≤ h.udp.maxGsoSegments ∧ (h.udp.eio = true → h.udp.maxGsoSegments = 1) ∧
      ∀ n v, h'.socket.tasks[n]? = some v → ∃ more,
        v.inner.sendTx.events = h.socket.outbox.getD n [] ++ more ∧
          ∀ set, .transmit set ∈ more → set.packets.length ≤ min h.udp.maxGsoSegments maxSegments := by
  intro h h'
  have hgso : 0 < h.udp.maxGsoSegments := run_gso_pos hpos earlier first
  have hsegmented : h'.Segmented h.udp.maxGsoSegments h.socket.outbox :=
    run_segmented (run_grounded now maxGsoSegments earlier first) hgso rest
  exact ⟨hsegmented.le, fun heio => Nat.le_antisymm (run_eio now maxGsoSegments earlier first heio) hgso,
    fun n v hv => hsegmented.streams.all n v hv⟩

/-- Two packets of one size in one set, which the kernel fails to segment. -/
def eioRun : List (HostEvent .linux) :=
  let readable : Platform.linux.RecvScript := ([] : List (Readiness (Except RecvErrno (List Arrival))))
  let writable : Platform.linux.SendScript := ([.ready [.error .eio]] : List (Readiness (Except Errno Nat)))
  [.connect ⟨.v4 0, 2⟩ 1 2, .stream 0 (.write 0 [1]), .stream 0 (.write 0 [2]), .stream 0 (.poll 0 0 10 64),
    .poll ⟨0, 10, 0, 10, readable, writable, 0⟩]

theorem sets_respect_limit_eioRun :
    let h : Host .linux := Runs.run step (Host.bind 0 64 none) eioRun
    h.udp.eio = true ∧ ∀ rest, (Runs.run step h rest).udp.maxGsoSegments ≤ 1 ∧
      ∀ n v, (Runs.run step h rest).socket.tasks[n]? = some v → ∃ more,
        v.inner.sendTx.events = h.socket.outbox.getD n [] ++ more ∧
          ∀ set, .transmit set ∈ more → set.packets.length ≤ 1 := by
  intro h
  have heio : h.udp.eio = true := by decide +kernel
  refine ⟨heio, fun rest => ?_⟩
  obtain ⟨hle, hhalted, hsets⟩ := @sets_respect_limit .linux 0 64 none (by decide) eioRun rest
  have hone : h.udp.maxGsoSegments = 1 := hhalted heio
  refine ⟨hle.trans hone.le, fun n v hv => ?_⟩
  obtain ⟨more, hmore, hall⟩ := hsets n v hv
  exact ⟨more, hmore, fun set hset => (hall set hset).trans ((Nat.min_le_left _ _).trans hone.le)⟩

/-- **Without offload nothing is to be segmented.** When the UDP layer allows one segment from the start, no transmit
that is offered to it in any run has a segment size. -/
theorem offered_unsegmented (now : Nat) (earlier : Option Int) (events : List (HostEvent p)) (cx : HostContext p)
    (received : List (Except IoError (List Arrival))) :
    ∀ transmit ∈ (Runs.run step (Host.bind now 1 earlier) events : Host p).offered cx received,
      transmit.segmentSize = none := by
  have hgrounded : (Runs.run step (Host.bind now 1 earlier) events : Host p).Grounded fun _ => True :=
    run_grounded now 1 earlier events
  have hsegmented := run_segmented (bind_grounded (fun _ => True) now 1 earlier) Nat.one_pos events
  generalize (Runs.run step (Host.bind now 1 earlier) events : Host p) = h at hgrounded hsegmented ⊢
  intro transmit htransmit
  cases offered_origin hgrounded.traced cx received transmit htransmit with
  | user dgram hok heq =>
      rw [heq]
      rfl
  | stream n sent set skip hn hset heq =>
      rw [UdxSocket.outbox, List.getElem?_map] at hn
      obtain ⟨u, hu, rfl⟩ := Option.map_eq_some_iff.mp hn
      obtain ⟨hne, size, hsize, -⟩ := (hgrounded.attends.all n u hu).grouped set hset
      obtain ⟨more, hmore, hsets⟩ := hsegmented.streams.all n u hu
      have hone : set.packets.length = 1 := by
        have hle : set.packets.length ≤ 1 := by
          rw [hmore] at hset
          exact (hsets set hset).trans (Nat.min_le_left _ _)
        exact Nat.le_antisymm hle (List.length_pos_iff.mpr hne)
      rw [heq, PacketSet.toTransmit, hsize]
      exact if_pos hone

/-- Two packets of one size, on a platform without offload. -/
def plainRun : List (HostEvent .apple) :=
  [.connect ⟨.v4 0, 2⟩ 1 2, .stream 0 (.write 0 [1]), .stream 0 (.write 0 [2]), .stream 0 (.poll 0 0 10 64)]

def plainCx : HostContext .apple :=
  ⟨0, 10, 0, 10, ([] : List (Readiness (Except RecvErrno Arrival))), ([] : List (Readiness (Except Errno Unit))), 0⟩

theorem offered_unsegmented_plain :
    let h : Host .apple := Runs.run step (Host.bind 0 1 none) plainRun
    (h.offered plainCx []).length = 1 ∧ ∀ transmit ∈ h.offered plainCx [], transmit.segmentSize = none :=
  ⟨by decide +kernel, offered_unsegmented 0 none plainRun plainCx []⟩

end Host

end AsyncUdx
