import AsyncUdx.StreamChannel
import AsyncUdx.Demultiplexing

/-! What a socket does to the streams connected on it. Whatever happens to the socket, a stream only sees calls, and
packets out of datagrams that arrived and name its own id; so what calls and such packets keep of a stream is kept by
every step of the socket, of all its streams at once. -/

namespace AsyncUdx

variable {N : Nat} {P : Nat → UdxStream → Prop}

/-- A registry whose entries belong to streams of the registered id, at least so many streams, and a property of
each. -/
structure Attends (N : Nat) (P : Nat → UdxStream → Prop) (streams : SeqMap StreamHandle) (tasks : List UdxStream) :
    Prop where
  length_le : N ≤ tasks.length
  owner : ∀ localId handle, streams.lookup localId = some handle →
    ∃ u, tasks[handle.recvTx]? = some u ∧ u.inner.localId = localId
  all : ∀ n u, tasks[n]? = some u → P n u

namespace Attends

variable {streams : SeqMap StreamHandle} {tasks : List UdxStream} (h : Attends N P streams tasks)

include h

/-- Something that keeps the id of a stream and its property happens to one of the streams. -/
theorem modify (n : Nat) {f : UdxStream → UdxStream} (hid : ∀ u, (f u).inner.localId = u.inner.localId)
    (hf : ∀ u, tasks[n]? = some u → P n (f u)) : Attends N P streams (tasks.modify n f) where
  length_le := by
    rw [List.length_modify]
    exact h.length_le
  owner := by
    intro localId handle hlookup
    obtain ⟨u, hu, hlocal⟩ := h.owner localId handle hlookup
    refine ⟨if n = handle.recvTx then f u else u, ?_, ?_⟩
    · rw [List.getElem?_modify, hu]
      rfl
    · split
      · exact (hid u).trans hlocal
      · exact hlocal
  all := by
    intro m u hu
    rw [List.getElem?_modify] at hu
    obtain ⟨before, hbefore, rfl⟩ := Option.map_eq_some_iff.mp hu
    split
    · rename_i heq
      subst heq
      exact hf before hbefore
    · exact h.all m before hbefore

/-- Something that keeps the id and the property of a stream happens to all streams. -/
theorem map {f : UdxStream → UdxStream} (hid : ∀ u, (f u).inner.localId = u.inner.localId)
    (hf : ∀ n u, P n u → P n (f u)) : Attends N P streams (tasks.map f) where
  length_le := by
    rw [List.length_map]
    exact h.length_le
  owner := by
    intro localId handle hlookup
    obtain ⟨u, hu, hlocal⟩ := h.owner localId handle hlookup
    exact ⟨f u, by rw [List.getElem?_map, hu]; rfl, (hid u).trans hlocal⟩
  all := by
    intro m u hu
    rw [List.getElem?_map] at hu
    obtain ⟨before, hbefore, rfl⟩ := Option.map_eq_some_iff.mp hu
    exact hf m before (h.all m before hbefore)

theorem erase (localId : UInt32) : Attends N P (streams.erase localId) tasks where
  length_le := h.length_le
  owner := fun id handle hlookup => h.owner id handle (AList.lookup_erase_eq_some hlookup).2
  all := h.all

theorem connect {u : UdxStream} (hu : P tasks.length u) :
    Attends N P (streams.insert u.inner.localId ⟨tasks.length⟩) (tasks ++ [u]) where
  length_le := by
    rw [List.length_append]
    exact h.length_le.trans (Nat.le_add_right _ _)
  owner := by
    intro localId handle hlookup
    rcases AList.lookup_insert_eq_some hlookup with ⟨rfl, rfl⟩ | ⟨-, hold⟩
    · exact ⟨u, List.getElem?_concat_length, rfl⟩
    · obtain ⟨other, hother, hlocal⟩ := h.owner localId handle hold
      exact ⟨other, List.getElem?_append_left (List.getElem?_eq_some_iff.mp hother).1 ▸ hother, hlocal⟩
  all := by
    intro n other hother
    rcases Nat.lt_trichotomy n tasks.length with hlt | rfl | hgt
    · rw [List.getElem?_append_left hlt] at hother
      exact h.all n other hother
    · rw [List.getElem?_concat_length] at hother
      cases hother
      exact hu
    · rw [List.getElem?_eq_none (by rw [List.length_append]; exact hgt)] at hother
      cases hother

end Attends

namespace UdxSocket

/-- A property of every stream of a socket. -/
def Attends (h : UdxSocket) (N : Nat) (P : Nat → UdxStream → Prop) : Prop :=
  AsyncUdx.Attends N P h.inner.streams h.tasks

/-- What the calls that the socket makes on a stream keep. -/
def KeptBySocket (P : Nat → UdxStream → Prop) : Prop := ∀ n u c, c.isOwn = false → P n u → P n (u.call c)

/-- What a stream keeps when a datagram that names its id reaches it. -/
def KeptByArrival (P : Nat → UdxStream → Prop) (arrival : Arrival) : Prop :=
  ∀ n u, P n u → WellFormed arrival.data → (headerAt arrival.data).streamId = u.inner.localId →
    P n (u.step (.recv (headerAt arrival.data) (arrival.data.drop udxHeaderSize) arrival.source))

variable {h : UdxSocket}

theorem Attends.call (hs : h.Attends N P) {n : Nat} {c : Call} (hcall : ∀ u, P n u → P n (u.call c)) :
    (h.modify n fun u => u.call c).Attends N P :=
  AsyncUdx.Attends.modify hs n (fun u => u.step_localId (.call c)) fun u hu => hcall u (hs.all n u hu)

theorem Attends.callAll (hs : h.Attends N P) {c : Call} (hcall : ∀ n u, P n u → P n (u.call c)) :
    AsyncUdx.Attends N P h.inner.streams (h.tasks.map fun u => u.call c) :=
  AsyncUdx.Attends.map hs (fun u => u.step_localId (.call c)) hcall

theorem Attends.dropHandle (hs : h.Attends N P) (hcall : KeptBySocket P) (handle : Option StreamHandle) :
    AsyncUdx.Attends N P h.inner.streams (h.dropHandle handle).tasks := by
  cases handle with
  | none => exact hs
  | some handle => exact hs.call fun u => hcall _ u _ rfl

theorem Attends.remove (hs : h.Attends N P) (hcall : KeptBySocket P) (localId : UInt32) :
    (h.remove localId).Attends N P :=
  (hs.dropHandle hcall (h.inner.streams.lookup localId)).erase localId

/-! ### Receiving -/

theorem addressee_eq_some {data : List UInt8} {handle : StreamHandle} (haddressee : h.addressee data = some handle) :
    WellFormed data ∧ h.inner.streams.lookup (headerAt data).streamId = some handle := by
  unfold addressee at haddressee
  split at haddressee
  · exact ⟨‹_›, haddressee⟩
  · cases haddressee

theorem Attends.receive (hs : h.Attends N P) (hcall : KeptBySocket P) {arrival : Arrival}
    (harrival : KeptByArrival P arrival) : (h.receive arrival).Attends N P := by
  rw [receive_eq]
  unfold route
  cases haddressee : h.addressee arrival.data with
  | none =>
      dsimp only
      split_ifs
      · dsimp only [onRecvDgram]
        split <;> exact hs
      · exact hs
  | some handle =>
      obtain ⟨hformed, hlookup⟩ := addressee_eq_some haddressee
      dsimp only
      split_ifs
      · refine AsyncUdx.Attends.modify hs handle.recvTx (fun u => u.step_localId _) fun u hu => ?_
        obtain ⟨owner, howner, hlocal⟩ := hs.owner _ handle hlookup
        obtain rfl : owner = u := Option.some.inj (howner.symm.trans hu)
        exact harrival _ _ (hs.all _ _ hu) hformed hlocal.symm
      · exact Attends.remove (h := h.countRx arrival.data) hs hcall _

theorem Attends.receives (hs : h.Attends N P) (hcall : KeptBySocket P) {batch : List Arrival}
    (harrivals : ∀ arrival ∈ batch, KeptByArrival P arrival) : (batch.foldl UdxSocket.receive h).Attends N P :=
  List.foldlRecOn (motive := fun t : UdxSocket => t.Attends N P) batch _ hs
    fun _ ht arrival harrival => ht.receive hcall (harrivals arrival harrival)

theorem Attends.pollRecv (hs : h.Attends N P) (hcall : KeptBySocket P) (cx : SocketContext)
    (harrivals : ∀ arrival ∈ arrivals (maxLoop - 1) cx.received, KeptByArrival P arrival) :
    (h.pollRecv cx).1.Attends N P := by
  unfold UdxSocket.pollRecv
  rw [recvLoop_eq]
  exact hs.receives hcall harrivals

/-! ### Sending and the other events -/

theorem Attends.handleEvent (hs : h.Attends N P) (hcall : KeptBySocket P) (sent : Sent) :
    (h.handleEvent sent).Attends N P := by
  unfold UdxSocket.handleEvent
  split
  · exact hs.remove hcall _
  · exact hs
  · exact hs

theorem Attends.takeEvents (hs : h.Attends N P) (hcall : KeptBySocket P) (budget : Nat) :
    (h.takeEvents budget).1.Attends N P :=
  takeEvents_invariant (fun t => t.Attends N P)
    (fun t sent rest _ ht =>
      Attends.handleEvent (h := { t with inner := { t.inner with sendRx := rest } }) ht hcall sent)
    budget hs

theorem Attends.pollTransmit (hs : h.Attends N P) (hcall : KeptBySocket P) (cx : SocketContext) :
    (h.pollTransmit cx).1.Attends N P :=
  pollTransmit_invariant (fun t => t.Attends N P)
    (fun t sent rest _ ht =>
      Attends.handleEvent (h := { t with inner := { t.inner with sendRx := rest } }) ht hcall sent)
    (fun _ _ _ _ _ ht => ht) (fun _ n _ _ ht => ht.call fun u => hcall n u _ rfl) cx hs

theorem Attends.poll (hs : h.Attends N P) (hcall : KeptBySocket P) (cx : SocketContext)
    (harrivals : ∀ arrival ∈ arrivals (maxLoop - 1) cx.received, KeptByArrival P arrival) :
    (h.poll cx).Attends N P :=
  poll_invariant_of_pollRecv (fun t => t.Attends N P) (fun _ _ _ _ _ ht => ht)
    (fun _ ht => ht.callAll fun n u => hcall n u _ rfl) (fun _ _ ht => ht)
    (fun _ cx ht => ht.pollTransmit hcall cx) cx (hs.pollRecv hcall cx harrivals)

theorem Attends.connect (hs : h.Attends N P) (hcall : KeptBySocket P) (dest : SocketAddr) (localId remoteId : UInt32)
    (hnew : P h.tasks.length (.connect h.clock dest remoteId localId)) :
    (h.connect dest localId remoteId).Attends N P := by
  have hlength : (h.dropHandle (h.inner.streams.lookup localId)).tasks.length = h.tasks.length := by
    unfold UdxSocket.dropHandle
    split
    · rfl
    · exact List.length_modify _ _ _
  have hdropped := hs.dropHandle hcall (h.inner.streams.lookup localId)
  rw [← hlength] at hnew
  have hadded := AsyncUdx.Attends.connect hdropped hnew
  rw [hlength] at hadded
  exact hadded

/-- **What a step of a socket keeps of its streams.** A property of streams that calls and arriving datagrams keep, and
that a newly connected stream has, is kept by every step. -/
theorem Attends.step (hs : h.Attends N P) (hcall : KeptBySocket P) (e : SocketEvent)
    (hown : ∀ n c, e = .stream n c → ∀ u, P n u → P n (u.call c))
    (harrivals : ∀ arrival ∈ h.arrived e, KeptByArrival P arrival)
    (hnew : ∀ dest localId remoteId, e = .connect dest localId remoteId → h.handles ≠ 0 →
      P h.tasks.length (.connect h.clock dest remoteId localId)) : (h.step e).Attends N P := by
  cases e with
  | connect dest localId remoteId =>
      rw [UdxSocket.step]
      split
      · exact hs
      · rename_i hhandles
        exact hs.connect hcall dest localId remoteId (hnew dest localId remoteId rfl hhandles)
  | stream n c =>
      rw [UdxSocket.step, callStream]
      split
      · split
        · exact hs
        · rename_i u hu
          have hset : h.tasks.set n (u.call c) = h.tasks.modify n fun u => u.call c := by
            rw [List.modify_eq_set_getElem?, hu]
            rfl
          change AsyncUdx.Attends N P h.inner.streams (h.tasks.set n (u.call c))
          rw [hset]
          exact hs.call (hown n c rfl)
      · exact hs
  | send dest buf =>
      rw [UdxSocket.step]
      split <;> exact hs
  | recv waker =>
      rw [UdxSocket.step, UdxSocket.recv]
      split
      · exact hs
      · split <;> exact hs
  | clone =>
      rw [UdxSocket.step]
      split <;> exact hs
  | drop =>
      rw [UdxSocket.step]
      split
      · exact hs
      · have hdropped : ({ h.onDrop with handles := h.handles - 1 } : UdxSocket).Attends N P := by
          unfold onDrop
          split <;> exact hs
        unfold release
        split
        · exact hdropped.callAll fun n u => hcall n u _ rfl
        · exact hdropped
  | poll cx =>
      rw [UdxSocket.step]
      split
      · rename_i hrunning
        refine hs.poll hcall cx fun arrival harrival => harrivals arrival ?_
        rw [arrived, if_pos hrunning]
        exact harrival
      · exact hs
  | tick elapsed => exact hs.callAll fun n u => hcall n u _ rfl

/-- What is known of the registry and something that holds of every stream. -/
theorem Attends.of_all {Q : Nat → UdxStream → Prop} (hs : h.Attends N P) (hall : ∀ n u, h.tasks[n]? = some u → Q n u) :
    h.Attends h.tasks.length Q := ⟨Nat.le_refl _, hs.owner, hall⟩

theorem bind_attends (now batchSize : Nat) : (UdxSocket.bind now batchSize).Attends 0 P where
  length_le := Nat.zero_le _
  owner := by
    intro localId handle hlookup
    cases hlookup
  all := by
    intro n u hu
    cases hu

end UdxSocket

end AsyncUdx
