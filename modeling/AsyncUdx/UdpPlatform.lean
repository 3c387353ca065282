import Mathlib.Data.List.Flatten
import AsyncUdx.BaseQueue
import AsyncUdx.UdpLayer

/-! What the socket driver relies on in the UDP layer. A `Platform` is one of its implementations together with the
contract: how many transmits an answer is about, which of them the kernel has, which errors can come out, and what
happens to the shared number of segments and to the log. -/

namespace AsyncUdx

namespace Udp

/-! ### What the driver relies on -/

/-- A warning is logged at most once, and only when the last one is long enough ago. -/
def LogStep (now : Nat) (udp udp' : UdpSocket) : Prop :=
  (udp'.lastSendError = udp.lastSendError ∧ udp'.logged = udp.logged) ∨
    (ioErrorLogInterval < (now - udp.lastSendError).toNat ∧ udp'.lastSendError = now ∧
      udp'.logged = now :: udp.logged)

/-- The number of segments stays or becomes one, and an `EIO` that is new leaves no offload. -/
def GsoStep (udp udp' : UdpSocket) : Prop :=
  (udp'.maxGsoSegments = udp.maxGsoSegments ∨ udp'.maxGsoSegments = 1) ∧
    (udp'.eio = udp.eio ∨ udp'.maxGsoSegments ≤ 1)

/-- What an answer of `poll_send` means. -/
structure Answers (now : Nat) (transmits : List Transmit) (reactor : List IoError) (udp : UdpSocket)
    (answer : Answer) : Prop where
  /-- The transmits that are done with are the first ones; the kernel has taken some of them and has refused the
  others. -/
  sent : ∀ n, answer.result = .ready (.ok n) →
    n ≤ transmits.length ∧ Queue.Merges answer.taken answer.refused (transmits.take n)
  /-- Otherwise it has done neither to any. -/
  blocked : (∀ n, answer.result ≠ .ready (.ok n)) → answer.taken = [] ∧ answer.refused = []
  /-- Only the reactor fails. -/
  failed : ∀ err, answer.result = .ready (.error err) → err ∈ reactor
  gso : GsoStep udp answer.udp
  logged : LogStep now udp answer.udp

end Udp

open Udp

/-- An implementation of the UDP socket: its scripts, its two functions and what they guarantee. -/
structure Platform where
  SendScript : Type
  RecvScript : Type
  batchSize : Nat
  pollSend : Nat → List Transmit → SendScript → UdpSocket → Option Answer
  pollRecv : RecvScript → Option (List (Except IoError (List Arrival)))
  /-- The errors of the reactor in a script. -/
  reactor : SendScript → List IoError
  /-- No message is refused in a script. -/
  accepting : SendScript → Prop
  /-- The datagrams the kernel has in a script. -/
  datagrams : RecvScript → List Arrival
  /-- The errors of the kernel and of the reactor in a script. -/
  failures : RecvScript → List IoError
  batchSize_pos : 0 < batchSize
  answers : ∀ now transmits script udp answer, pollSend now transmits script udp = some answer →
    Answers now transmits (reactor script) udp answer
  truncates : ∀ script results arrivals, pollRecv script = some results → .ok arrivals ∈ results →
    ∀ arrival ∈ arrivals, ∃ raw ∈ datagrams script, arrival = raw.truncated
  takes : ∀ now transmits script udp answer n, accepting script → pollSend now transmits script udp = some answer →
    answer.result = .ready (.ok n) → answer.taken = transmits.take n
  fails : ∀ script results err, pollRecv script = some results → .error err ∈ results → err ∈ failures script

/-! ### The log -/

theorem Udp.LogStep.refl (now : Nat) (udp : UdpSocket) : LogStep now udp udp := Or.inl ⟨rfl, rfl⟩

theorem Udp.LogStep.trans {now : Nat} {udp udp' udp'' : UdpSocket} (h : LogStep now udp udp')
    (h' : LogStep now udp' udp'') : LogStep now udp udp'' := by
  rcases h with ⟨hlast, hlogged⟩ | ⟨hlong, hlast, hlogged⟩
  · unfold LogStep at h' ⊢
    rwa [hlast, hlogged] at h'
  · rcases h' with ⟨hlast', hlogged'⟩ | ⟨hlong', -, -⟩
    · exact Or.inr ⟨hlong, hlast'.trans hlast, hlogged'.trans hlogged⟩
    · rw [hlast, Int.sub_self] at hlong'
      exact absurd hlong' (Nat.not_lt_zero _)

theorem Udp.GsoStep.refl (udp : UdpSocket) : GsoStep udp udp := ⟨Or.inl rfl, Or.inl rfl⟩

theorem Udp.GsoStep.trans {udp udp' udp'' : UdpSocket} (h : GsoStep udp udp') (h' : GsoStep udp' udp'') :
    GsoStep udp udp'' := by
  obtain ⟨hmax, heio⟩ := h
  obtain ⟨hmax', heio'⟩ := h'
  constructor
  · rcases hmax' with hsame | hone
    · rwa [hsame]
    · exact Or.inr hone
  · rcases heio' with hsame | hnone
    · rcases heio with hsame' | hnone
      · exact Or.inl (hsame.trans hsame')
      · rcases hmax' with hmax' | hone
        · exact Or.inr (hmax'.le.trans hnone)
        · exact Or.inr hone.le
    · exact Or.inr hnone

namespace UdpSocket

theorem logSendmsgError_logStep (udp : UdpSocket) (now : Nat) : LogStep now udp (udp.logSendmsgError now) := by
  unfold logSendmsgError
  split
  · exact Or.inr ⟨‹_›, rfl, rfl⟩
  · exact .refl now udp

theorem logSendmsgError_gsoStep (udp : UdpSocket) (now : Nat) : GsoStep udp (udp.logSendmsgError now) := by
  unfold logSendmsgError
  split <;> exact ⟨Or.inl rfl, Or.inl rfl⟩

theorem haltSegmentation_logStep (udp : UdpSocket) (now : Nat) : LogStep now udp udp.haltSegmentation := by
  unfold haltSegmentation
  split <;> exact Or.inl ⟨rfl, rfl⟩

theorem haltSegmentation_gsoStep (udp : UdpSocket) : GsoStep udp udp.haltSegmentation := by
  unfold haltSegmentation
  split
  · exact ⟨Or.inr rfl, Or.inr (Nat.le_refl 1)⟩
  · rename_i hle
    exact ⟨Or.inl rfl, Or.inr (Nat.le_of_not_lt hle)⟩

end UdpSocket

/-! ### The implementations keep the contract -/

namespace Udp

/-- What `send` may return: the only error is that it would block. -/
structure Sends (now : Nat) (transmits : List Transmit) (udp : UdpSocket) (sending : Sending) : Prop where
  sent : ∀ n, sending.result = .ok n →
    n ≤ transmits.length ∧ Queue.Merges sending.taken sending.refused (transmits.take n)
  failed : ∀ failure, sending.result = .error failure →
    failure = .wouldBlock ∧ sending.taken = [] ∧ sending.refused = []
  gso : GsoStep udp sending.udp
  logged : LogStep now udp sending.udp

variable {now : Nat} {transmits : List Transmit}

theorem Sends.blocked (udp : UdpSocket) : Sends now transmits udp ⟨udp, .error .wouldBlock, [], []⟩ where
  sent := by
    intro n h
    cases h
  failed := by
    intro failure h
    cases h
    exact ⟨rfl, rfl, rfl⟩
  gso := .refl udp
  logged := .refl now udp

theorem halted_logStep (udp : UdpSocket) (errno : Errno) (now : Nat) :
    LogStep now udp (if errno = .eio then udp.haltSegmentation else udp) := by
  split
  · exact udp.haltSegmentation_logStep now
  · exact .refl now udp

theorem halted_gsoStep (udp : UdpSocket) (errno : Errno) :
    GsoStep udp (if errno = .eio then udp.haltSegmentation else udp) := by
  split
  · exact udp.haltSegmentation_gsoStep
  · exact .refl udp

theorem Sends.done {udp udp' : UdpSocket} {n : Nat} {taken refused : List Transmit} (hn : n ≤ transmits.length)
    (htaken : Queue.Merges taken refused (transmits.take n)) (hlog : LogStep now udp udp')
    (hgso : GsoStep udp udp') : Sends now transmits udp ⟨udp', .ok n, taken, refused⟩ where
  sent := by
    intro m h
    cases h
    exact ⟨hn, htaken⟩
  failed := by
    intro failure h
    cases h
  gso := hgso
  logged := hlog

theorem sendBatch_sends {batchSize : Nat} {replies : List (Except Errno Nat)} {udp : UdpSocket} {sending : Sending}
    (h : sendBatch now batchSize transmits replies udp = some sending) : Sends now transmits udp sending := by
  induction replies with
  | nil => cases h
  | cons reply replies ih =>
      cases reply with
      | ok n =>
          cases h
          exact .done ((Nat.min_le_right _ _).trans (Nat.min_le_left _ _)) (.keepAll _) (.refl now udp) (.refl udp)
      | error errno =>
          unfold sendBatch at h
          dsimp only at h
          split at h
          · exact ih h
          · cases h
            exact .blocked udp
          · cases h
            exact .blocked udp
          · cases h
            have hfirst : min (min transmits.length batchSize) 1 ≤ transmits.length :=
              (Nat.min_le_left _ _).trans (Nat.min_le_left _ _)
            apply Sends.done hfirst (.leaveAll _)
            · exact (halted_logStep udp errno now).trans (UdpSocket.logSendmsgError_logStep _ now)
            · exact (halted_gsoStep udp errno).trans (UdpSocket.logSendmsgError_gsoStep _ now)

/-- The loop over the messages: those before `sent` are done with, each taken or refused. -/
theorem sendEach_sends {replies : List (Except Errno Unit)} {sent : Nat} {taken refused : List Transmit}
    {udp udp' : UdpSocket} {sending : Sending} (hsent : sent ≤ transmits.length)
    (htaken : Queue.Merges taken refused (transmits.take sent)) (hlog : LogStep now udp udp')
    (hgso : GsoStep udp udp') (h : sendEach now transmits replies sent taken refused udp' = some sending) :
    Sends now transmits udp sending := by
  induction replies generalizing sent taken refused udp' with
  | nil =>
      unfold sendEach at h
      split at h
      · cases h
        exact .done hsent htaken hlog hgso
      · cases h
  | cons reply replies ih =>
      unfold sendEach at h
      split at h
      · cases h
        exact .done hsent htaken hlog hgso
      · rename_i transmit htransmit
        obtain ⟨hlt, -⟩ := List.getElem?_eq_some_iff.mp htransmit
        have hnext : transmits.take (sent + 1) = transmits.take sent ++ [transmit] := by
          rw [List.take_add_one, htransmit]
          rfl
        split at h
        · refine ih hlt ?_ hlog hgso h
          rw [hnext]
          exact htaken.keepLast transmit
        · split at h
          · exact ih hsent htaken hlog hgso h
          · split at h
            · cases h
              exact .done hsent htaken hlog hgso
            · rename_i hnone
              cases h
              rw [not_not.mp hnone, List.take_zero] at htaken
              refine ⟨?_, ?_, hgso, hlog⟩
              · intro n hn
                cases hn
              · intro failure hfailure
                cases hfailure
                exact ⟨rfl, htaken.eq_nil⟩
          all_goals
            refine ih hlt ?_ (hlog.trans (UdpSocket.logSendmsgError_logStep _ now))
              (hgso.trans (UdpSocket.logSendmsgError_gsoStep _ now)) h
            rw [hnext]
            exact htaken.leaveLast transmit

/-- Asking again after it would block keeps the contract. -/
theorem pollSend_answers {ρ : Type} {send : List ρ → UdpSocket → Option Sending}
    (hsend : ∀ replies udp sending, send replies udp = some sending → Sends now transmits udp sending)
    {script : List (Readiness ρ)} {udp : UdpSocket} {answer : Answer} (h : pollSend send script udp = some answer) :
    Answers now transmits (script.filterMap Readiness.error?) udp answer := by
  induction script generalizing udp with
  | nil =>
      cases h
      refine ⟨?_, fun _ => ⟨rfl, rfl⟩, ?_, .refl udp, .refl now udp⟩
      · intro n hn
        cases hn
      · intro err herr
        cases herr
  | cons readiness rest ih =>
      cases readiness with
      | failed err =>
          cases h
          refine ⟨?_, fun _ => ⟨rfl, rfl⟩, ?_, .refl udp, .refl now udp⟩
          · intro n hn
            cases hn
          · intro err' herr
            cases herr
            exact List.mem_cons_self
      | ready replies =>
          unfold pollSend at h
          split at h
          · cases h
          · rename_i sending hsending
            have hsends := hsend replies udp sending hsending
            split at h
            · rename_i hblocked
              have hrest := ih h
              exact ⟨hrest.sent, hrest.blocked, hrest.failed, hsends.gso.trans hrest.gso,
                hsends.logged.trans hrest.logged⟩
            · rename_i err herr
              exact absurd (hsends.failed _ herr).1 (by rintro ⟨⟩)
            · rename_i n hn
              cases h
              refine ⟨?_, ?_, ?_, hsends.gso, hsends.logged⟩
              · intro m hm
                cases hm
                exact hsends.sent n hn
              · intro hne
                exact absurd rfl (hne n)
              · intro err herr
                cases herr

theorem Answers.done {udp udp' : UdpSocket} {n : Nat} {taken refused : List Transmit} (hn : n ≤ transmits.length)
    (htaken : Queue.Merges taken refused (transmits.take n)) (hlog : LogStep now udp udp')
    (hgso : GsoStep udp udp') : Answers now transmits [] udp ⟨udp', .ready (.ok n), taken, refused⟩ where
  sent := by
    intro m h
    cases h
    exact ⟨hn, htaken⟩
  blocked := fun hne => absurd rfl (hne n)
  failed := by
    intro err h
    cases h
  gso := hgso
  logged := hlog

theorem pollSendTo_answers {rest : List Transmit} {replies : List (Poll (Except Errno Unit))} {sent : Nat}
    {taken refused : List Transmit} {udp udp' : UdpSocket} (hrest : transmits.drop sent = rest)
    (hsent : sent ≤ transmits.length) (htaken : Queue.Merges taken refused (transmits.take sent))
    (hlog : LogStep now udp udp') (hgso : GsoStep udp udp') :
    Answers now transmits [] udp (pollSendTo now rest replies sent taken refused udp') := by
  induction rest generalizing replies sent taken refused udp' with
  | nil => exact .done hsent htaken hlog hgso
  | cons transmit rest ih =>
      have hget : transmits[sent]? = some transmit := by
        rw [← List.head?_drop, hrest]
        rfl
      obtain ⟨hlt, -⟩ := List.getElem?_eq_some_iff.mp hget
      have hnext : transmits.take (sent + 1) = transmits.take sent ++ [transmit] := by
        rw [List.take_add_one, hget]
        rfl
      have hrest' : transmits.drop (sent + 1) = rest := by
        rw [← List.tail_drop, hrest]
        rfl
      unfold pollSendTo
      split
      · refine ih hrest' hlt ?_ hlog hgso
        rw [hnext]
        exact htaken.keepLast transmit
      · split
        · exact .done hsent htaken hlog hgso
        · refine ih hrest' hlt ?_ (hlog.trans (UdpSocket.logSendmsgError_logStep _ now))
            (hgso.trans (UdpSocket.logSendmsgError_gsoStep _ now))
          rw [hnext]
          exact htaken.leaveLast transmit
      · split
        · exact .done hsent htaken hlog hgso
        · rename_i hnone
          refine ⟨?_, fun _ => ?_, ?_, hgso, hlog⟩
          · intro n hn
            cases hn
          · rw [not_not.mp hnone, List.take_zero] at htaken
            exact htaken.eq_nil
          · intro err herr
            cases herr

/-! ### What is taken when nothing is refused -/

/-- The replies of the kernel while the socket is ready. -/
def Readiness.replies {ρ : Type} : Readiness ρ → List ρ
  | .failed _ => []
  | .ready replies => replies

theorem sendBatch_takes {batchSize : Nat} {replies : List (Except Errno Nat)} {udp : UdpSocket} {sending : Sending}
    (hreplies : ∀ errno, .error errno ∈ replies → errno.kind ≠ .other)
    (h : sendBatch now batchSize transmits replies udp = some sending) {n : Nat} (hn : sending.result = .ok n) :
    sending.taken = transmits.take n := by
  induction replies with
  | nil => cases h
  | cons reply replies ih =>
      cases reply with
      | ok m =>
          cases h
          cases hn
          rfl
      | error errno =>
          have hkind : errno.kind ≠ .other := hreplies errno List.mem_cons_self
          unfold sendBatch at h
          dsimp only at h
          split at h
          · exact ih (fun errno herrno => hreplies errno (List.mem_cons_of_mem _ herrno)) h
          · cases h
            cases hn
          · cases h
            cases hn
          · exact absurd ‹_› hkind

theorem sendEach_takes {replies : List (Except Errno Unit)} {sent : Nat} {taken refused : List Transmit}
    {udp : UdpSocket} {sending : Sending}
    (hreplies : ∀ errno, .error errno ∈ replies → errno.kind = .interrupted ∨ errno.kind = .wouldBlock)
    (htaken : taken = transmits.take sent)
    (h : sendEach now transmits replies sent taken refused udp = some sending) {n : Nat}
    (hn : sending.result = .ok n) : sending.taken = transmits.take n := by
  induction replies generalizing sent taken udp with
  | nil =>
      unfold sendEach at h
      split at h
      · cases h
        cases hn
        exact htaken
      · cases h
  | cons reply replies ih =>
      have hrest : ∀ errno, .error errno ∈ replies → errno.kind = .interrupted ∨ errno.kind = .wouldBlock :=
        fun errno herrno => hreplies errno (List.mem_cons_of_mem _ herrno)
      unfold sendEach at h
      split at h
      · cases h
        cases hn
        exact htaken
      · rename_i transmit htransmit
        split at h
        · refine ih hrest ?_ h
          rw [List.take_add_one, htransmit, htaken]
          rfl
        · rename_i errno
          have hkind := hreplies errno List.mem_cons_self
          split at h
          · exact ih hrest htaken h
          · split at h
            · cases h
              cases hn
              exact htaken
            · cases h
              cases hn
          all_goals
            rename_i hother
            rw [hother] at hkind
            rcases hkind with hkind | hkind <;> cases hkind

theorem pollSend_takes {ρ : Type} {send : List ρ → UdpSocket → Option Sending} {script : List (Readiness ρ)}
    (hsend : ∀ readiness ∈ script, ∀ udp sending n, send readiness.replies udp = some sending →
      sending.result = .ok n → sending.taken = transmits.take n)
    {udp : UdpSocket} {answer : Answer} (h : pollSend send script udp = some answer) {n : Nat}
    (hn : answer.result = .ready (.ok n)) : answer.taken = transmits.take n := by
  induction script generalizing udp with
  | nil =>
      cases h
      cases hn
  | cons readiness rest ih =>
      cases readiness with
      | failed err =>
          cases h
          cases hn
      | ready replies =>
          unfold pollSend at h
          split at h
          · cases h
          · rename_i sending hsending
            split at h
            · exact ih (fun readiness hreadiness => hsend readiness (List.mem_cons_of_mem _ hreadiness)) h
            · cases h
              cases hn
            · rename_i m hm
              cases h
              cases hn
              exact hsend _ List.mem_cons_self udp sending _ hsending hm

theorem pollSendTo_takes {rest : List Transmit} {replies : List (Poll (Except Errno Unit))} {sent : Nat}
    {taken refused : List Transmit} {udp : UdpSocket} (hreplies : ∀ errno, .ready (.error errno) ∉ replies)
    (hrest : transmits.drop sent = rest) (htaken : taken = transmits.take sent) {n : Nat}
    (hn : (pollSendTo now rest replies sent taken refused udp).result = .ready (.ok n)) :
    (pollSendTo now rest replies sent taken refused udp).taken = transmits.take n := by
  induction rest generalizing replies sent taken udp with
  | nil =>
      cases hn
      exact htaken
  | cons transmit rest ih =>
      have hget : transmits[sent]? = some transmit := by
        rw [← List.head?_drop, hrest]
        rfl
      have hnext : taken ++ [transmit] = transmits.take (sent + 1) := by
        rw [List.take_add_one, hget, htaken]
        rfl
      have hrest' : transmits.drop (sent + 1) = rest := by
        rw [← List.tail_drop, hrest]
        rfl
      unfold pollSendTo at hn ⊢
      cases replies with
      | nil =>
          dsimp only [List.headD] at hn ⊢
          split at hn
          · rw [if_pos ‹_›]
            cases hn
            exact htaken
          · cases hn
      | cons reply replies =>
          have hlater : ∀ errno, .ready (.error errno) ∉ replies :=
            fun errno herrno => hreplies errno (List.mem_cons_of_mem _ herrno)
          dsimp only [List.headD, List.tail] at hn ⊢
          match reply with
          | .ready (.ok ()) => exact ih hlater hrest' hnext hn
          | .ready (.error errno) => exact absurd List.mem_cons_self (hreplies errno)
          | .pending =>
              dsimp only at hn ⊢
              split at hn
              · rw [if_pos ‹_›]
                cases hn
                exact htaken
              · cases hn

/-! ### What is received -/

/-- The datagrams a reply of the kernel carries, if any. -/
def Readiness.datagrams {ρ : Type} (carried : ρ → List Arrival) : Readiness ρ → List Arrival
  | .failed _ => []
  | .ready replies => replies.flatMap carried

/-- What a reply of the kernel carries. -/
def carried {α : Type} (list : α → List Arrival) : Except RecvErrno α → List Arrival
  | .error _ => []
  | .ok value => list value

theorem recvBatch_truncates {batchSize : Nat} {replies : List (Except RecvErrno (List Arrival))}
    {arrivals : List Arrival} (h : recvBatch batchSize replies = some (.ok arrivals)) :
    ∀ arrival ∈ arrivals, ∃ raw ∈ replies.flatMap (carried id), arrival = raw.truncated := by
  induction replies with
  | nil => cases h
  | cons reply replies ih =>
      intro arrival harrival
      cases reply with
      | error errno =>
          cases errno with
          | eintr => exact ih h arrival harrival
          | eagain => cases h
          | other err => cases h
      | ok batch =>
          cases h
          obtain ⟨raw, hraw, rfl⟩ := List.mem_map.mp harrival
          exact ⟨raw, List.mem_append_left _ (List.mem_of_mem_take hraw), rfl⟩

theorem recvEach_truncates {replies : List (Except RecvErrno Arrival)} {arrivals : List Arrival}
    (h : recvEach replies = some (.ok arrivals)) :
    ∀ arrival ∈ arrivals, ∃ raw ∈ replies.flatMap (carried fun arrival => [arrival]), arrival = raw.truncated := by
  induction replies with
  | nil => cases h
  | cons reply replies ih =>
      intro arrival harrival
      cases reply with
      | error errno =>
          cases errno with
          | eintr => exact ih h arrival harrival
          | eagain => cases h
          | other err => cases h
      | ok raw =>
          unfold recvEach at h
          split at h
          · obtain ⟨raw', hraw, heq⟩ := ih h arrival harrival
            exact ⟨raw', List.mem_append_right _ hraw, heq⟩
          · cases h
            exact ⟨raw, List.mem_append_left _ List.mem_cons_self, List.mem_singleton.mp harrival⟩

theorem pollRecv_truncates {ρ : Type} {recv : List ρ → Option (Except IoFailure (List Arrival))}
    {carried : ρ → List Arrival} (hrecv : ∀ replies arrivals, recv replies = some (.ok arrivals) →
      ∀ arrival ∈ arrivals, ∃ raw ∈ replies.flatMap carried, arrival = raw.truncated)
    {script rest : List (Readiness ρ)} {result : Poll (Except IoError (List Arrival))}
    (h : pollRecv recv script = some (result, rest)) :
    rest <:+ script ∧ ∀ arrivals, result = .ready (.ok arrivals) → ∀ arrival ∈ arrivals,
      ∃ raw ∈ script.flatMap (Readiness.datagrams carried), arrival = raw.truncated := by
  induction script with
  | nil =>
      cases h
      exact ⟨List.suffix_refl _, fun arrivals hok => by cases hok⟩
  | cons readiness script ih =>
      cases readiness with
      | failed err =>
          cases h
          exact ⟨List.suffix_cons _ _, fun arrivals hok => by cases hok⟩
      | ready replies =>
          unfold pollRecv at h
          split at h
          · cases h
          · obtain ⟨hsuffix, hraw⟩ := ih h
            refine ⟨hsuffix.trans (List.suffix_cons _ _), fun arrivals hok arrival harrival => ?_⟩
            obtain ⟨raw, hmem, heq⟩ := hraw arrivals hok arrival harrival
            exact ⟨raw, List.mem_append_right _ hmem, heq⟩
          · cases h
            exact ⟨List.suffix_cons _ _, fun arrivals hok => by cases hok⟩
          · rename_i batch hbatch
            cases h
            refine ⟨List.suffix_cons _ _, fun arrivals hok arrival harrival => ?_⟩
            cases hok
            obtain ⟨raw, hmem, heq⟩ := hrecv replies _ hbatch arrival harrival
            exact ⟨raw, List.mem_append_left _ hmem, heq⟩

theorem pollRecvs_truncates {ρ : Type} {recv : List ρ → Option (Except IoFailure (List Arrival))}
    {carried : ρ → List Arrival} (hrecv : ∀ replies arrivals, recv replies = some (.ok arrivals) →
      ∀ arrival ∈ arrivals, ∃ raw ∈ replies.flatMap carried, arrival = raw.truncated)
    {iters : Nat} {script : List (Readiness ρ)} {results : List (Except IoError (List Arrival))}
    {arrivals : List Arrival} (h : pollRecvs recv iters script = some results) (hmem : .ok arrivals ∈ results) :
    ∀ arrival ∈ arrivals, ∃ raw ∈ script.flatMap (Readiness.datagrams carried), arrival = raw.truncated := by
  induction iters generalizing script results with
  | zero =>
      cases h
      cases hmem
  | succ iters ih =>
      unfold pollRecvs at h
      split at h
      · cases h
      · cases h
        cases hmem
      · rename_i result rest hpoll
        obtain ⟨hsuffix, hraw⟩ := pollRecv_truncates hrecv hpoll
        obtain ⟨later, hlater, rfl⟩ := Option.map_eq_some_iff.mp h
        rcases List.mem_cons.mp hmem with rfl | hmem
        · exact hraw arrivals rfl
        · intro arrival harrival
          obtain ⟨raw, hraw, heq⟩ := ih hlater hmem arrival harrival
          exact ⟨raw, (hsuffix.sublist.flatMap _).subset hraw, heq⟩

/-! ### What fails -/

/-- The errors that receiving may end with. -/
def Readiness.failures {ρ : Type} (failure : ρ → Option IoError) : Readiness ρ → List IoError
  | .failed err => [err]
  | .ready replies => replies.filterMap failure

/-- A reply that is an error other than that there is nothing. -/
def failure {α : Type} : Except RecvErrno α → Option IoError
  | .error (.other err) => some err
  | _ => none

theorem recvBatch_fails {batchSize : Nat} {replies : List (Except RecvErrno (List Arrival))} {err : IoError}
    (h : recvBatch batchSize replies = some (.error (.error err))) : err ∈ replies.filterMap failure := by
  induction replies with
  | nil => cases h
  | cons reply replies ih =>
      cases reply with
      | error errno =>
          cases errno with
          | eintr => exact ih h
          | eagain => cases h
          | other err' =>
              cases h
              exact List.mem_cons_self
      | ok batch => cases h

theorem recvEach_fails {replies : List (Except RecvErrno Arrival)} {err : IoError}
    (h : recvEach replies = some (.error (.error err))) : err ∈ replies.filterMap failure := by
  induction replies with
  | nil => cases h
  | cons reply replies ih =>
      cases reply with
      | error errno =>
          cases errno with
          | eintr => exact ih h
          | eagain => cases h
          | other err' =>
              cases h
              exact List.mem_cons_self
      | ok raw =>
          unfold recvEach at h
          split at h
          · exact ih h
          · cases h

theorem pollRecv_fails {ρ : Type} {recv : List ρ → Option (Except IoFailure (List Arrival))}
    {failure : ρ → Option IoError}
    (hrecv : ∀ replies err, recv replies = some (.error (.error err)) → err ∈ replies.filterMap failure)
    {script rest : List (Readiness ρ)} {err : IoError} (h : pollRecv recv script = some (.ready (.error err), rest)) :
    err ∈ script.flatMap (Readiness.failures failure) := by
  induction script with
  | nil => cases h
  | cons readiness script ih =>
      cases readiness with
      | failed err' =>
          cases h
          exact List.mem_cons_self
      | ready replies =>
          unfold pollRecv at h
          split at h
          · cases h
          · exact List.mem_append_right _ (ih h)
          · rename_i err' herr
            cases h
            exact List.mem_append_left _ (hrecv replies _ herr)
          · cases h

theorem pollRecvs_fails {ρ : Type} {recv : List ρ → Option (Except IoFailure (List Arrival))}
    {failure : ρ → Option IoError} {carried : ρ → List Arrival}
    (hrecv : ∀ replies err, recv replies = some (.error (.error err)) → err ∈ replies.filterMap failure)
    (hcarried : ∀ replies arrivals, recv replies = some (.ok arrivals) →
      ∀ arrival ∈ arrivals, ∃ raw ∈ replies.flatMap carried, arrival = raw.truncated)
    {iters : Nat} {script : List (Readiness ρ)} {results : List (Except IoError (List Arrival))} {err : IoError}
    (h : pollRecvs recv iters script = some results) (hmem : .error err ∈ results) :
    err ∈ script.flatMap (Readiness.failures failure) := by
  induction iters generalizing script results with
  | zero =>
      cases h
      cases hmem
  | succ iters ih =>
      unfold pollRecvs at h
      split at h
      · cases h
      · cases h
        cases hmem
      · rename_i result rest hpoll
        have hsuffix := (pollRecv_truncates hcarried hpoll).1
        obtain ⟨later, hlater, rfl⟩ := Option.map_eq_some_iff.mp h
        rcases List.mem_cons.mp hmem with rfl | hmem
        · exact pollRecv_fails hrecv hpoll
        · exact (hsuffix.sublist.flatMap _).subset (ih hlater hmem)

end Udp

/-! ### The platforms -/

namespace Platform

/-- `sendmmsg` and `recvmmsg`. -/
def linux : Platform where
  SendScript := List (Readiness (Except Errno Nat))
  RecvScript := List (Readiness (Except RecvErrno (List Arrival)))
  batchSize := 32
  pollSend := fun now transmits => Udp.pollSend (sendBatch now 32 transmits)
  pollRecv := pollRecvs (recvBatch 32) (maxLoop - 1)
  reactor := fun script => script.filterMap Readiness.error?
  accepting := fun script => ∀ readiness ∈ script, ∀ errno, .error errno ∈ readiness.replies → errno.kind ≠ .other
  datagrams := fun script => script.flatMap (Readiness.datagrams (carried id))
  failures := fun script => script.flatMap (Readiness.failures failure)
  batchSize_pos := by decide
  answers := fun _ _ _ _ _ h => pollSend_answers (fun _ _ _ => sendBatch_sends) h
  truncates := fun _ _ _ h hmem => pollRecvs_truncates (fun _ _ => recvBatch_truncates) h hmem
  takes := fun _ _ _ _ _ _ haccepting h hn => pollSend_takes
    (fun readiness hreadiness _ _ _ h hn => sendBatch_takes (haccepting readiness hreadiness) h hn) h hn
  fails := fun _ _ _ h hmem => pollRecvs_fails (fun _ _ => recvBatch_fails) (fun _ _ => recvBatch_truncates) h hmem

/-- `sendmsg` and `recvmsg`. -/
def apple : Platform where
  SendScript := List (Readiness (Except Errno Unit))
  RecvScript := List (Readiness (Except RecvErrno Arrival))
  batchSize := 1
  pollSend := fun now transmits => Udp.pollSend fun replies => sendEach now transmits replies 0 [] []
  pollRecv := pollRecvs recvEach (maxLoop - 1)
  reactor := fun script => script.filterMap Readiness.error?
  accepting := fun script => ∀ readiness ∈ script, ∀ errno, .error errno ∈ readiness.replies →
    errno.kind = .interrupted ∨ errno.kind = .wouldBlock
  datagrams := fun script => script.flatMap (Readiness.datagrams (carried fun arrival => [arrival]))
  failures := fun script => script.flatMap (Readiness.failures failure)
  batchSize_pos := by decide
  answers := fun now _ _ _ _ h => pollSend_answers
    (fun _ udp _ => sendEach_sends (Nat.zero_le _) .nil (.refl now udp) (.refl udp)) h
  truncates := fun _ _ _ h hmem => pollRecvs_truncates (fun _ _ => recvEach_truncates) h hmem
  takes := fun _ _ _ _ _ _ haccepting h hn => pollSend_takes
    (fun readiness hreadiness _ _ _ h hn =>
      sendEach_takes (haccepting readiness hreadiness) List.take_zero.symm h hn) h hn
  fails := fun _ _ _ h hmem => pollRecvs_fails (fun _ _ => recvEach_fails) (fun _ _ => recvEach_truncates) h hmem

/-- The socket of the runtime. -/
def fallback : Platform where
  SendScript := List (Poll (Except Errno Unit))
  RecvScript := List (Except IoError Arrival)
  batchSize := 1
  pollSend := fun now transmits replies udp => some (pollSendTo now transmits replies 0 [] [] udp)
  pollRecv := fun script => some (recvFrom script)
  reactor := fun _ => []
  accepting := fun script => ∀ errno, .ready (.error errno) ∉ script
  datagrams := fun script => script.filterMap Except.toOption
  failures := fun script => script.filterMap fun result => match result with
    | .error err => some err
    | .ok _ => none
  batchSize_pos := by decide
  answers := by
    intro now transmits replies udp answer h
    cases h
    exact pollSendTo_answers List.drop_zero (Nat.zero_le _) .nil (.refl now udp) (.refl udp)
  truncates := by
    intro script results arrivals h hmem arrival harrival
    cases h
    obtain ⟨result, hresult, heq⟩ := List.mem_map.mp hmem
    cases result with
    | error err => cases heq
    | ok raw =>
        cases heq
        exact ⟨raw, List.mem_filterMap.mpr ⟨_, hresult, rfl⟩, List.mem_singleton.mp harrival⟩
  takes := by
    intro now transmits script udp answer n haccepting h hn
    cases h
    exact pollSendTo_takes haccepting List.drop_zero List.take_zero.symm hn
  fails := by
    intro script results err h hmem
    cases h
    obtain ⟨result, hresult, heq⟩ := List.mem_map.mp hmem
    cases result with
    | ok raw => cases heq
    | error err' =>
        cases heq
        exact List.mem_filterMap.mpr ⟨_, hresult, rfl⟩

end Platform

end AsyncUdx
