import Mathlib.Data.List.Basic
import Mathlib.Data.List.Perm.Basic

/-! Waiters that share one waker slot. Items become ready, one or several at a time. A waiter that polls takes an item
if there is one, and otherwise leaves its waker in the slot, over the one that was there. When items become ready, the
waker in the slot is taken out and woken, and with it the waiters whose last poll left it. -/

namespace Waiters

/-- Where a waiter is. A waiter is pending while it is asleep or woken. -/
inductive Phase (ω : Type*)
  | created
  | asleep (waker : ω)
  | woken
  | done
  deriving DecidableEq, Repr

structure State (ω : Type*) where
  ready : Nat
  slot : Option ω
  phases : List (Phase ω)

inductive Event (ω : Type*)
  | create
  | poll (n : Nat) (waker : ω)
  | arrive (count : Nat)

section Phases

variable {ω : Type*}

def Phase.isPending : Phase ω → Bool
  | .asleep _ | .woken => true
  | _ => false

/-- A waiter that can be polled: one that exists and is not done. -/
def isLive (phases : List (Phase ω)) (n : Nat) : Bool :=
  match phases[n]? with
  | none | some .done => false
  | some _ => true

theorem lt_of_isLive {phases : List (Phase ω)} {n : Nat} (h : isLive phases n = true) : n < phases.length := by
  by_contra hn
  rw [isLive, List.getElem?_eq_none (Nat.le_of_not_lt hn)] at h
  cases h

theorem mem_set_iff {phases : List (Phase ω)} {n : Nat} (hn : n < phases.length) {phase other : Phase ω} :
    other ∈ phases.set n phase ↔ other = phase ∨ other ∈ phases.eraseIdx n := by
  rw [(List.set_perm_cons_eraseIdx hn phase).mem_iff, List.mem_cons]

/-- Without a waiter that cannot be polled, the others are as before. -/
theorem mem_eraseIdx_iff {phases : List (Phase ω)} {n : Nat} (h : isLive phases n = false) {phase : Phase ω}
    (hphase : phase ≠ .done) : phase ∈ phases.eraseIdx n ↔ phase ∈ phases := by
  by_cases hn : n < phases.length
  · have hdone : phases[n] = .done := by
      rw [isLive, List.getElem?_eq_getElem hn] at h
      generalize phases[n] = last at h
      cases last with
      | done => rfl
      | _ => cases h
    have hmem : phase ∈ phases.set n .done ↔ phase = .done ∨ phase ∈ phases.eraseIdx n := mem_set_iff hn
    rw [← hdone, List.set_getElem_self, hdone] at hmem
    exact (hmem.trans (or_iff_right hphase)).symm
  · rw [List.eraseIdx_of_length_le (Nat.le_of_not_lt hn)]

end Phases

variable {ω : Type*} [DecidableEq ω]

/-- The waker in the slot is woken. -/
def Phase.wake (slot : Option ω) : Phase ω → Phase ω
  | .asleep waker => if slot = some waker then .woken else .asleep waker
  | phase => phase

theorem Phase.wake_none (phase : Phase ω) : phase.wake none = phase := by
  cases phase with
  | asleep waker => simp [wake]
  | _ => rfl

theorem map_wake_none (phases : List (Phase ω)) : phases.map (Phase.wake none) = phases :=
  (List.map_congr_left fun phase _ => phase.wake_none).trans (List.map_id _)

theorem Phase.wake_self (waker : ω) : (Phase.asleep waker).wake (some waker) = .woken := if_pos rfl

theorem Phase.eq_of_wake_eq {slot : Option ω} {phase : Phase ω} {waker : ω} (h : phase.wake slot = .asleep waker) :
    phase = .asleep waker ∧ slot ≠ some waker := by
  cases phase with
  | asleep other =>
      rw [wake] at h
      split at h
      · cases h
      · rename_i hne
        cases h
        exact ⟨rfl, hne⟩
  | _ => cases h

namespace State

def step (s : State ω) : Event ω → State ω
  | .create => { s with phases := s.phases ++ [.created] }
  | .poll n waker =>
      if isLive s.phases n then
        match s.ready with
        | 0 => { s with slot := some waker, phases := s.phases.set n (.asleep waker) }
        | ready + 1 => { s with ready := ready, phases := s.phases.set n .done }
      else s
  | .arrive 0 => s
  | .arrive (count + 1) => ⟨s.ready + (count + 1), none, s.phases.map (Phase.wake s.slot)⟩

/-- An item is ready, a waiter is pending, and no pending waiter was woken since its last poll. -/
def Stranded (s : State ω) : Prop := 0 < s.ready ∧ (∃ waker, .asleep waker ∈ s.phases) ∧ .woken ∉ s.phases

/-- When a step leaves nobody behind: items that become ready find a waker in the slot, or no waiter asleep, or one
woken already; and a waiter that takes one of several items leaves no other one asleep, or another one woken. -/
def Timely (s : State ω) : Event ω → Prop
  | .create => True
  | .poll n _ => 2 ≤ s.ready → (∃ waker, .asleep waker ∈ s.phases.eraseIdx n) → .woken ∈ s.phases.eraseIdx n
  | .arrive count => 0 < count → s.slot = none → (∃ waker, .asleep waker ∈ s.phases) → .woken ∈ s.phases

/-- A waker in the slot is that of a waiter asleep, and nothing is ready. -/
def Slotted (s : State ω) : Prop := ∀ waker, s.slot = some waker → s.ready = 0 ∧ .asleep waker ∈ s.phases

omit [DecidableEq ω] in
theorem Slotted.slot_none {s : State ω} (hs : s.Slotted) (hready : s.ready ≠ 0) : s.slot = none := by
  cases hslot : s.slot with
  | none => rfl
  | some waker => exact absurd (hs waker hslot).1 hready

theorem Slotted.step {s : State ω} (hs : s.Slotted) (e : Event ω) : (s.step e).Slotted := by
  intro waker hslot
  match e with
  | .create => exact ⟨(hs waker hslot).1, List.mem_append_left _ (hs waker hslot).2⟩
  | .arrive 0 => exact hs waker hslot
  | .arrive (count + 1) => cases hslot
  | .poll n other =>
      rw [State.step] at hslot ⊢
      split at hslot
      · rename_i hlive
        rw [if_pos hlive]
        cases hready : s.ready with
        | zero =>
            rw [hready] at hslot
            cases hslot
            exact ⟨rfl, (mem_set_iff (lt_of_isLive hlive)).mpr (Or.inl rfl)⟩
        | succ ready =>
            rw [hready] at hslot
            have hnone := hs.slot_none (by omega)
            rw [show s.slot = some waker from hslot] at hnone
            cases hnone
      · rename_i hidle
        rw [if_neg hidle]
        exact hs waker hslot

theorem poll_stranded_iff {s : State ω} (hsafe : ¬s.Stranded) (n : Nat) (waker : ω) :
    ¬(s.step (.poll n waker)).Stranded ↔ s.Timely (.poll n waker) := by
  rw [step, Timely]
  cases hlive : isLive s.phases n with
  | false =>
      -- nobody polls, and the others are all there are
      refine iff_of_true hsafe fun hready hasleep => ?_
      rw [mem_eraseIdx_iff hlive (by simp)]
      obtain ⟨other, hother⟩ := hasleep
      by_contra hwoken
      exact hsafe ⟨by omega, ⟨other, (mem_eraseIdx_iff hlive (by simp)).mp hother⟩, hwoken⟩
  | true =>
      have hn := lt_of_isLive hlive
      rw [if_pos rfl]
      cases hready : s.ready with
      | zero =>
          refine iff_of_true (fun h => ?_) fun h => absurd h (by omega)
          exact absurd h.1 (Nat.lt_irrefl 0)
      | succ ready =>
          have hmem : ∀ phase : Phase ω, phase ≠ .done →
              (phase ∈ s.phases.set n .done ↔ phase ∈ s.phases.eraseIdx n) := fun phase hphase =>
            (mem_set_iff hn).trans (or_iff_right hphase)
          have hasleep : (∃ waker, Phase.asleep waker ∈ s.phases.set n .done) ↔
              ∃ waker, Phase.asleep waker ∈ s.phases.eraseIdx n := exists_congr fun _ => hmem _ (by simp)
          rw [Stranded]
          dsimp only
          rw [hasleep, hmem .woken (by simp), not_and, not_and, Classical.not_not]
          exact imp_congr_left (by omega)

theorem arrive_stranded_iff {s : State ω} (hs : s.Slotted) (hsafe : ¬s.Stranded) (count : Nat) :
    ¬(s.step (.arrive count)).Stranded ↔ s.Timely (.arrive count) := by
  cases count with
  | zero => exact iff_of_true hsafe fun h => absurd h (by omega)
  | succ count =>
      rw [step, Timely, Stranded]
      cases hslot : s.slot with
      | none =>
          rw [map_wake_none, not_and, not_and, Classical.not_not]
          exact ⟨fun h _ _ => h (Nat.succ_pos _), fun h _ => h (Nat.succ_pos _) rfl⟩
      | some waker =>
          -- the waiter whose waker is in the slot is woken
          refine iff_of_true (fun h => ?_) fun _ h => absurd h (by simp)
          refine h.2.2 (List.mem_map.mpr ⟨.asleep waker, (hs waker hslot).2, ?_⟩)
          exact Phase.wake_self waker

/-- **One step.** From a state in which nobody is left behind, a step leaves nobody behind exactly if it is timely. -/
theorem step_stranded_iff {s : State ω} (hs : s.Slotted) (hsafe : ¬s.Stranded) (e : Event ω) :
    ¬(s.step e).Stranded ↔ s.Timely e := by
  cases e with
  | create =>
      refine iff_of_true (fun h => hsafe ⟨h.1, ?_, fun hwoken => h.2.2 (List.mem_append_left _ hwoken)⟩) trivial
      obtain ⟨waker, hwaker⟩ := h.2.1
      rcases List.mem_append.mp hwaker with hold | hnew
      · exact ⟨waker, hold⟩
      · cases List.mem_singleton.mp hnew
  | poll n waker => exact poll_stranded_iff hsafe n waker
  | arrive count => exact arrive_stranded_iff hs hsafe count

/-! ### One waiter at a time -/

/-- At most one waiter is pending. -/
def Alone (s : State ω) : Prop := s.phases.countP Phase.isPending ≤ 1

/-- Every waiter asleep has its waker in the slot. -/
def Heard (s : State ω) : Prop := ∀ waker, .asleep waker ∈ s.phases → s.slot = some waker

omit [DecidableEq ω] in
theorem not_stranded_of_heard {s : State ω} (hs : s.Slotted) (hheard : s.Heard) : ¬s.Stranded := by
  rintro ⟨hready, ⟨waker, hwaker⟩, -⟩
  rw [(hs waker (hheard waker hwaker)).1] at hready
  exact absurd hready (Nat.lt_irrefl 0)

/-- As long as waiters do not overlap, the slot has the waker of the one that is asleep. -/
theorem Heard.step {s : State ω} (hheard : s.Heard) (e : Event ω) (halone : (s.step e).Alone) :
    (s.step e).Heard := by
  intro waker hwaker
  match e with
  | .create =>
      rcases List.mem_append.mp hwaker with hold | hnew
      · exact hheard waker hold
      · cases List.mem_singleton.mp hnew
  | .arrive 0 => exact hheard waker hwaker
  | .arrive (count + 1) =>
      obtain ⟨phase, hphase, hwake⟩ := List.mem_map.mp hwaker
      obtain ⟨rfl, hne⟩ := Phase.eq_of_wake_eq hwake
      exact absurd (hheard waker hphase) hne
  | .poll n other =>
      rw [State.step] at hwaker halone ⊢
      cases hlive : isLive s.phases n with
      | false =>
          rw [hlive] at hwaker
          exact hheard waker hwaker
      | true =>
          have hn := lt_of_isLive hlive
          rw [hlive, if_pos rfl] at hwaker halone
          rw [if_pos rfl]
          cases hready : s.ready with
          | zero =>
              rw [hready] at hwaker halone
              rcases (mem_set_iff hn).mp hwaker with hself | hother
              · cases hself
                rfl
              · have hcount := (List.set_perm_cons_eraseIdx hn (Phase.asleep other)).countP_eq Phase.isPending
                have hpositive : 0 < (s.phases.eraseIdx n).countP Phase.isPending :=
                  List.countP_pos_iff.mpr ⟨_, hother, rfl⟩
                rw [List.countP_cons_of_pos rfl] at hcount
                have hle : (s.phases.set n (.asleep other)).countP Phase.isPending ≤ 1 := halone
                omega
          | succ ready =>
              rw [hready] at hwaker
              rcases (mem_set_iff hn).mp hwaker with hself | hother
              · cases hself
              · exact hheard waker (List.mem_of_mem_eraseIdx hother)

end State

end Waiters
