import Mathlib.Data.List.Induction
import Mathlib.Logic.Relation

/-! Runs of a deterministic step function over a list of events, with the induction rules used for
invariants: a guard that every step of the run meets, and a bound that only grows along the run, so
that assuming it at the end gives it at every state in between. -/

namespace Runs

variable {σ ε : Type*} (step : σ → ε → σ)

/-- The state a run ends in. -/
def run (s : σ) (events : List ε) : σ := events.foldl step s

/-- Every step of a run meets a guard on its event and on the state before it. -/
def Along (guard : σ → ε → Prop) : σ → List ε → Prop
  | _, [] => True
  | s, e :: events => guard s e ∧ Along guard (step s e) events

/-- A property holds in every state of a run, the first and the last included. -/
def Always (P : σ → Prop) : σ → List ε → Prop
  | s, [] => P s
  | s, e :: events => P s ∧ Always P (step s e) events

instance decidableAlong (guard : σ → ε → Prop) [∀ s e, Decidable (guard s e)] :
    ∀ (s : σ) (events : List ε), Decidable (Along step guard s events)
  | _, [] => isTrue trivial
  | s, e :: events =>
      haveI := decidableAlong guard (step s e) events
      inferInstanceAs (Decidable (guard s e ∧ Along step guard (step s e) events))

instance decidableAlways (P : σ → Prop) [∀ s, Decidable (P s)] :
    ∀ (s : σ) (events : List ε), Decidable (Always step P s events)
  | s, [] => inferInstanceAs (Decidable (P s))
  | s, e :: events =>
      haveI := decidableAlways P (step s e) events
      inferInstanceAs (Decidable (P s ∧ Always step P (step s e) events))

variable {step}

theorem Always.head {P : σ → Prop} {s : σ} {events : List ε} (h : Always step P s events) : P s := by
  cases events with
  | nil => exact h
  | cons e rest => exact h.1

theorem along_append {guard : σ → ε → Prop} (s : σ) (first rest : List ε) :
    Along step guard s (first ++ rest) ↔ Along step guard s first ∧ Along step guard (run step s first) rest := by
  induction first generalizing s with
  | nil => exact (iff_of_eq (true_and _)).symm
  | cons e events ih => exact (and_congr_right fun _ => ih (step s e)).trans and_assoc.symm

/-- What a guard and an invariant give at every step of a run. -/
theorem along_of_along {guard guard' : σ → ε → Prop} (Inv : σ → Prop) (hinv : ∀ s e, Inv s → Inv (step s e))
    (h : ∀ s e, Inv s → guard s e → guard' s e) {s : σ} {events : List ε} (hs : Inv s)
    (hguard : Along step guard s events) : Along step guard' s events := by
  induction events generalizing s with
  | nil => trivial
  | cons e rest ih => exact ⟨h s e hs hguard.1, ih (hinv s e hs) hguard.2⟩

/-- **Guarded invariant rule.** What follows from an invariant that every guarded step keeps holds in every
state of a guarded run. -/
theorem always_of_along {P : σ → Prop} {guard : σ → ε → Prop} (Inv : σ → Prop) (hP : ∀ s, Inv s → P s)
    (hstep : ∀ s e, Inv s → guard s e → Inv (step s e)) {s : σ} {events : List ε} (hs : Inv s)
    (hguard : Along step guard s events) : Always step P s events := by
  induction events generalizing s with
  | nil => exact hP s hs
  | cons e rest ih => exact ⟨hP s hs, ih (hstep s e hs hguard.1) hguard.2⟩

/-- A bound that a step can only move away from holds at the start when it holds at the end. -/
theorem bound_of_run (Pre Bound : σ → Prop) (hpre : ∀ s e, Pre s → Pre (step s e))
    (hback : ∀ s e, Pre s → Bound (step s e) → Bound s) {s : σ} {events : List ε} (hs : Pre s)
    (h : Bound (run step s events)) : Bound s := by
  induction events generalizing s with
  | nil => exact h
  | cons e rest ih => exact hback s e hs (ih (hpre s e hs) h)

/-- Such a bound holds in every state of a run exactly if it holds at the end. -/
theorem always_iff_run {P : σ → Prop} (hback : ∀ s e, P (step s e) → P s) {s : σ} {events : List ε} :
    Always step P s events ↔ P (run step s events) := by
  induction events generalizing s with
  | nil => exact Iff.rfl
  | cons e rest ih =>
      exact ⟨fun h => ih.mp h.2, fun h => ⟨hback s e (ih.mpr h).head, ih.mpr h⟩⟩

/-- **Bounded invariant rule.** An invariant kept by every step that ends within a bound holds at the end
of a run that does, next to an invariant that needs no bound. -/
theorem run_invariant_bounded (Pre Inv Bound : σ → Prop) (hpre : ∀ s e, Pre s → Pre (step s e))
    (hback : ∀ s e, Pre s → Bound (step s e) → Bound s)
    (hstep : ∀ s e, Pre s → Inv s → Bound (step s e) → Inv (step s e))
    {s : σ} {events : List ε} (hs : Pre s) (hi : Inv s) (hbound : Bound (run step s events)) :
    Inv (run step s events) := by
  induction events generalizing s with
  | nil => exact hi
  | cons e rest ih =>
      have hnext : Bound (step s e) := bound_of_run Pre Bound hpre hback (hpre s e hs) hbound
      exact ih (hpre s e hs) (hstep s e hs hi hnext) hbound

/-- A bound that a guarded step can only move away from holds at the start when it holds at the end. -/
theorem bound_of_along {guard : σ → ε → Prop} (Pre Bound : σ → Prop)
    (hpre : ∀ s e, Pre s → guard s e → Pre (step s e))
    (hback : ∀ s e, Pre s → guard s e → Bound (step s e) → Bound s) {s : σ} {events : List ε} (hs : Pre s)
    (hguard : Along step guard s events) (h : Bound (run step s events)) : Bound s := by
  induction events generalizing s with
  | nil => exact h
  | cons e rest ih => exact hback s e hs hguard.1 (ih (hpre s e hs hguard.1) hguard.2 h)

/-- **Guarded and bounded invariant rule.** An invariant kept by every guarded step that ends within a bound holds at
the end of a guarded run that does. -/
theorem along_invariant_bounded {guard : σ → ε → Prop} (Pre Inv Bound : σ → Prop)
    (hpre : ∀ s e, Pre s → guard s e → Pre (step s e))
    (hback : ∀ s e, Pre s → guard s e → Bound (step s e) → Bound s)
    (hstep : ∀ s e, Pre s → Inv s → guard s e → Bound (step s e) → Inv (step s e)) {s : σ} {events : List ε}
    (hs : Pre s) (hi : Inv s) (hguard : Along step guard s events) (hbound : Bound (run step s events)) :
    Inv (run step s events) := by
  induction events generalizing s with
  | nil => exact hi
  | cons e rest ih =>
      have hnext : Bound (step s e) := bound_of_along Pre Bound hpre hback (hpre s e hs hguard.1) hguard.2 hbound
      exact ih (hpre s e hs hguard.1) (hstep s e hs hi hguard.1 hnext) hguard.2 hbound

/-- **Guarded invariant rule.** What every guarded step keeps holds at the end of a guarded run. -/
theorem along_invariant {guard : σ → ε → Prop} (Inv : σ → Prop) (hstep : ∀ s e, Inv s → guard s e → Inv (step s e))
    {s : σ} {events : List ε} (hs : Inv s) (hguard : Along step guard s events) : Inv (run step s events) := by
  induction events generalizing s with
  | nil => exact hs
  | cons e rest ih => exact ih (hstep s e hs hguard.1) hguard.2

theorem run_concat (s : σ) (events : List ε) (e : ε) : run step s (events ++ [e]) = step (run step s events) e :=
  List.foldl_append

/-- **Guarded invariant rule with history.** A property of the events so far that every guarded event keeps holds of the
events of a guarded run. -/
theorem along_history {guard : σ → ε → Prop} (P : List ε → Prop) {s : σ}
    (hstep : ∀ events e, P events → guard (run step s events) e → P (events ++ [e])) (hnil : P []) {events : List ε}
    (hguard : Along step guard s events) : P events := by
  induction events using List.reverseRecOn with
  | nil => exact hnil
  | append_singleton events e ih =>
      obtain ⟨hfirst, hlast⟩ := (along_append s events [e]).mp hguard
      exact hstep events e (ih hfirst) hlast.1

/-- **Invariant rule.** What every step keeps holds at the end of a run. -/
theorem run_invariant (Inv : σ → Prop) (hstep : ∀ s e, Inv s → Inv (step s e)) {s : σ} (hs : Inv s)
    (events : List ε) : Inv (run step s events) :=
  List.foldlRecOn events step hs fun s hs e _ => hstep s e hs

/-- What every step keeps that ends in a good state holds at the end of a run of good states. -/
theorem run_invariant_of_always {P : σ → Prop} (Inv : σ → Prop)
    (hstep : ∀ s e, Inv s → P (step s e) → Inv (step s e)) {s : σ} {events : List ε} (hs : Inv s)
    (h : Always step P s events) : Inv (run step s events) := by
  induction events generalizing s with
  | nil => exact hs
  | cons e rest ih => exact ih (hstep s e hs h.2.head) h.2

/-- **Guards that are needed.** When, within an invariant and a bound, a step keeps a property exactly if it
meets a guard, the property holds in every state of a run exactly if every step meets the guard. -/
theorem always_iff_along {P : σ → Prop} {guard : σ → ε → Prop} (Inv Bound : σ → Prop)
    (hback : ∀ s e, Bound (step s e) → Bound s)
    (hinv : ∀ s e, Inv s → Bound (step s e) → Inv (step s e))
    (hstep : ∀ s e, Inv s → P s → Bound (step s e) → (P (step s e) ↔ guard s e))
    {s : σ} {events : List ε} (hs : Inv s) (hP : P s) (hbound : Bound (run step s events)) :
    Always step P s events ↔ Along step guard s events := by
  induction events generalizing s with
  | nil => exact ⟨fun _ => trivial, fun _ => hP⟩
  | cons e rest ih =>
      have hnext : Bound (step s e) :=
        bound_of_run (fun _ => True) Bound (fun _ _ _ => trivial) (fun s e _ => hback s e) trivial hbound
      constructor
      · rintro ⟨-, hrest⟩
        have hP' : P (step s e) := hrest.head
        exact ⟨(hstep s e hs hP hnext).mp hP', (ih (hinv s e hs hnext) hP' hbound).mp hrest⟩
      · rintro ⟨hguard, hrest⟩
        have hP' : P (step s e) := (hstep s e hs hP hnext).mpr hguard
        exact ⟨hP, (ih (hinv s e hs hnext) hP' hbound).mpr hrest⟩

/-! ### Reaching a state -/

/-- Some run of allowed events leads from one state to another. -/
def Reaches (step : σ → ε → σ) (allowed : ε → Prop) (s t : σ) : Prop :=
  ∃ events, (∀ e ∈ events, allowed e) ∧ run step s events = t

namespace Reaches

variable {allowed : ε → Prop} {s t r : σ}

theorem refl (s : σ) : Reaches step allowed s s := ⟨[], fun _ h => absurd h List.not_mem_nil, rfl⟩

theorem trans (h : Reaches step allowed s t) (h' : Reaches step allowed t r) : Reaches step allowed s r := by
  obtain ⟨first, hfirst, rfl⟩ := h
  obtain ⟨rest, hrest, rfl⟩ := h'
  refine ⟨first ++ rest, fun e he => ?_, List.foldl_append⟩
  exact (List.mem_append.mp he).elim (hfirst e) (hrest e)

theorem tail (h : Reaches step allowed s t) {e : ε} (he : allowed e) : Reaches step allowed s (step t e) :=
  h.trans ⟨[e], List.forall_mem_singleton.mpr he, rfl⟩

theorem invariant (Inv : σ → Prop) (hstep : ∀ s e, allowed e → Inv s → Inv (step s e))
    (h : Reaches step allowed s t) (hs : Inv s) : Inv t := by
  obtain ⟨events, hevents, rfl⟩ := h
  exact List.foldlRecOn (motive := Inv) events step hs fun s hs e he => hstep s e (hevents e he) hs

/-- When a lower rank can always be reached, rank zero can be reached. -/
theorem exists_rank_zero (Inv : σ → Prop) (rank : σ → Nat)
    (hlower : ∀ s, Inv s → rank s ≠ 0 → ∃ t, Reaches step allowed s t ∧ Inv t ∧ rank t < rank s) (hs : Inv s) :
    ∃ t, Reaches step allowed s t ∧ Inv t ∧ rank t = 0 := by
  induction hn : rank s using Nat.strongRecOn generalizing s with
  | _ n ih =>
      by_cases hzero : rank s = 0
      · exact ⟨s, .refl s, hs, hzero⟩
      · obtain ⟨t, hst, ht, hlt⟩ := hlower s hs hzero
        obtain ⟨r, htr, hr⟩ := ih (rank t) (hn ▸ hlt) ht rfl
        exact ⟨r, hst.trans htr, hr⟩

end Reaches

/-! ### Infinite runs -/

/-- The states of an infinite run. -/
def states (step : σ → ε → σ) (s : σ) (events : Nat → ε) : Nat → σ
  | 0 => s
  | n + 1 => step (states step s events n) (events n)

/-- An invariant that every guarded step keeps holds in every state of a guarded infinite run. -/
theorem states_invariant {guard : σ → ε → Prop} (Inv : σ → Prop)
    (hstep : ∀ s e, Inv s → guard s e → Inv (step s e)) {s : σ} {events : Nat → ε} (hs : Inv s)
    (hguard : ∀ n, guard (states step s events n) (events n)) (n : Nat) : Inv (states step s events n) := by
  induction n with
  | zero => exact hs
  | succ n ih => exact hstep _ _ ih (hguard n)

/-- An infinite sequence of events with one more at its start. -/
def cons (e : ε) (events : Nat → ε) : Nat → ε
  | 0 => e
  | n + 1 => events n

theorem states_cons (s : σ) (e : ε) (events : Nat → ε) (n : Nat) :
    states step s (cons e events) (n + 1) = states step (step s e) events n := by
  induction n with
  | zero => rfl
  | succ n ih => exact congrArg (step · (events n)) ih

/-! ### Simulation -/

section Simulation

variable {τ lab : Type*}

/-- What is observed along a run, one observation an event. -/
def observations (step : σ → ε → σ) (observe : σ → ε → lab) : σ → List ε → List lab
  | _, [] => []
  | s, e :: events => observe s e :: observations step observe (step s e) events

/-- The items observed along a run, those of each event after those of the events before it. -/
def history {α : Type*} (step : σ → ε → σ) (observe : σ → ε → List α) (s : σ) (events : List ε) : List α :=
  (observations step observe s events).flatten

theorem history_filterMap {α β : Type*} (observe : σ → ε → List α) (f : α → Option β) (s : σ) (events : List ε) :
    (history step observe s events).filterMap f = history step (fun s e => (observe s e).filterMap f) s events := by
  induction events generalizing s with
  | nil => rfl
  | cons e rest ih => exact List.filterMap_append.trans (congrArg _ (ih (step s e)))

theorem history_map {α β : Type*} (observe : σ → ε → List α) (f : α → β) (s : σ) (events : List ε) :
    (history step observe s events).map f = history step (fun s e => (observe s e).map f) s events := by
  induction events generalizing s with
  | nil => rfl
  | cons e rest ih => exact List.map_append.trans (congrArg _ (ih (step s e)))

/-- **Conservation rule.** When in every step what is under way, followed by what comes in, is what goes out, followed
by what is under way then, the same holds for a whole run: nothing is lost, added or reordered. -/
theorem history_conserved {α : Type*} (pending : σ → List α) {taken given : σ → ε → List α}
    (hstep : ∀ s e, pending s ++ taken s e = given s e ++ pending (step s e)) (s : σ) (events : List ε) :
    pending s ++ history step taken s events = history step given s events ++ pending (run step s events) := by
  induction events generalizing s with
  | nil => exact List.append_nil _
  | cons e rest ih =>
      calc pending s ++ (taken s e ++ history step taken (step s e) rest)
          = given s e ++ (pending (step s e) ++ history step taken (step s e) rest) := by
            rw [← List.append_assoc, hstep, List.append_assoc]
        _ = (given s e ++ history step given (step s e) rest) ++ pending (run step (step s e) rest) := by
            rw [ih, List.append_assoc]

/-- **Ranking rule.** Events that each use up some of a quantity that no event restores are no more than there is of
it, as long as the run stays within a bound. -/
theorem count_observations_le {allowed : ε → Prop} {observe : σ → ε → Bool} (Inv Bound : σ → Prop) (rank : σ → Nat)
    (hback : ∀ s e, Bound (step s e) → Bound s)
    (hstep : ∀ s e, Inv s → allowed e → Bound (step s e) →
      Inv (step s e) ∧ rank (step s e) + (observe s e).toNat ≤ rank s) {s : σ} {events : List ε} (hs : Inv s)
    (hallowed : ∀ e ∈ events, allowed e) (hbound : Bound (run step s events)) :
    (observations step observe s events).count true + rank (run step s events) ≤ rank s := by
  induction events generalizing s with
  | nil => exact Nat.le_of_eq (Nat.zero_add _)
  | cons e rest ih =>
      obtain ⟨he, hrest⟩ := List.forall_mem_cons.mp hallowed
      have hnext : Bound (step s e) :=
        bound_of_run (fun _ => True) Bound (fun _ _ _ => trivial) (fun s e _ => hback s e) trivial hbound
      obtain ⟨hinv, hrank⟩ := hstep s e hs he hnext
      have hle := ih hinv hrest hbound
      have hcount : (observations step observe s (e :: rest)).count true =
          (observations step observe (step s e) rest).count true + (observe s e).toNat := by
        rw [observations, List.count_cons]
        cases observe s e <;> rfl
      rw [hcount]
      change _ + rank (run step (step s e) rest) ≤ rank s
      omega

/-- A sequence of labelled steps. -/
inductive Trace (next : τ → lab → τ → Prop) : τ → List lab → τ → Prop
  | nil (t : τ) : Trace next t [] t
  | cons {t t' t'' : τ} {label : lab} {labels : List lab} (h : next t label t') (rest : Trace next t' labels t'') :
      Trace next t (label :: labels) t''

/-- **Simulation rule.** When every step that ends within a bound is matched by a step of a specification with
the same label, what is observed along a run that ends within the bound is a trace of the specification. -/
theorem trace_of_run {next : τ → lab → τ → Prop} {observe : σ → ε → lab} (R : σ → τ → Prop) (Bound : σ → Prop)
    (hback : ∀ s e, Bound (step s e) → Bound s)
    (hstep : ∀ s e t, R s t → Bound (step s e) → ∃ t', next t (observe s e) t' ∧ R (step s e) t')
    {s : σ} {t : τ} {events : List ε} (hst : R s t) (hbound : Bound (run step s events)) :
    ∃ t', Trace next t (observations step observe s events) t' ∧ R (run step s events) t' := by
  induction events generalizing s t with
  | nil => exact ⟨t, .nil t, hst⟩
  | cons e rest ih =>
      have hnext : Bound (step s e) :=
        bound_of_run (fun _ => True) Bound (fun _ _ _ => trivial) (fun s e _ => hback s e) trivial hbound
      obtain ⟨t', hlabel, hst'⟩ := hstep s e t hst hnext
      obtain ⟨t'', htrace, hlast⟩ := ih hst' hbound
      exact ⟨t'', .cons hlabel htrace, hlast⟩

end Simulation

end Runs

namespace Relation

variable {σ : Type*} {r : σ → σ → Prop}

/-- A bound that a step can only move away from holds at the start of a chain. -/
theorem bound_of_chain {Bound : σ → Prop} (hback : ∀ s t, r s t → Bound t → Bound s) {s t : σ}
    (h : ReflTransGen r s t) (ht : Bound t) : Bound s := by
  induction h using ReflTransGen.head_induction_on with
  | refl => exact ht
  | head hstep _ ih => exact hback _ _ hstep ih

/-- An invariant kept by every step that ends within a bound is kept by a chain that does. -/
theorem chain_invariant_bounded (Inv Bound : σ → Prop) (hback : ∀ s t, r s t → Bound t → Bound s)
    (hstep : ∀ s t, r s t → Inv s → Bound t → Inv t) {s t : σ} (h : ReflTransGen r s t)
    (hs : Inv s) (ht : Bound t) : Inv t := by
  induction h with
  | refl => exact hs
  | tail _ hlast ih => exact hstep _ _ hlast (ih (hback _ _ hlast ht)) ht

/-- An invariant kept by every step is kept by a chain. -/
theorem chain_invariant (Inv : σ → Prop) (hstep : ∀ s t, r s t → Inv s → Inv t) {s t : σ}
    (h : ReflTransGen r s t) (hs : Inv s) : Inv t := by
  induction h with
  | refl => exact hs
  | tail _ hlast ih => exact hstep _ _ hlast ih

/-- What no step changes, a chain does not change. -/
theorem chain_value {β : Type*} (f : σ → β) (hstep : ∀ s t, r s t → f t = f s) {s t : σ}
    (h : ReflTransGen r s t) : f t = f s := by
  induction h with
  | refl => rfl
  | tail _ hlast ih => exact (hstep _ _ hlast).trans ih

end Relation
