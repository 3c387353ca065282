import AsyncUdx.BaseRun
import Mathlib.Data.List.Basic

/-! A reliable pipe, as its two ends see it: items are taken in at one end and given out at the other, in the
order in which they were taken, each once. What was given out is a beginning of what was taken in, in every
state by construction; that a step takes and gives is then all there is to say about it. -/

/-- What a pipe has taken in, and what it has given out of it. -/
structure Pipe (α : Type*) where
  written : List α
  read : List α
  ordered : read <+: written

namespace Pipe

variable {α : Type*}

/-- A pipe nothing was written to. -/
def empty : Pipe α := ⟨[], [], List.prefix_rfl⟩

/-- What was taken in and not given out yet. -/
def pending (p : Pipe α) : List α := p.written.drop p.read.length

/-- What is seen of one step: the items taken in and the items given out. -/
structure Action (α : Type*) where
  taken : List α
  given : List α

/-- A step takes items in at the end of what was written and gives items out after what was read. -/
def Step (p : Pipe α) (action : Action α) (q : Pipe α) : Prop :=
  q.written = p.written ++ action.taken ∧ q.read = p.read ++ action.given

theorem read_append_pending (p : Pipe α) : p.read ++ p.pending = p.written :=
  List.prefix_iff_eq_append.mp p.ordered

/-- **Nothing is lost, duplicated or reordered in a step**: what is under way, followed by what is taken in, is
what is given out, followed by what is under way then. -/
theorem Step.conserves {p q : Pipe α} {action : Action α} (h : Step p action q) :
    p.pending ++ action.taken = action.given ++ q.pending := by
  apply (List.append_right_inj p.read).mp
  calc p.read ++ (p.pending ++ action.taken)
      = p.written ++ action.taken := by rw [← List.append_assoc, read_append_pending]
    _ = q.read ++ q.pending := by rw [read_append_pending, h.1]
    _ = p.read ++ (action.given ++ q.pending) := by rw [h.2, List.append_assoc]

/-- The same for any number of steps. -/
theorem conserves_of_trace {p q : Pipe α} {actions : List (Action α)} (h : Runs.Trace Step p actions q) :
    p.pending ++ actions.flatMap Action.taken = actions.flatMap Action.given ++ q.pending := by
  induction h with
  | nil p => exact List.append_nil _
  | cons hstep _ ih =>
      rw [List.flatMap_cons, List.flatMap_cons, ← List.append_assoc, hstep.conserves, List.append_assoc, ih,
        List.append_assoc]

end Pipe
