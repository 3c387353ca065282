import Mathlib.Data.List.ReduceOption

/-! Two queues that are advanced by one count. The first holds an item for every job, and with it a tag if the job
has one; the second holds the tags alone. Taking `n` items from the front of both keeps the second in step with the
first only under a condition on the order of the jobs. A queue may also be split into the items that were kept and
those that were left out. -/

namespace Queue

variable {α : Type*}

theorem reduceOption_take (jobs : List (Option α)) (n : Nat) :
    (jobs.take n).reduceOption = jobs.reduceOption.take (jobs.take n).reduceOption.length := by
  conv_rhs => rw [← List.take_append_drop n jobs, List.reduceOption_append]
  rw [List.take_append_drop, List.take_left]

theorem reduceOption_drop (jobs : List (Option α)) (n : Nat) :
    (jobs.drop n).reduceOption = jobs.reduceOption.drop (jobs.take n).reduceOption.length := by
  conv_rhs => rw [← List.take_append_drop n jobs, List.reduceOption_append]
  rw [List.take_append_drop, List.drop_left]

/-- Every one of the first `n` jobs has a tag, or none of the others has. -/
def InStep (jobs : List (Option α)) (n : Nat) : Prop := none ∉ jobs.take n ∨ (jobs.drop n).reduceOption = []

instance [DecidableEq α] (jobs : List (Option α)) (n : Nat) : Decidable (InStep jobs n) :=
  inferInstanceAs (Decidable (_ ∨ _))

theorem inStep_iff_length (jobs : List (Option α)) (n : Nat) :
    InStep jobs n ↔ (jobs.take n).reduceOption.length = min n jobs.reduceOption.length := by
  have hsum : jobs.reduceOption.length = (jobs.take n).reduceOption.length + (jobs.drop n).reduceOption.length := by
    rw [← List.length_append, ← List.reduceOption_append, List.take_append_drop]
  have htake : (jobs.take n).length = min n jobs.length := List.length_take
  have hle := (jobs.take n).reduceOption_length_le
  have hfull : none ∉ jobs.take n ↔ (jobs.take n).length ≤ (jobs.take n).reduceOption.length := by
    rw [← List.reduceOption_length_lt_iff, Nat.not_lt]
  have hrest := (jobs.drop n).reduceOption_length_le
  rw [List.length_drop] at hrest
  rw [InStep, hfull, ← List.length_eq_zero_iff]
  omega

/-- **In step.** Dropping `n` from both queues leaves the tags of the jobs that are left, and takes those of the
jobs that were taken, exactly if the condition holds. -/
theorem inStep_iff (jobs : List (Option α)) (n : Nat) :
    InStep jobs n ↔ jobs.reduceOption.drop n = (jobs.drop n).reduceOption ∧
      jobs.reduceOption.take n = (jobs.take n).reduceOption := by
  rw [inStep_iff_length]
  constructor
  · intro hlen
    constructor
    · rw [reduceOption_drop, hlen, ← List.drop_eq_drop_min]
    · rw [reduceOption_take, hlen, ← List.take_eq_take_min]
  · rintro ⟨-, htake⟩
    rw [← htake, List.length_take]

/-! ### Items kept and items left out -/

/-- The items that were kept and those that were left out, each in their order, make up the whole queue. -/
inductive Merges : List α → List α → List α → Prop
  | nil : Merges [] [] []
  | keep (x : α) {kept out all : List α} : Merges kept out all → Merges (x :: kept) out (x :: all)
  | leave (x : α) {kept out all : List α} : Merges kept out all → Merges kept (x :: out) (x :: all)

namespace Merges

variable {kept out all : List α}

theorem keepAll (all : List α) : Merges all [] all := by
  induction all with
  | nil => exact .nil
  | cons x rest ih => exact .keep x ih

theorem leaveAll (all : List α) : Merges [] all all := by
  induction all with
  | nil => exact .nil
  | cons x rest ih => exact .leave x ih

theorem append (h : Merges kept out all) {kept' out' all' : List α} (h' : Merges kept' out' all') :
    Merges (kept ++ kept') (out ++ out') (all ++ all') := by
  induction h with
  | nil => exact h'
  | keep x _ ih => exact .keep x ih
  | leave x _ ih => exact .leave x ih

theorem keepLast (h : Merges kept out all) (x : α) : Merges (kept ++ [x]) out (all ++ [x]) := by
  have hlast := h.append (.keep x .nil)
  rwa [List.append_nil] at hlast

theorem leaveLast (h : Merges kept out all) (x : α) : Merges kept (out ++ [x]) (all ++ [x]) := by
  have hlast := h.append (.leave x .nil)
  rwa [List.append_nil] at hlast

theorem sublist (h : Merges kept out all) : kept.Sublist all := by
  induction h with
  | nil => exact List.Sublist.refl _
  | keep x _ ih => exact ih.cons_cons x
  | leave x _ ih => exact ih.cons x

theorem eq_nil (h : Merges kept out []) : kept = [] ∧ out = [] := by
  cases h
  exact ⟨rfl, rfl⟩

end Merges

end Queue
