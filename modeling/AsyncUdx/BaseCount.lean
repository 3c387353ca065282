import Mathlib.Data.List.Infix
import Mathlib.Data.Nat.Nth

/-! Counting along an infinite sequence of steps: what grows only at certain steps is bounded when these are, steps
that take the elements of a growing list one by one are no more than there are elements, and what grows only while
something else runs out stays bounded. -/

namespace Counting

variable {P : ℕ → Prop} [DecidablePred P]

/-- Steps whose count is bounded are finitely many. -/
theorem finite_of_count_le {bound : ℕ} (h : ∀ n, Nat.count P n ≤ bound) : {n | P n}.Finite := by
  by_contra hinfinite
  have hcount : Nat.count P (Nat.nth P (bound + 1)) = bound + 1 := Nat.count_nth_of_infinite hinfinite _
  have hle := h (Nat.nth P (bound + 1))
  omega

/-- What grows only at certain steps is bounded by their count. -/
theorem le_add_count {f : ℕ → ℕ} {cost : ℕ} (h : ∀ n, f (n + 1) ≤ f n + if P n then cost else 0) (n : ℕ) :
    f n ≤ f 0 + cost * Nat.count P n := by
  induction n with
  | zero => exact Nat.le_add_right _ _
  | succ n ih =>
      have hstep := h n
      rw [Nat.count_succ, Nat.mul_add]
      split_ifs at hstep ⊢ <;> omega

section Lists

variable {α : Type*}

/-- The positions of a list with an element of some kind are as many as the elements of that kind. -/
theorem count_positions (q : α → Bool) (l : List α) :
    Nat.count (fun i => (l[i]?).any q = true) l.length = l.countP q := by
  induction l with
  | nil => rfl
  | cons a l ih =>
      rw [List.length_cons, Nat.count_succ', List.countP_cons]
      congr 1

/-- Steps that each take a different position of a growing list, with an element of some kind there, are no more than
the elements of that kind. -/
theorem count_le_countP {l : ℕ → List α} (hgrow : ∀ n, l n <+: l (n + 1)) (q : α → Bool) (position : ℕ → ℕ)
    (hinj : ∀ m n, P m → P n → position m = position n → m = n)
    (hmem : ∀ n, P n → ∃ a, (l n)[position n]? = some a ∧ q a = true) (n : ℕ) :
    Nat.count P n ≤ (l n).countP q := by
  rw [← count_positions, Nat.count_eq_card_filter_range, Nat.count_eq_card_filter_range]
  refine Finset.card_le_card_of_injOn position (fun m hm => ?_) fun m hm m' hm' h => ?_
  · rw [Finset.mem_coe, Finset.mem_filter, Finset.mem_range] at hm ⊢
    obtain ⟨a, ha, hq⟩ := hmem m hm.2
    obtain ⟨more, hmore⟩ := Nat.rel_of_forall_rel_succ_of_le (· <+: ·) hgrow hm.1.le
    have hlater : (l n)[position m]? = some a := by
      obtain ⟨hlt, rfl⟩ := List.getElem?_eq_some_iff.mp ha
      rw [← hmore, List.getElem?_append_left hlt, ha]
    refine ⟨(List.getElem?_eq_some_iff.mp hlater).1, ?_⟩
    rw [hlater]
    exact hq
  · rw [Finset.mem_coe, Finset.mem_filter] at hm hm'
    exact hinj m m' hm.2 hm'.2 h

end Lists

/-- What never falls, and grows only when something that never grows falls, is bounded. -/
theorem bounded_of_descent {f g : ℕ → ℕ} (hf : Monotone f) (hg : Antitone g)
    (h : ∀ n, f (n + 1) = f n ∨ g (n + 1) < g n) : ∃ bound, ∀ n, f n ≤ bound := by
  -- from where `g` is least, `f` does not change
  obtain ⟨m, hm⟩ : ∃ m, ∀ n, g m ≤ g n := by
    obtain ⟨-, ⟨m, rfl⟩, hmin⟩ := wellFounded_lt.has_min (Set.range g) (Set.range_nonempty g)
    exact ⟨m, fun n => Nat.not_lt.mp (hmin (g n) ⟨n, rfl⟩)⟩
  refine ⟨f m, fun n => ?_⟩
  rcases Nat.le_total n m with hle | hle
  · exact hf hle
  · refine le_of_eq ?_
    induction n, hle using Nat.le_induction with
    | base => rfl
    | succ n hle ih =>
        rcases h n with hsame | hless
        · exact hsame.trans ih
        · exact absurd hless (Nat.not_lt.mpr ((hg hle).trans (hm (n + 1))))

end Counting
