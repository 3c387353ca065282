import Mathlib.Data.List.Basic
import Mathlib.Order.Monotone.Basic
import Mathlib.Logic.Function.Iterate

/-! Folds whose order does not matter, and counts that tell iterations apart. A family of operations that commute and
do nothing the second time leaves a state that depends only on which of them were applied. -/

namespace Folding

section Sets

variable {σ ι : Type*} {f : σ → ι → σ} {Inv : σ → Prop} (hinv : ∀ s i, Inv s → Inv (f s i))
  (hcomm : ∀ s i j, Inv s → f (f s i) j = f (f s j) i) (hidem : ∀ s i, Inv s → f (f s i) i = f s i)

include hinv hcomm

/-- An operation can be done before the others or after them. -/
theorem foldl_step (l : List ι) (i : ι) {s : σ} (hs : Inv s) : l.foldl f (f s i) = f (l.foldl f s) i := by
  induction l generalizing s with
  | nil => rfl
  | cons j rest ih => rw [List.foldl_cons, List.foldl_cons, hcomm s i j hs, ih (hinv s j hs)]

theorem foldl_swap (l l' : List ι) {s : σ} (hs : Inv s) : l.foldl f (l'.foldl f s) = l'.foldl f (l.foldl f s) := by
  induction l' generalizing s with
  | nil => rfl
  | cons i rest ih => rw [List.foldl_cons, List.foldl_cons, ih (hinv s i hs), foldl_step hinv hcomm l i hs]

include hidem

/-- An operation that is done later need not be done before. -/
theorem foldl_absorb {l : List ι} {i : ι} (hi : i ∈ l) {s : σ} (hs : Inv s) : l.foldl f (f s i) = l.foldl f s := by
  induction l generalizing s with
  | nil => exact absurd hi List.not_mem_nil
  | cons j rest ih =>
      rw [List.foldl_cons, List.foldl_cons]
      rcases List.mem_cons.mp hi with rfl | hi
      · rw [hidem s i hs]
      · rw [hcomm s i j hs, ih hi (hinv s j hs)]

theorem foldl_absorb_list {l l' : List ι} (hsub : ∀ i ∈ l', i ∈ l) {s : σ} (hs : Inv s) :
    l.foldl f (l'.foldl f s) = l.foldl f s := by
  induction l' generalizing s with
  | nil => rfl
  | cons i rest ih =>
      rw [List.foldl_cons, ih (fun j hj => hsub j (List.mem_cons_of_mem _ hj)) (hinv s i hs),
        foldl_absorb hinv hcomm hidem (hsub i List.mem_cons_self) hs]

/-- **A fold of commuting idempotent operations depends only on which of them are applied.** -/
theorem foldl_eq_of_mem_iff {l l' : List ι} (h : ∀ i, i ∈ l ↔ i ∈ l') {s : σ} (hs : Inv s) :
    l.foldl f s = l'.foldl f s := by
  calc l.foldl f s = l.foldl f (l'.foldl f s) :=
        (foldl_absorb_list hinv hcomm hidem (fun i hi => (h i).mpr hi) hs).symm
    _ = l'.foldl f (l.foldl f s) := foldl_swap hinv hcomm l l' hs
    _ = l'.foldl f s := foldl_absorb_list hinv hcomm hidem (fun i hi => (h i).mp hi) hs

end Sets

section Counts

/-- An operation that always makes a number larger tells its repetitions apart. -/
theorem iterate_eq_iff {grow : ℕ → ℕ} (hgrow : ∀ x, x < grow x) (x m n : ℕ) : grow^[m] x = grow^[n] x ↔ m = n := by
  have hmono : StrictMono fun n => grow^[n] x := by
    refine strictMono_nat_of_lt_succ fun n => ?_
    rw [Function.iterate_succ_apply']
    exact hgrow _
  exact hmono.injective.eq_iff

variable {α : Type*}

/-- Of two counts over one list, the one with the stronger condition is as large as the other exactly if the
conditions agree there. -/
theorem countP_eq_iff {p q : α → Bool} {l : List α} (h : ∀ a ∈ l, p a = true → q a = true) :
    l.countP p = l.countP q ↔ ∀ a ∈ l, q a = true → p a = true := by
  constructor
  · induction l with
    | nil => exact fun _ a ha => absurd ha List.not_mem_nil
    | cons b rest ih =>
        intro heq
        have hrest : ∀ a ∈ rest, p a = true → q a = true := fun a ha => h a (List.mem_cons_of_mem _ ha)
        have hle : rest.countP p ≤ rest.countP q := List.countP_mono_left hrest
        have hhead := h b List.mem_cons_self
        rw [List.countP_cons, List.countP_cons] at heq
        cases hp : p b with
        | true =>
            rw [hp, hhead hp] at heq
            exact List.forall_mem_cons.mpr ⟨fun _ => hp, ih hrest (Nat.add_right_cancel heq)⟩
        | false =>
            cases hq : q b with
            | true =>
                rw [hp, hq] at heq
                simp only [Bool.false_eq_true, if_false, if_true] at heq
                omega
            | false =>
                rw [hp, hq] at heq
                refine List.forall_mem_cons.mpr ⟨fun h => ?_, ih hrest (Nat.add_right_cancel heq)⟩
                rw [hq] at h
                cases h
  · intro hback
    exact List.countP_congr fun a ha => ⟨h a ha, hback a ha⟩

end Counts

end Folding
