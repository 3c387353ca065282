import Mathlib.Data.List.Chain

/-! Grouping a list from left to right into runs of elements with equal keys, with a bound on the length of a run. -/

namespace Groups

variable {α κ : Type*} (key : α → κ) (limit : ℕ)

/-- A list cut into groups: each of them has elements, no more than the limit and all with one key, and is followed by
another group only because it is full or the keys differ. -/
structure IsGrouping (l : List α) (groups : List (List α)) : Prop where
  flatten_eq : groups.flatten = l
  ne_nil : ∀ group ∈ groups, group ≠ []
  length_le : ∀ group ∈ groups, group.length ≤ limit
  same_key : ∀ group ∈ groups, ∀ a ∈ group, ∀ b ∈ group, key a = key b
  maximal : groups.IsChain fun first second => first.length = limit ∨ ∃ a ∈ first, ∃ b ∈ second, key a ≠ key b

variable {key limit}

/-- One more group in front. -/
theorem IsGrouping.cons {l group first : List α} {others : List (List α)}
    (h : IsGrouping key limit l (first :: others)) (hne : group ≠ []) (hlen : group.length ≤ limit)
    (hsame : ∀ a ∈ group, ∀ b ∈ group, key a = key b)
    (hsplit : group.length = limit ∨ ∃ a ∈ group, ∃ b ∈ first, key a ≠ key b) :
    IsGrouping key limit (group ++ l) (group :: first :: others) where
  flatten_eq := by rw [List.flatten_cons, h.flatten_eq]
  ne_nil := List.forall_mem_cons.mpr ⟨hne, h.ne_nil⟩
  length_le := List.forall_mem_cons.mpr ⟨hlen, h.length_le⟩
  same_key := List.forall_mem_cons.mpr ⟨hsame, h.same_key⟩
  maximal := h.maximal.cons_cons hsplit

theorem IsGrouping.singleton {group : List α} (hne : group ≠ []) (hlen : group.length ≤ limit)
    (hsame : ∀ a ∈ group, ∀ b ∈ group, key a = key b) : IsGrouping key limit group [group] where
  flatten_eq := List.flatten_singleton
  ne_nil := by simpa using hne
  length_le := by simpa using hlen
  same_key := by simpa using hsame
  maximal := .singleton group

variable [DecidableEq κ]

variable (key limit) in
/-- The groups of a list, with the elements in `group` collected before. -/
def collect : List α → List α → List (List α)
  | group, [] => if group.isEmpty then [] else [group]
  | group, a :: rest =>
      if group.isEmpty = false ∧ (group.length = limit ∨ ∃ b ∈ group, key b ≠ key a) then group :: collect [a] rest
      else collect (group ++ [a]) rest

theorem collect_nil_cons (a : α) (rest : List α) : collect key limit [] (a :: rest) = collect key limit [a] rest := by
  simp [collect]

/-- The group that is open becomes the first one. -/
theorem collect_head {group : List α} (hne : group ≠ []) (l : List α) :
    ∃ more others, collect key limit group l = (group ++ more) :: others := by
  induction l generalizing group with
  | nil => exact ⟨[], [], by simp [collect, hne]⟩
  | cons a rest ih =>
      rw [collect]
      split_ifs with hsplit
      · exact ⟨[], _, by rw [List.append_nil]⟩
      · obtain ⟨more, others, heq⟩ := ih (List.append_ne_nil_of_right_ne_nil group (List.cons_ne_nil a []))
        exact ⟨a :: more, others, by rw [heq, List.append_assoc]; rfl⟩

/-- An element that does not start a group fits the one that is open. -/
theorem extend_of_not_split (hlimit : 0 < limit) {group : List α} (hlen : group.length ≤ limit) {a : α}
    (h : ¬(group.isEmpty = false ∧ (group.length = limit ∨ ∃ b ∈ group, key b ≠ key a))) :
    (group ++ [a]).length ≤ limit ∧ ∀ b ∈ group ++ [a], ∀ c ∈ group ++ [a], key b = key c := by
  have hkey : ∀ b ∈ group, key b = key a := by
    intro b hb
    by_contra hne
    exact h ⟨by simpa using List.ne_nil_of_mem hb, Or.inr ⟨b, hb, hne⟩⟩
  constructor
  · rw [List.length_append, List.length_singleton]
    rcases Nat.eq_zero_or_pos group.length with hzero | hpos
    · omega
    · have hfull : group.length ≠ limit := fun hfull =>
        h ⟨by simpa using List.length_pos_iff.mp hpos, Or.inl hfull⟩
      omega
  · intro b hb c hc
    have hall : ∀ d ∈ group ++ [a], key d = key a := by
      simpa [or_imp, forall_and] using hkey
    rw [hall b hb, hall c hc]

/-- **Collecting groups a list.** -/
theorem collect_isGrouping (hlimit : 0 < limit) {group : List α} (hlen : group.length ≤ limit)
    (hsame : ∀ a ∈ group, ∀ b ∈ group, key a = key b) (l : List α) :
    IsGrouping key limit (group ++ l) (collect key limit group l) := by
  induction l generalizing group with
  | nil =>
      rw [collect, List.append_nil]
      split_ifs with hempty
      · rw [List.isEmpty_iff.mp hempty]
        exact ⟨rfl, by simp, by simp, by simp, .nil⟩
      · exact .singleton (by simpa using hempty) hlen hsame
  | cons a rest ih =>
      rw [collect]
      split_ifs with hsplit
      · obtain ⟨hempty, hsplit⟩ := hsplit
        have hrest : IsGrouping key limit (a :: rest) (collect key limit [a] rest) := @ih [a] hlimit (by simp)
        obtain ⟨more, others, heq⟩ : ∃ more others, collect key limit [a] rest = ([a] ++ more) :: others :=
          collect_head (List.cons_ne_nil a []) rest
        rw [heq] at hrest ⊢
        refine hrest.cons (by simpa using hempty) hlen hsame (hsplit.imp_right ?_)
        rintro ⟨b, hb, hne⟩
        exact ⟨b, hb, a, List.mem_cons_self, hne⟩
      · obtain ⟨hlen', hsame'⟩ := extend_of_not_split hlimit hlen hsplit
        rw [← List.singleton_append, ← List.append_assoc]
        exact ih hlen' hsame'

end Groups
