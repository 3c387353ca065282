import Mathlib.Data.List.AList
import Mathlib.Algebra.BigOperators.Group.List.Basic
import Mathlib.Algebra.GroupWithZero.Nat
import Mathlib.Data.List.Lemmas

/-! Weights over finite maps. An association list with distinct keys is summed entry by entry, and the
sum is followed through insertion, removal and replacement of one key. The order of the entries plays
no role: every statement goes through the permutation that brings one key to the front. -/

namespace AList

variable {α : Type*} {β : Type*} (weight : α → β → Nat)

/-- The sum of a weight over the entries of a map. -/
def total (m : AList fun _ : α => β) : Nat := (m.entries.map fun e => weight e.1 e.2).sum

/-- The number of entries of a map. -/
def size (m : AList fun _ : α => β) : Nat := m.entries.length

variable [DecidableEq α]

/-- The entry of a key can be brought to the front. -/
theorem entries_perm_of_lookup {m : AList fun _ : α => β} {a : α} {b : β} (h : m.lookup a = some b) :
    m.entries.Perm (⟨a, b⟩ :: (m.erase a).entries) := by
  obtain ⟨entries, hnodup⟩ := m
  change entries.dlookup a = some b at h
  change entries.Perm (⟨a, b⟩ :: entries.kerase a)
  clear hnodup
  induction entries with
  | nil => simp at h
  | cons e rest ih =>
      obtain ⟨a', b'⟩ := e
      by_cases ha : a = a'
      · subst ha
        rw [List.dlookup_cons_eq] at h
        cases h
        have hfront : List.kerase a (⟨a, b⟩ :: rest) = rest := List.kerase_cons_eq rfl
        rw [hfront]
      · rw [List.dlookup_cons_ne _ _ ha] at h
        rw [List.kerase_cons_ne ha]
        exact ((ih h).cons _).trans (List.Perm.swap _ _ _)

theorem total_of_lookup {m : AList fun _ : α => β} {a : α} {b : β} (h : m.lookup a = some b) :
    total weight m = weight a b + total weight (m.erase a) := by
  unfold total
  rw [((entries_perm_of_lookup h).map _).sum_eq, List.map_cons, List.sum_cons]

theorem size_of_lookup {m : AList fun _ : α => β} {a : α} {b : β} (h : m.lookup a = some b) :
    size m = size (m.erase a) + 1 := by
  unfold size
  rw [(entries_perm_of_lookup h).length_eq, List.length_cons]

theorem total_insert (m : AList fun _ : α => β) (a : α) (b : β) :
    total weight (m.insert a b) = weight a b + total weight (m.erase a) := rfl

theorem size_insert (m : AList fun _ : α => β) (a : α) (b : β) :
    size (m.insert a b) = size (m.erase a) + 1 := rfl

theorem erase_of_notMem {m : AList fun _ : α => β} {a : α} (h : a ∉ m) : m.erase a = m :=
  AList.ext (List.kerase_of_notMem_keys h)

theorem total_insert_of_notMem {m : AList fun _ : α => β} {a : α} (b : β) (h : a ∉ m) :
    total weight (m.insert a b) = weight a b + total weight m := by
  rw [total_insert, erase_of_notMem h]

theorem size_insert_of_notMem {m : AList fun _ : α => β} {a : α} (b : β) (h : a ∉ m) :
    size (m.insert a b) = size m + 1 := by
  rw [size_insert, erase_of_notMem h]

/-- Replacing the value of a key exchanges its weight. -/
theorem total_replace {m : AList fun _ : α => β} {a : α} {b : β} (c : β) (h : m.lookup a = some b) :
    total weight (m.insert a c) + weight a b = weight a c + total weight m := by
  rw [total_insert, total_of_lookup weight h]
  omega

theorem size_replace {m : AList fun _ : α => β} {a : α} {b : β} (c : β) (h : m.lookup a = some b) :
    size (m.insert a c) = size m := by
  rw [size_insert, size_of_lookup h]

theorem weight_le_total {m : AList fun _ : α => β} {a : α} {b : β} (h : m.lookup a = some b) :
    weight a b ≤ total weight m := by
  rw [total_of_lookup weight h]
  exact Nat.le_add_right _ _

/-- What a lookup finds after an insertion: the new value, or what was there. -/
theorem lookup_insert_eq_some {m : AList fun _ : α => β} {a k : α} {b c : β}
    (h : (m.insert a b).lookup k = some c) : k = a ∧ c = b ∨ k ≠ a ∧ m.lookup k = some c := by
  by_cases hk : k = a
  · subst hk
    rw [AList.lookup_insert] at h
    cases h
    exact Or.inl ⟨rfl, rfl⟩
  · rw [AList.lookup_insert_ne hk] at h
    exact Or.inr ⟨hk, h⟩

theorem lookup_erase_eq_some {m : AList fun _ : α => β} {a k : α} {c : β}
    (h : (m.erase a).lookup k = some c) : k ≠ a ∧ m.lookup k = some c := by
  by_cases hk : k = a
  · subst hk
    rw [AList.lookup_erase] at h
    cases h
  · rw [AList.lookup_erase_ne hk] at h
    exact ⟨hk, h⟩

theorem mem_of_lookup {m : AList fun _ : α => β} {a : α} {b : β} (h : m.lookup a = some b) : a ∈ m :=
  AList.lookup_isSome.mp (by rw [h]; rfl)

theorem notMem_of_isEmpty {m : AList fun _ : α => β} (h : m.entries.isEmpty = true) (a : α) : a ∉ m := by
  rw [← AList.lookup_eq_none, AList.lookup, List.isEmpty_iff.mp h]
  rfl

theorem exists_lookup_of_mem {m : AList fun _ : α => β} {a : α} (h : a ∈ m) :
    ∃ b, m.lookup a = some b :=
  Option.isSome_iff_exists.mp (AList.lookup_isSome.mpr h)

theorem exists_lookup_of_entries {m : AList fun _ : α => β} (h : m.entries ≠ []) :
    ∃ a b, m.lookup a = some b := by
  obtain ⟨e, rest, hentries⟩ := List.exists_cons_of_ne_nil h
  have hmem : e.1 ∈ m.keys := by
    rw [AList.keys, List.keys, hentries]
    exact List.mem_cons_self
  exact ⟨e.1, exists_lookup_of_mem hmem⟩

theorem exists_lookup_of_total_pos {m : AList fun _ : α => β} (h : 0 < total weight m) :
    ∃ a b, m.lookup a = some b ∧ 0 < weight a b := by
  by_contra hnone
  refine Nat.lt_irrefl 0 (h.trans_eq (List.sum_eq_zero fun n hn => ?_))
  obtain ⟨e, he, rfl⟩ := List.mem_map.mp hn
  by_contra hpos
  exact hnone ⟨e.1, e.2, mem_lookup_iff.mpr he, Nat.pos_of_ne_zero hpos⟩

theorem entries_eq_nil {m : AList fun _ : α => β} (h : ∀ a, m.lookup a = none) : m.entries = [] := by
  by_contra hne
  obtain ⟨a, b, hab⟩ := exists_lookup_of_entries hne
  rw [h a] at hab
  cases hab

theorem lookup_of_entries_nil {m : AList fun _ : α => β} (h : m.entries = []) (a : α) : m.lookup a = none :=
  lookup_eq_none.mpr (notMem_of_isEmpty (List.isEmpty_iff.mpr h) a)

end AList
