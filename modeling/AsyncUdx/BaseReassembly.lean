import Mathlib.Data.List.Basic
import Mathlib.Tactic.ByContra

/-! The receiving end of a numbered channel, apart from any protocol: the least number that has not
arrived, a reader that goes through numbered chunks in order, stopping anywhere inside of them, and data cut into
pieces of one length. -/

namespace Reassembly

/-! ### The least missing number -/

/-- Everything below `next` has arrived, and `next` has not. -/
def LeastMissing {κ : Type*} [LT κ] (received : List κ) (next : κ) : Prop :=
  next ∉ received ∧ ∀ k < next, k ∈ received

section

variable {κ : Type*} [LE κ] [LT κ] [Std.IsLinearOrder κ] [Std.LawfulOrderLT κ]

/-- The least missing number depends only on which numbers have arrived. -/
theorem LeastMissing.unique {received received' : List κ} {next next' : κ} (h : LeastMissing received next)
    (h' : LeastMissing received' next') (hsame : ∀ k, k ∈ received ↔ k ∈ received') : next = next' := by
  rcases Std.lt_trichotomy next next' with hlt | heq | hgt
  · exact absurd ((hsame next).mpr (h'.2 next hlt)) h.1
  · exact heq
  · exact absurd ((hsame next').mp (h.2 next' hgt)) h'.1

/-- A number that never arrives bounds the least missing one. -/
theorem LeastMissing.le_of_notMem {received : List κ} {next m : κ} (h : LeastMissing received next)
    (hm : m ∉ received) : next ≤ m := by
  by_contra hlt
  exact hm (h.2 m (Std.not_le.mp hlt))

end

/-! ### Reading through chunks -/

section

variable {α : Type*} (chunk : Nat → List α)

/-- What a reader has seen after `cursor` whole chunks and `offset` elements of the next one. -/
def consumed (cursor offset : Nat) : List α := (List.range cursor).flatMap chunk ++ (chunk cursor).take offset

/-- Reading on inside of a chunk. -/
theorem consumed_part (cursor offset n : Nat) :
    consumed chunk cursor (offset + n) = consumed chunk cursor offset ++ ((chunk cursor).drop offset).take n := by
  rw [consumed, consumed, List.append_assoc, List.take_add]

/-- Reading to the end of a chunk. -/
theorem consumed_whole (cursor offset : Nat) :
    consumed chunk (cursor + 1) 0 = consumed chunk cursor offset ++ (chunk cursor).drop offset := by
  rw [consumed, consumed, List.append_assoc, List.take_append_drop, List.range_succ, List.flatMap_append,
    List.flatMap_singleton, List.take_zero, List.append_nil]

/-- Only the chunks that were read matter. -/
theorem consumed_congr {chunk' : Nat → List α} {cursor offset : Nat} (hwhole : ∀ k < cursor, chunk k = chunk' k)
    (hpart : offset = 0 ∨ chunk cursor = chunk' cursor) :
    consumed chunk cursor offset = consumed chunk' cursor offset := by
  have hrange : (List.range cursor).flatMap chunk = (List.range cursor).flatMap chunk' :=
    List.flatMap_congr fun k hk => hwhole k (List.mem_range.mp hk)
  rcases hpart with rfl | hpart
  · rw [consumed, consumed, hrange, List.take_zero, List.take_zero]
  · rw [consumed, consumed, hrange, hpart]

theorem flatten_split (chunks : List (List α)) (n : Nat) :
    chunks.flatten = (chunks.take n).flatten ++ (chunks.drop n).flatten := by
  rw [← List.flatten_append, List.take_append_drop]

section

variable {chunk} {chunks : List (List α)} {cursor offset : Nat} (hwhole : ∀ k < cursor, chunks[k]? = some (chunk k))

include hwhole

/-- What a reader of the chunks of a list has seen. -/
theorem consumed_eq_take (offset : Nat) :
    consumed chunk cursor offset = (chunks.take cursor).flatten ++ (chunk cursor).take offset := by
  have htake : (List.range cursor).map chunk = chunks.take cursor := by
    apply List.ext_getElem?
    intro k
    rw [List.getElem?_map, List.getElem?_take]
    split
    · rename_i hk
      rw [List.getElem?_range hk, hwhole k hk, Option.map_some]
    · rename_i hk
      rw [List.getElem?_eq_none (by rw [List.length_range]; omega), Option.map_none]
  rw [consumed, List.flatMap_def, htake]

/-- A reader of the chunks of a list has seen a beginning of their concatenation. -/
theorem consumed_prefix (hpart : offset = 0 ∨ chunks[cursor]? = some (chunk cursor)) :
    consumed chunk cursor offset <+: chunks.flatten := by
  rw [consumed_eq_take hwhole, flatten_split chunks cursor]
  apply (List.prefix_append_right_inj _).mpr
  rcases hpart with rfl | hpart
  · rw [List.take_zero]
    exact List.nil_prefix
  · obtain ⟨hlt, hchunk⟩ := List.getElem?_eq_some_iff.mp hpart
    rw [List.drop_eq_getElem_cons hlt, hchunk, List.flatten_cons]
    exact (List.take_prefix _ _).trans (List.prefix_append _ _)

/-- A reader that stops before the end of a chunk has seen everything exactly if no chunk is left. -/
theorem consumed_eq_flatten_iff (hne : ∀ c ∈ chunks, c ≠ [])
    (hpart : offset = 0 ∨ chunks[cursor]? = some (chunk cursor) ∧ offset < (chunk cursor).length)
    (hle : cursor ≤ chunks.length) : consumed chunk cursor offset = chunks.flatten ↔ cursor = chunks.length := by
  rw [consumed_eq_take hwhole, flatten_split chunks cursor, List.append_cancel_left_eq]
  constructor
  · intro heq
    by_contra hlt
    have hcursor : cursor < chunks.length := by omega
    have hpos : 0 < chunks[cursor].length := List.length_pos_iff.mpr (hne _ (List.getElem_mem hcursor))
    have hlen := congrArg List.length heq
    rw [List.drop_eq_getElem_cons hcursor, List.flatten_cons, List.length_append, List.length_take] at hlen
    rcases hpart with rfl | ⟨hchunk, hshort⟩
    · omega
    · rw [(List.getElem?_eq_some_iff.mp hchunk).2] at hlen
      omega
  · rintro rfl
    have hzero : offset = 0 := by
      refine hpart.resolve_right fun h => ?_
      rw [List.getElem?_eq_none (Nat.le_refl _)] at h
      cases h.1
    rw [hzero, List.take_zero, List.drop_length, List.flatten_nil]

end

end

/-! ### Cutting into pieces of one length -/

section

variable {α : Type*}

/-- A list cut into consecutive pieces of length `size`; the last one may be shorter. -/
def cut (size : Nat) (l : List α) : List (List α) :=
  (List.range ((l.length + size - 1) / size)).map fun n => (l.drop (n * size)).take size

theorem cut_nil (size : Nat) : cut size ([] : List α) = [] := by
  rw [cut, List.length_nil, Nat.zero_add]
  rcases Nat.eq_zero_or_pos size with rfl | hpos
  · rfl
  · rw [Nat.div_eq_of_lt (by omega)]
    rfl

theorem cut_append {size : Nat} (hpos : 0 < size) {piece : List α} (hlen : piece.length = size) (l : List α) :
    cut size (piece ++ l) = piece :: cut size l := by
  have hcount : ((piece ++ l).length + size - 1) / size = (l.length + size - 1) / size + 1 := by
    rw [List.length_append, hlen, ← Nat.add_div_right _ hpos]
    congr 1
    omega
  rw [cut, hcount, List.range_succ_eq_map, List.map_cons, List.map_map]
  congr 1
  · rw [Nat.zero_mul, List.drop_zero, List.take_append_of_le_length (Nat.le_of_eq hlen.symm),
      List.take_of_length_le (Nat.le_of_eq hlen)]
  · refine List.map_congr_left fun n _ => ?_
    change ((piece ++ l).drop ((n + 1) * size)).take size = _
    rw [Nat.succ_mul, Nat.add_comm, ← List.drop_drop, List.drop_append_of_le_length (Nat.le_of_eq hlen.symm),
      ← hlen, List.drop_length,
      List.nil_append]

/-- Pieces of one length that are put together are cut apart again. -/
theorem cut_flatten {size : Nat} (hpos : 0 < size) {pieces : List (List α)}
    (hlen : ∀ piece ∈ pieces, piece.length = size) : cut size pieces.flatten = pieces := by
  induction pieces with
  | nil => exact cut_nil size
  | cons piece rest ih =>
      rw [List.flatten_cons, cut_append hpos (hlen piece List.mem_cons_self),
        ih fun other h => hlen other (List.mem_cons_of_mem _ h)]

end

end Reassembly
