import Mathlib.Data.UInt
import Mathlib.Data.List.Range

/-! Thirty-two bit counters: the half-open ranges a `for` loop walks over, and increments that do not
wrap. -/

namespace Counter

/-- The values `start`, `start + 1`, ..., `stop - 1`, empty when `stop ≤ start`. -/
def range (start stop : UInt32) : List UInt32 :=
  (List.range' start.toNat (stop.toNat - start.toNat)).map UInt32.ofNat

theorem mem_range {start stop i : UInt32} : i ∈ range start stop ↔ start ≤ i ∧ i < stop := by
  have hstop := stop.toNat_lt
  simp only [range, List.mem_map, List.mem_range'_1]
  constructor
  · rintro ⟨n, hn, rfl⟩
    have hlt : n < 2 ^ 32 := by omega
    rw [UInt32.le_iff_toNat_le, UInt32.lt_iff_toNat_lt, UInt32.toNat_ofNat_of_lt' hlt]
    omega
  · rintro ⟨hle, hlt⟩
    rw [UInt32.le_iff_toNat_le] at hle
    rw [UInt32.lt_iff_toNat_lt] at hlt
    exact ⟨i.toNat, by omega, UInt32.ofNat_toNat⟩

/-- An increment below the largest value does not wrap. -/
theorem toNat_succ {a : UInt32} (h : a.toNat + 1 < 2 ^ 32) : (a + 1).toNat = a.toNat + 1 := by
  rw [UInt32.toNat_add]
  exact Nat.mod_eq_of_lt h

theorem toNat_succ_of_lt {a b : UInt32} (h : a < b) : (a + 1).toNat = a.toNat + 1 := by
  have hb := b.toNat_lt
  have hab := UInt32.lt_iff_toNat_lt.mp h
  exact toNat_succ (by omega)

theorem succ_sub_one (a : UInt32) : a + 1 - 1 = a := by
  rw [UInt32.add_sub_cancel]

theorem toNat_ofNat {n : Nat} (h : n < 2 ^ 32) : (UInt32.ofNat n).toNat = n :=
  UInt32.toNat_ofNat_of_lt' h

theorem ofNat_succ (n : Nat) : UInt32.ofNat n + 1 = UInt32.ofNat (n + 1) := (UInt32.ofNat_add n 1).symm

theorem ofNat_lt_succ {n : Nat} (h : n + 1 < 2 ^ 32) : UInt32.ofNat n < UInt32.ofNat (n + 1) := by
  rw [UInt32.lt_iff_toNat_lt, toNat_ofNat h, toNat_ofNat (Nat.lt_of_succ_lt h)]
  exact Nat.lt_succ_self n

theorem succ_ne_self (a : UInt32) : a + 1 ≠ a := by
  intro h
  have hzero : (1 : UInt32) = 0 := by
    have hsub := congrArg (· - a) h
    rwa [UInt32.add_comm, UInt32.add_sub_cancel, UInt32.sub_self] at hsub
  cases hzero

theorem range_of_le {start stop : UInt32} (h : stop ≤ start) : range start stop = [] := by
  rw [range, Nat.sub_eq_zero_of_le (UInt32.le_iff_toNat_le.mp h)]
  rfl

/-- The first value of a range, and the range from the next one on. -/
theorem range_eq_cons {start stop : UInt32} (h : start < stop) :
    range start stop = start :: range (start + 1) stop := by
  have hlt := UInt32.lt_iff_toNat_lt.mp h
  obtain ⟨n, hn⟩ : ∃ n, stop.toNat - start.toNat = n + 1 := ⟨stop.toNat - start.toNat - 1, by omega⟩
  have hrest : stop.toNat - (start.toNat + 1) = n := by omega
  rw [range, range, toNat_succ_of_lt h, hn, hrest, List.range'_succ, List.map_cons, UInt32.ofNat_toNat]

theorem range_increasing (start stop : UInt32) : (range start stop).Pairwise (· < ·) := by
  have hstop := stop.toNat_lt
  rw [range, List.pairwise_map]
  refine List.Pairwise.imp_of_mem (fun ha hb hlt => ?_) (List.pairwise_lt_range' _ Nat.one_pos)
  rw [List.mem_range'_1] at ha hb
  rw [UInt32.lt_iff_toNat_lt, toNat_ofNat (by omega), toNat_ofNat (by omega)]
  exact hlt

/-- The values from `start` on are what is left of those from zero on. -/
theorem drop_range (start stop : UInt32) : (range 0 stop).drop start.toNat = range start stop := by
  rw [range, range, ← List.map_drop, List.drop_range']
  simp only [UInt32.toNat_zero, Nat.zero_add, Nat.sub_zero, Nat.mul_one]

theorem ne_last_iff {a : UInt32} : a ≠ 0xffffffff ↔ a.toNat + 1 < 2 ^ 32 := by
  have hlast : (0xffffffff : UInt32).toNat = 2 ^ 32 - 1 := rfl
  have ha := a.toNat_lt
  rw [Ne, ← UInt32.toNat_inj, hlast]
  omega

theorem toNat_pred {n : UInt32} (hn : n ≠ 0) : (n - 1).toNat = n.toNat - 1 := by
  have hpos : n.toNat ≠ 0 := fun h => hn (UInt32.toNat.inj h)
  have hle : (1 : UInt32) ≤ n := UInt32.le_iff_toNat_le.mpr (Nat.pos_of_ne_zero hpos)
  rw [UInt32.toNat_sub_of_le n 1 hle]
  rfl

/-- The numbers up to `n` are zero and the successors of those up to the one before `n`. -/
theorem forall_le_iff_succ {P : UInt32 → Prop} {n : UInt32} (hn : n ≠ 0) :
    (∀ m ≤ n, P m) ↔ P 0 ∧ ∀ m ≤ n - 1, m + 1 ≠ 0 ∧ P (m + 1) := by
  have hnat := toNat_pred hn
  have hpos : n.toNat ≠ 0 := fun h => hn (UInt32.toNat.inj h)
  have hbound := n.toNat_lt
  constructor
  · intro h
    refine ⟨h 0 UInt32.zero_le, fun m hm => ?_⟩
    rw [UInt32.le_iff_toNat_le] at hm
    have hsucc : (m + 1).toNat = m.toNat + 1 := toNat_succ (by omega)
    refine ⟨fun hzero => ?_, h (m + 1) (UInt32.le_iff_toNat_le.mpr (by omega))⟩
    rw [hzero] at hsucc
    cases hsucc
  · rintro ⟨hzero, hrest⟩ m hm
    by_cases hm0 : m = 0
    · rw [hm0]
      exact hzero
    · have hpred := toNat_pred hm0
      rw [UInt32.le_iff_toNat_le] at hm
      have hlast := (hrest (m - 1) (UInt32.le_iff_toNat_le.mpr (by omega))).2
      rwa [UInt32.sub_add_cancel] at hlast

/-- `u32::max`. -/
def larger (a b : UInt32) : UInt32 := if a ≤ b then b else a

theorem larger_choice (a b : UInt32) : larger a b = a ∨ larger a b = b := by
  unfold larger
  split
  · exact Or.inr rfl
  · exact Or.inl rfl

theorem le_larger_right (a b : UInt32) : b ≤ larger a b := by
  unfold larger
  split
  · exact UInt32.le_refl b
  · exact UInt32.le_of_lt (UInt32.not_le.mp ‹_›)

theorem le_larger_left (a b : UInt32) : a ≤ larger a b := by
  unfold larger
  split
  · assumption
  · exact UInt32.le_refl a

theorem larger_of_le {a b : UInt32} (h : b ≤ a) : larger a b = a := by
  unfold larger
  split
  · exact UInt32.le_antisymm h ‹_›
  · rfl

theorem larger_lt_iff {a b c : UInt32} : larger a b < c ↔ a < c ∧ b < c := by
  unfold larger
  split
  · exact ⟨fun h => ⟨UInt32.lt_of_le_of_lt ‹_› h, h⟩, fun h => h.2⟩
  · exact ⟨fun h => ⟨h, UInt32.lt_trans (UInt32.not_le.mp ‹_›) h⟩, fun h => h.1⟩

theorem larger_assoc (a b c : UInt32) : larger (larger a b) c = larger a (larger b c) := by
  unfold larger
  grind

theorem larger_zero (a : UInt32) : larger a 0 = a := larger_of_le UInt32.zero_le

end Counter
