import Mathlib.Algebra.GroupWithZero.Nat
import Mathlib.Data.List.Basic

/-! Records one after the other in a buffer: numbers that take a fixed number of bytes, least significant byte first,
and a cursor that gets from the start of one record to the start of the next. -/

namespace Records

/-! ### Numbers -/

/-- A number in a fixed number of bytes; what does not fit is lost. -/
def leBytes : ℕ → ℕ → List UInt8
  | 0, _ => []
  | width + 1, n => UInt8.ofNat n :: leBytes width (n / 256)

def leValue (bytes : List UInt8) : ℕ := bytes.foldr (fun byte rest => byte.toNat + 256 * rest) 0

@[simp] theorem length_leBytes (width n : ℕ) : (leBytes width n).length = width := by
  induction width generalizing n with
  | zero => rfl
  | succ width ih => exact congrArg (· + 1) (ih (n / 256))

theorem leValue_leBytes (width n : ℕ) : leValue (leBytes width n) = n % 256 ^ width := by
  induction width generalizing n with
  | zero => exact (Nat.mod_one n).symm
  | succ width ih =>
      have hrest : leValue (leBytes width (n / 256)) = n / 256 % 256 ^ width := ih (n / 256)
      calc leValue (leBytes (width + 1) n) = n % 256 + 256 * leValue (leBytes width (n / 256)) :=
            congrArg (· + _) UInt8.toNat_ofNat'
        _ = n % 256 + 256 * (n / 256 % 256 ^ width) := by rw [hrest]
        _ = n % 256 ^ (width + 1) := by rw [Nat.pow_succ', Nat.mod_mul]

theorem leValue_zeros (width : ℕ) : leValue (List.replicate width 0) = 0 := by
  induction width with
  | zero => rfl
  | succ width ih => exact (congrArg (fun rest => 0 + 256 * rest) ih)

/-! ### A cursor -/

/-- The positions at which a cursor stands until it stops. There is no result as long as it has not stopped. -/
def visits (next : ℕ → Option ℕ) : ℕ → Option ℕ → Option (List ℕ)
  | _, none => some []
  | 0, some _ => none
  | fuel + 1, some i => (visits next fuel (next i)).map (i :: ·)

/-- A loop over the positions at which a cursor stands, which may fail. There is no result as long as the cursor has
not stopped. -/
def visitM {β ε : Type*} (next : ℕ → Option ℕ) (f : β → ℕ → Except ε β) : ℕ → Option ℕ → β → Option (Except ε β)
  | _, none, b => some (.ok b)
  | 0, some _, _ => none
  | fuel + 1, some i, b =>
      match f b i with
      | .error err => some (.error err)
      | .ok b => visitM next f fuel (next i) b

/-- Where records of these sizes begin. -/
def offsets (start : ℕ) : List ℕ → List ℕ
  | [] => []
  | size :: rest => start :: offsets (start + size) rest

/-- The cursor moves over records of these sizes and stops at the last one. -/
def Walks (next : ℕ → Option ℕ) (start : ℕ) : List ℕ → Prop
  | [] => True
  | size :: rest => next start = (if rest = [] then none else some (start + size)) ∧ Walks next (start + size) rest

theorem visits_walks {next : ℕ → Option ℕ} {start : ℕ} {sizes : List ℕ} (hwalks : Walks next start sizes) {fuel : ℕ}
    (hfuel : sizes.length ≤ fuel) :
    visits next fuel (if sizes = [] then none else some start) = some (offsets start sizes) := by
  induction sizes generalizing start fuel with
  | nil => cases fuel <;> rfl
  | cons size rest ih =>
      cases fuel with
      | zero => exact absurd hfuel (Nat.not_succ_le_zero _)
      | succ fuel =>
          rw [if_neg (List.cons_ne_nil size rest), visits, hwalks.1, ih hwalks.2 (Nat.le_of_succ_le_succ hfuel)]
          rfl

/-- A loop of the cursor over records is a loop over where they begin. -/
theorem visitM_walks {β ε : Type*} {next : ℕ → Option ℕ} {f : β → ℕ → Except ε β} {start : ℕ} {sizes : List ℕ}
    (hwalks : Walks next start sizes) {fuel : ℕ} (hfuel : sizes.length ≤ fuel) (b : β) :
    visitM next f fuel (if sizes = [] then none else some start) b = some ((offsets start sizes).foldlM f b) := by
  induction sizes generalizing start fuel b with
  | nil => cases fuel <;> rfl
  | cons size rest ih =>
      cases fuel with
      | zero => exact absurd hfuel (Nat.not_succ_le_zero _)
      | succ fuel =>
          rw [if_neg (List.cons_ne_nil size rest), visitM, offsets, List.foldlM_cons, hwalks.1]
          cases f b start with
          | error err => rfl
          | ok b => exact ih hwalks.2 (Nat.le_of_succ_le_succ hfuel) b

end Records
