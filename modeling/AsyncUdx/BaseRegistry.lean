import Mathlib.Logic.Function.Basic

/-! A registry with delayed removal, apart from any protocol. Owners register under a key; an owner that stops
announces its key, and the entry is removed when the registry gets to the announcement. The announcement names
the key and not the owner, so it must not outlive the next registration under the same key. -/

namespace Registry

/-- What matters about a registry: its table, the key each owner has registered under, which owners are live,
and which keys are announced as stopped and not removed yet. -/
structure View (κ ν : Type*) where
  table : κ → Option ν
  key : ν → Option κ
  live : ν → Prop
  announced : κ → Prop

variable {κ ν : Type*}

/-- No live owner has registered under a key. -/
def View.Vacant (v : View κ ν) (k : κ) : Prop := ∀ n, v.key n = some k → ¬v.live n

/-- The steps of a registry. -/
inductive Step [DecidableEq κ] [DecidableEq ν] (v w : View κ ν) : Prop
  /-- Owners may stop silently and announcements may be lost. -/
  | idle (htable : w.table = v.table) (hkey : w.key = v.key) (hlive : ∀ n, w.live n → v.live n)
      (hannounced : ∀ k, w.announced k → v.announced k)
  /-- A new owner registers under a key that is vacant and not announced. -/
  | register (k : κ) (n : ν) (hfresh : v.key n = none) (hvacant : v.Vacant k) (hclear : ¬v.announced k)
      (htable : w.table = Function.update v.table k (some n)) (hkey : w.key = Function.update v.key n (some k))
      (hlive : ∀ m, w.live m → m = n ∨ v.live m) (hannounced : ∀ k', w.announced k' → v.announced k')
  /-- An owner stops and announces its key. -/
  | stop (k : κ) (n : ν) (howner : v.key n = some k) (hbefore : v.live n) (htable : w.table = v.table)
      (hkey : w.key = v.key) (hlive : ∀ m, w.live m → m ≠ n ∧ v.live m)
      (hannounced : ∀ k', w.announced k' → k' = k ∨ v.announced k')
  /-- The entry of a vacant key is removed. -/
  | remove (k : κ) (hvacant : v.Vacant k) (htable : w.table = Function.update v.table k none)
      (hkey : w.key = v.key) (hlive : ∀ n, w.live n → v.live n) (hannounced : ∀ k', w.announced k' → v.announced k')

/-- Every live owner is the one registered under its key. -/
structure Consistent (v : View κ ν) : Prop where
  registered : ∀ n k, v.live n → v.key n = some k → v.table k = some n
  owner : ∀ k n, v.table k = some n → v.key n = some k
  vacant : ∀ k, v.announced k → v.Vacant k

namespace Consistent

variable {v w : View κ ν} (hv : Consistent v)

include hv

theorem idle (htable : w.table = v.table) (hkey : w.key = v.key) (hlive : ∀ n, w.live n → v.live n)
    (hannounced : ∀ k, w.announced k → v.announced k) : Consistent w where
  registered := fun n k hn hk => by
    rw [htable]
    exact hv.registered n k (hlive n hn) (hkey ▸ hk)
  owner := fun k n hk => by
    rw [hkey]
    exact hv.owner k n (htable ▸ hk)
  vacant := fun k hk n hn hlives => hv.vacant k (hannounced k hk) n (hkey ▸ hn) (hlive n hlives)

/-- The only owner under the new key is the new one. -/
theorem register [DecidableEq κ] [DecidableEq ν] {k : κ} {n : ν} (hfresh : v.key n = none) (hvacant : v.Vacant k)
    (hclear : ¬v.announced k) (htable : w.table = Function.update v.table k (some n))
    (hkey : w.key = Function.update v.key n (some k)) (hlive : ∀ m, w.live m → m = n ∨ v.live m)
    (hannounced : ∀ k', w.announced k' → v.announced k') : Consistent w := by
  have hnew : w.key n = some k := by rw [hkey, Function.update_self]
  have hold : ∀ m, m ≠ n → w.key m = v.key m := fun m hne => by rw [hkey, Function.update_of_ne hne]
  refine ⟨fun m k' hm hk' => ?_, fun k' m hk' => ?_, fun k' hk' m hm hlives => ?_⟩
  · by_cases hne : m = n
    · subst hne
      rw [hnew, Option.some_inj] at hk'
      rw [htable, ← hk', Function.update_self]
    · have hbefore := (hlive m hm).resolve_left hne
      rw [hold m hne] at hk'
      have hother : k' ≠ k := by
        rintro rfl
        exact hvacant m hk' hbefore
      rw [htable, Function.update_of_ne hother]
      exact hv.registered m k' hbefore hk'
  · by_cases hk : k' = k
    · subst hk
      rw [htable, Function.update_self, Option.some_inj] at hk'
      rw [← hk', hnew]
    · rw [htable, Function.update_of_ne hk] at hk'
      have howner := hv.owner k' m hk'
      have hne : m ≠ n := by
        rintro rfl
        rw [hfresh] at howner
        cases howner
      rw [hold m hne, howner]
  · by_cases hne : m = n
    · subst hne
      rw [hnew, Option.some_inj] at hm
      exact hclear (hm ▸ hannounced k' hk')
    · rw [hold m hne] at hm
      exact hv.vacant k' (hannounced k' hk') m hm ((hlive m hlives).resolve_left hne)

/-- Two live owners under one key would both be in its entry. -/
theorem owner_unique {k : κ} {n : ν} (howner : v.key n = some k) (hbefore : v.live n) {m : ν}
    (hm : v.key m = some k) (hlive : v.live m) : m = n :=
  Option.some.inj ((hv.registered m k hlive hm).symm.trans (hv.registered n k hbefore howner))

theorem stop {k : κ} {n : ν} (howner : v.key n = some k) (hbefore : v.live n) (htable : w.table = v.table)
    (hkey : w.key = v.key) (hlive : ∀ m, w.live m → m ≠ n ∧ v.live m)
    (hannounced : ∀ k', w.announced k' → k' = k ∨ v.announced k') : Consistent w where
  registered := fun m k' hm hk' => by
    rw [htable]
    exact hv.registered m k' (hlive m hm).2 (hkey ▸ hk')
  owner := fun k' m hk' => by
    rw [hkey]
    exact hv.owner k' m (htable ▸ hk')
  vacant := fun k' hk' m hm hlives => by
    rw [hkey] at hm
    rcases hannounced k' hk' with rfl | hold
    · exact (hlive m hlives).1 (hv.owner_unique howner hbefore hm (hlive m hlives).2)
    · exact hv.vacant k' hold m hm (hlive m hlives).2

theorem remove [DecidableEq κ] {k : κ} (hvacant : v.Vacant k) (htable : w.table = Function.update v.table k none)
    (hkey : w.key = v.key) (hlive : ∀ n, w.live n → v.live n)
    (hannounced : ∀ k', w.announced k' → v.announced k') : Consistent w where
  registered := fun m k' hm hk' => by
    have hne : k' ≠ k := by
      rintro rfl
      exact hvacant m (hkey ▸ hk') (hlive m hm)
    rw [htable, Function.update_of_ne hne]
    exact hv.registered m k' (hlive m hm) (hkey ▸ hk')
  owner := fun k' m hk' => by
    have hne : k' ≠ k := by
      rintro rfl
      rw [htable, Function.update_self] at hk'
      cases hk'
    rw [htable, Function.update_of_ne hne] at hk'
    rw [hkey]
    exact hv.owner k' m hk'
  vacant := fun k' hk' m hm hlives => hv.vacant k' (hannounced k' hk') m (hkey ▸ hm) (hlive m hlives)

/-- **A registry stays consistent.** -/
theorem step [DecidableEq κ] [DecidableEq ν] (h : Step v w) : Consistent w := by
  cases h with
  | idle htable hkey hlive hannounced => exact hv.idle htable hkey hlive hannounced
  | register k n hfresh hvacant hclear htable hkey hlive hannounced =>
      exact hv.register hfresh hvacant hclear htable hkey hlive hannounced
  | stop k n howner hbefore htable hkey hlive hannounced =>
      exact hv.stop howner hbefore htable hkey hlive hannounced
  | remove k hvacant htable hkey hlive hannounced => exact hv.remove hvacant htable hkey hlive hannounced

end Consistent

end Registry
