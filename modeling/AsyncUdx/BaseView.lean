import AsyncUdx.BaseMap
import AsyncUdx.BaseRun

/-! Views: what is left of a value when a part that does not matter is forgotten. A view of the values of a finite map
is one of the map, and a view that every step respects is respected by whole runs; so runs whose events look the same
end in states that look the same. -/

namespace AList

variable {α : Type*} {β γ : Type*} (f : β → γ)

/-- A finite map with every value replaced by its view. -/
def mapValues (m : AList fun _ : α => β) : AList fun _ : α => γ :=
  ⟨m.entries.map (.map id fun _ => f), List.NodupKeys.map₂ (fun _ => f) _ m.nodupKeys⟩

theorem mapValues_size (m : AList fun _ : α => β) : (m.mapValues f).size = m.size := List.length_map _

theorem mem_mapValues {m : AList fun _ : α => β} {a : α} : a ∈ m.mapValues f ↔ a ∈ m := by
  rw [AList.mem_keys, AList.mem_keys, AList.keys, mapValues, List.map₂_keys]
  rfl

variable [DecidableEq α]

theorem mapValues_lookup (m : AList fun _ : α => β) (a : α) : (m.mapValues f).lookup a = (m.lookup a).map f :=
  List.dlookup_map₂ a

theorem mapValues_erase (m : AList fun _ : α => β) (a : α) : (m.erase a).mapValues f = (m.mapValues f).erase a := by
  apply AList.ext
  change (m.entries.kerase a).map _ = (m.entries.map _).kerase a
  induction m.entries with
  | nil => rfl
  | cons e rest ih =>
      by_cases ha : a = e.1
      · rw [List.kerase_cons_eq ha, List.map_cons, List.kerase_cons_eq (by exact ha)]
      · rw [List.kerase_cons_ne ha, List.map_cons, List.map_cons, List.kerase_cons_ne (by exact ha), ih]

theorem mapValues_insert (m : AList fun _ : α => β) (a : α) (b : β) :
    (m.insert a b).mapValues f = (m.mapValues f).insert a (f b) := by
  apply AList.ext
  change _ :: (m.erase a).entries.map _ = _ :: ((m.mapValues f).erase a).entries
  rw [← mapValues_erase]
  rfl

end AList

namespace Runs

variable {σ τ ε ι : Type*} {step : σ → ε → σ} {next : τ → ι → τ} {viewEvent : ε → ι}

/-- A view that every step respects is respected by runs. -/
theorem run_view (view : σ → τ) (Inv : σ → Prop) (hinv : ∀ s e, Inv s → Inv (step s e))
    (hstep : ∀ s e, Inv s → view (step s e) = next (view s) (viewEvent e)) {s : σ} (hs : Inv s) (events : List ε) :
    view (run step s events) = run next (view s) (events.map viewEvent) := by
  induction events generalizing s with
  | nil => rfl
  | cons e rest ih =>
      calc
        view (run step (step s e) rest) = run next (view (step s e)) (rest.map viewEvent) := ih (hinv s e hs)
        _ = run next (next (view s) (viewEvent e)) (rest.map viewEvent) := by rw [hstep s e hs]

end Runs
