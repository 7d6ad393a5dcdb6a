import Mathlib.Data.List.Basic
import Mathlib.Data.List.Induction

/-! Runs of a system that takes one step for each input. What every step but the bad ones
keeps holds along each run that avoids these; where a bad step always breaks it, those
are the only runs along which it holds. -/
namespace Runs

variable {σ α : Type*} {step : σ → α → σ} {bad : σ → α → Prop} {P : σ → Prop} {s : σ}
  {inputs : List α}

/-- No step of the run is bad in the state in which it is taken. -/
def Avoids (step : σ → α → σ) (bad : σ → α → Prop) (s : σ) (inputs : List α) : Prop :=
  ∀ done a, done ++ [a] <+: inputs → ¬ bad (done.foldl step s) a

theorem avoids_nil : Avoids step bad s [] := by
  intro done a hdone
  simp at hdone

theorem avoids_cons {a : α} :
    Avoids step bad s (a :: inputs) ↔ ¬ bad s a ∧ Avoids step bad (step s a) inputs := by
  constructor
  · intro h
    refine ⟨h [] a (List.prefix_append [a] inputs), ?_⟩
    intro done b hdone
    exact h (a :: done) b ((List.cons_prefix_cons).mpr ⟨rfl, hdone⟩)
  · rintro ⟨hfirst, hrest⟩ done b hdone
    cases done with
    | nil =>
      rw [List.nil_append, List.cons_prefix_cons] at hdone
      rw [hdone.1]
      exact hfirst
    | cons c done =>
      rw [List.cons_append, List.cons_prefix_cons] at hdone
      rw [hdone.1]
      exact hrest done b hdone.2

theorem Avoids.of_prefix {done : List α} (h : Avoids step bad s inputs) (hdone : done <+: inputs) :
    Avoids step bad s done := by
  intro before a hbefore
  exact h before a (hbefore.trans hdone)

theorem kept (hkeep : ∀ s a, P s → ¬ bad s a → P (step s a)) (hs : P s)
    (h : Avoids step bad s inputs) : P (inputs.foldl step s) := by
  induction inputs using List.reverseRecOn with
  | nil => exact hs
  | append_singleton done a ih =>
    have hdone : P (done.foldl step s) := ih (h.of_prefix (List.prefix_append done [a]))
    rw [List.foldl_concat]
    exact hkeep _ a hdone (h done a (List.prefix_refl _))

/-- What the other steps keep and the bad ones break holds in every state of a run exactly when the
run avoids the bad steps. -/
theorem always_iff (hkeep : ∀ s a, P s → ¬ bad s a → P (step s a))
    (hbreak : ∀ s a, bad s a → ¬ P (step s a)) (hs : P s) :
    (∀ done, done <+: inputs → P (done.foldl step s)) ↔ Avoids step bad s inputs := by
  constructor
  · intro halways done a hdone hbad
    have hafter := halways (done ++ [a]) hdone
    rw [List.foldl_concat] at hafter
    exact hbreak _ a hbad hafter
  · intro h done hdone
    exact kept hkeep hs (h.of_prefix hdone)

end Runs
