import Mathlib.Data.List.Forall2
import SerialIpmi.Library.Outcome

/-! Two systems side by side. What related calls keep of a relation between the states, whole runs
of them keep. -/
namespace Outcome

variable {ε σ τ α β : Type*} {R : σ → τ → Prop} {E : α → β → Prop}

/-- Both calls end normally or both by the same exception, and the states stand in the relation. -/
inductive Related (R : σ → τ → Prop) : Outcome ε σ → Outcome ε τ → Prop where
  | ok {s : σ} {t : τ} (h : R s t) : Related R (.ok s) (.ok t)
  | thrown {e : ε} {s : σ} {t : τ} (h : R s t) : Related R (.thrown e s) (.thrown e t)

theorem Related.map {σ' τ' : Type*} {Q : σ' → τ' → Prop} {f : σ → σ'} {g : τ → τ'}
    {r : Outcome ε σ} {r' : Outcome ε τ} (h : Related R r r')
    (hmap : ∀ s t, R s t → Q (f s) (g t)) : Related Q (r.map f) (r'.map g) := by
  cases h with
  | ok h => exact .ok (hmap _ _ h)
  | thrown h => exact .thrown (hmap _ _ h)

theorem Related.of_map {σ' τ' : Type*} {Q : σ' → τ' → Prop} {f : σ → σ'} {g : τ → τ'}
    {r : Outcome ε σ} {r' : Outcome ε τ} (h : Related Q (r.map f) (r'.map g)) :
    Related (fun s t => Q (f s) (g t)) r r' := by
  cases r with
  | ok s =>
    cases r' with
    | ok t =>
      cases h with
      | ok h => exact .ok h
    | thrown e t => cases h
  | thrown e s =>
    cases r' with
    | ok t => cases h
    | thrown e' t =>
      cases h with
      | thrown h => exact .thrown h

theorem Related.andThen {r : Outcome ε σ} {r' : Outcome ε τ} {next : σ → Outcome ε σ}
    {next' : τ → Outcome ε τ} (h : Related R r r')
    (hnext : ∀ s t, R s t → Related R (next s) (next' t)) :
    Related R (r.andThen next) (r'.andThen next') := by
  cases h with
  | ok h => exact hnext _ _ h
  | thrown h => exact .thrown h

variable {call : α → σ → Outcome ε σ} {call' : β → τ → Outcome ε τ}

theorem Related.each (hcall : ∀ a b s t, E a b → R s t → Related R (call a s) (call' b t))
    {input : List α} {input' : List β} (hinput : List.Forall₂ E input input') {s : σ} {t : τ}
    (hR : R s t) : Related R (Outcome.each call input s) (Outcome.each call' input' t) := by
  induction hinput generalizing s t with
  | nil => exact .ok hR
  | cons hE _ ih => exact (hcall _ _ s t hE hR).andThen fun s t hR => ih hR

end Outcome
