import SerialIpmi.Library.Decoding
import SerialIpmi.Library.Outcome

/-! Calls on raw input that act like calls on decoded items: a decoder runs beside the state, and
a projection forgets what the state keeps for its own decoding. -/
namespace Refinement

open Decoding Outcome

variable {ε σ τ α β γ : Type*}

/-- Each concrete call acts on the projected state like the abstract calls for the items that its
input releases, of which there is at most one. `I` relates the decoder to the state. -/
structure Simulates (call : α → σ → Outcome ε σ) (call' : β → τ → Outcome ε τ)
    (step : Core γ α β) (project : σ → τ) (I : γ → σ → Prop) : Prop where
  one : ∀ c a, (step c a).2.length ≤ 1
  acts : ∀ c s a, I c s → (call a s).map project = each call' (step c a).2 (project s)
  keeps : ∀ c s a, I c s → I (step c a).1 (call a s).state

variable {call : α → σ → Outcome ε σ} {call' : β → τ → Outcome ε τ} {step : Core γ α β}
  {project : σ → τ} {I : γ → σ → Prop}

theorem Simulates.each (h : Simulates call call' step project I) {c : γ} {s : σ} (hI : I c s)
    (input : List α) :
    (Outcome.each call input s).map project =
      Outcome.each call' (run step c input).2 (project s) := by
  induction input generalizing c s with
  | nil => rfl
  | cons a input ih =>
    have hcall := h.acts c s a hI
    have hnext := h.keeps c s a hI
    rw [each_cons, run_cons, each_append, ← hcall]
    cases hresult : call a s with
    | thrown e s' => rfl
    | ok s' =>
      rw [hresult] at hnext
      exact ih hnext

theorem eachCaught_of_one {items : List β} (h : items.length ≤ 1) (t : τ) :
    eachCaught call' items t = (Outcome.each call' items t).state := by
  cases items with
  | nil => rfl
  | cons b rest =>
    obtain rfl : rest = [] := by
      rw [List.length_cons] at h
      apply List.eq_nil_of_length_eq_zero
      omega
    change (call' b t).state = ((call' b t).andThen _).state
    cases call' b t <;> rfl

theorem state_map (r : Outcome ε σ) : (r.map project).state = project r.state := by
  cases r <;> rfl

theorem Simulates.eachCaught (h : Simulates call call' step project I) {c : γ} {s : σ} (hI : I c s)
    (input : List α) :
    project (Outcome.eachCaught call input s) =
      Outcome.eachCaught call' (run step c input).2 (project s) := by
  induction input generalizing c s with
  | nil => rfl
  | cons a input ih =>
    have hstep : project (call a s).state =
        Outcome.eachCaught call' (step c a).2 (project s) := by
      rw [eachCaught_of_one (h.one c a), ← h.acts c s a hI, state_map]
    have hrest := ih (h.keeps c s a hI)
    rw [run_cons]
    unfold Outcome.eachCaught at hstep hrest ⊢
    rw [List.foldl_cons, hrest, hstep, List.foldl_append]

end Refinement
