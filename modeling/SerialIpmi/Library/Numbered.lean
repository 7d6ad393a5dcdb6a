import Mathlib.Data.List.Induction

/-! Calls to an outside world that knows them by their number only. What becomes of the calls
is a function of their sequence. -/
namespace Numbered

variable {α β γ : Type*}

/-- The results of the calls that succeed, the first call having the number 0. -/
def results (ask : Nat → α → Option β) (inputs : List α) : List β :=
  inputs.zipIdx.filterMap fun call => ask call.2 call.1

theorem results_concat (ask : Nat → α → Option β) (inputs : List α) (a : α) :
    results ask (inputs ++ [a]) = results ask inputs ++ (ask inputs.length a).toList := by
  unfold results
  rw [List.zipIdx_append, List.filterMap_append, Nat.zero_add]
  cases h : ask inputs.length a <;> simp [h]

theorem results_map (ask : Nat → β → Option γ) (f : α → β) (inputs : List α) :
    results ask (inputs.map f) = results (fun count a => ask count (f a)) inputs := by
  unfold results
  rw [List.zipIdx_map, List.filterMap_map]
  rfl

theorem map_results (f : β → γ) (ask : Nat → α → Option β) (inputs : List α) :
    (results ask inputs).map f = results (fun count a => (ask count a).map f) inputs := by
  unfold results
  rw [List.map_filterMap]

theorem filterMap_results (f : β → Option γ) (ask : Nat → α → Option β) (inputs : List α) :
    (results ask inputs).filterMap f = results (fun count a => (ask count a).bind f) inputs := by
  unfold results
  rw [List.filterMap_filterMap]

end Numbered
