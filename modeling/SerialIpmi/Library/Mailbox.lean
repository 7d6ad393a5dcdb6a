import SerialIpmi.Library.Decoding

/-! A place for one item: what is put there replaces what lay there before, and taking it leaves
the place empty. -/
namespace Mailbox

open Decoding

variable {α : Type*}

inductive Op (α : Type*) where
  | put (a : α)
  | take

def Op.item : Op α → List α
  | .put a => [a]
  | .take => []

def step : Core (Option α) (Op α) (Option α)
  | _, .put a => (some a, [])
  | stored, .take => (none, [stored])

def taken (results : List (Option α)) : List α :=
  results.flatMap Option.toList

/-- Whatever the order of puts and takes, no item is taken twice or out of order. What is still
stored comes after all that was taken. -/
theorem taken_sublist (stored : Option α) (ops : List (Op α)) :
    (taken (run step stored ops).2 ++ (run step stored ops).1.toList).Sublist
      (stored.toList ++ ops.flatMap Op.item) := by
  induction ops generalizing stored with
  | nil =>
    rw [List.flatMap_nil, List.append_nil]
    exact List.Sublist.refl _
  | cons op ops ih =>
    cases op with
    | put a =>
      apply (ih (some a)).trans
      rw [List.flatMap_cons]
      exact List.sublist_append_right _ _
    | take =>
      rw [run_cons]
      change (taken (stored :: _) ++ _).Sublist _
      unfold taken
      rw [List.flatMap_cons, List.append_assoc]
      exact (ih none).append_left stored.toList

end Mailbox
