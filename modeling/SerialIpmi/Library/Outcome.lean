import Mathlib.Data.List.Induction

/-! Calls that change a state and may throw. A throwing call keeps the changes
it made before the exception, as an object does in a language without rollback. -/

/-- How a call ends: normally or by an exception, in both cases with a state. -/
inductive Outcome (ε σ : Type*) where
  | ok (s : σ)
  | thrown (e : ε) (s : σ)

namespace Outcome

variable {ε σ τ α β : Type*}

@[simp] def state : Outcome ε σ → σ
  | .ok s => s
  | .thrown _ s => s

def isOk : Outcome ε σ → Bool
  | .ok _ => true
  | .thrown _ _ => false

theorem eq_ok_of_isOk {r : Outcome ε σ} (h : r.isOk = true) : r = .ok r.state := by
  cases r with
  | ok s => rfl
  | thrown e s => simp [isOk] at h

def map (f : σ → τ) : Outcome ε σ → Outcome ε τ
  | .ok s => .ok (f s)
  | .thrown e s => .thrown e (f s)

def andThen (r : Outcome ε σ) (next : σ → Outcome ε σ) : Outcome ε σ :=
  match r with
  | .ok s => next s
  | .thrown e s => .thrown e s

@[simp] theorem ok_andThen (s : σ) (next : σ → Outcome ε σ) : (ok s).andThen next = next s := rfl

@[simp] theorem thrown_andThen (e : ε) (s : σ) (next : σ → Outcome ε σ) :
    (thrown e s).andThen next = .thrown e s := rfl

@[simp] theorem andThen_ok (r : Outcome ε σ) : (r.andThen fun s => ok s) = r := by
  cases r <;> rfl

theorem andThen_eq_ok {r : Outcome ε σ} {next : σ → Outcome ε σ} {s : σ}
    (h : r.andThen next = .ok s) : ∃ middle, r = .ok middle ∧ next middle = .ok s := by
  cases r with
  | ok middle => exact ⟨middle, rfl, h⟩
  | thrown e middle => simp at h

theorem andThen_assoc (r : Outcome ε σ) (f g : σ → Outcome ε σ) :
    (r.andThen f).andThen g = r.andThen fun s => (f s).andThen g := by
  cases r <;> rfl

/-- One call for each element, the first exception ending the loop. -/
def each (call : α → σ → Outcome ε σ) : List α → σ → Outcome ε σ
  | [], s => .ok s
  | a :: rest, s => (call a s).andThen (each call rest)

@[simp] theorem each_nil (call : α → σ → Outcome ε σ) (s : σ) : each call [] s = .ok s := rfl

@[simp] theorem each_cons (call : α → σ → Outcome ε σ) (a : α) (rest : List α) (s : σ) :
    each call (a :: rest) s = (call a s).andThen (each call rest) := rfl

theorem each_append (call : α → σ → Outcome ε σ) (left right : List α) (s : σ) :
    each call (left ++ right) s = (each call left s).andThen (each call right) := by
  induction left generalizing s with
  | nil => rfl
  | cons a left ih =>
    rw [List.cons_append, each_cons, each_cons, andThen_assoc]
    congr 1
    funext middle
    exact ih middle

theorem each_map (call : α → σ → Outcome ε σ) (f : β → α) (input : List β) (s : σ) :
    each call (input.map f) s = each (fun b => call (f b)) input s := by
  induction input generalizing s with
  | nil => rfl
  | cons b input ih =>
    rw [List.map_cons, each_cons, each_cons]
    congr 1
    funext middle
    exact ih middle

/-- Two loops run in step when `f` carries each call of the one to the calls that
`expand` gives for it in the other. -/
theorem each_simulation {call : α → σ → Outcome ε σ} {call' : β → τ → Outcome ε τ} {f : τ → σ}
    {expand : α → List β}
    (h : ∀ a t, call a (f t) = (each call' (expand a) t).map f) (input : List α) (t : τ) :
    each call input (f t) = (each call' (input.flatMap expand) t).map f := by
  induction input generalizing t with
  | nil => rfl
  | cons a input ih =>
    rw [each_cons, h, List.flatMap_cons, each_append]
    cases each call' (expand a) t with
    | ok t' => exact ih t'
    | thrown e t' => rfl

/-- One call for each element by a caller that catches every exception. -/
def eachCaught (call : α → σ → Outcome ε σ) (input : List α) (s : σ) : σ :=
  input.foldl (fun s a => (call a s).state) s

theorem eachCaught_induction {call : α → σ → Outcome ε σ} {motive : List α → σ → Prop} {s : σ}
    (start : motive [] s)
    (next : ∀ done a s, motive done s → motive (done ++ [a]) (call a s).state)
    (input : List α) : motive input (eachCaught call input s) := by
  induction input using List.reverseRecOn with
  | nil => exact start
  | append_singleton done a ih =>
    unfold eachCaught
    rw [List.foldl_append, List.foldl_cons, List.foldl_nil]
    exact next done a _ ih

theorem eachCaught_of_ok {call : α → σ → Outcome ε σ} {input : List α} {s s' : σ}
    (h : each call input s = .ok s') : eachCaught call input s = s' := by
  induction input generalizing s with
  | nil => exact Outcome.ok.inj h
  | cons a rest ih =>
    obtain ⟨middle, ha, hrest⟩ := andThen_eq_ok h
    unfold eachCaught
    rw [List.foldl_cons, ha]
    exact ih hrest

/-- A loop that an exception ends has made the calls up to the one that throws, and none of the
calls after it. -/
theorem each_thrown {call : α → σ → Outcome ε σ} {input : List α} {s s' : σ} {e : ε}
    (h : each call input s = .thrown e s') :
    ∃ done a rest middle, input = done ++ a :: rest ∧ each call done s = .ok middle ∧
      call a middle = .thrown e s' := by
  induction input generalizing s with
  | nil => cases h
  | cons a input ih =>
    cases ha : call a s with
    | thrown e' middle =>
      rw [each_cons, ha] at h
      refine ⟨[], a, input, s, rfl, rfl, ?_⟩
      rw [← h]
      exact ha
    | ok middle =>
      rw [each_cons, ha] at h
      obtain ⟨done, failing, rest, last, hinput, hdone, hcall⟩ := ih h
      refine ⟨a :: done, failing, rest, last, by rw [hinput]; rfl, ?_, hcall⟩
      rw [each_cons, ha]
      exact hdone

theorem each_state (call : α → σ → Outcome ε σ) (input : List α) (s : σ) :
    ∃ done, done <+: input ∧ (each call input s).state = eachCaught call done s ∧
      ((each call input s).isOk = true → done = input) := by
  cases h : each call input s with
  | ok s' => exact ⟨input, List.prefix_refl _, (eachCaught_of_ok h).symm, fun _ => rfl⟩
  | thrown e s' =>
    obtain ⟨done, a, rest, middle, hinput, hdone, hcall⟩ := each_thrown h
    have hfold := eachCaught_of_ok hdone
    refine ⟨done ++ [a], ⟨rest, by rw [hinput, List.append_assoc]; rfl⟩, ?_, fun hok => by cases hok⟩
    unfold eachCaught at hfold ⊢
    rw [List.foldl_append, List.foldl_cons, List.foldl_nil, hfold, hcall]

theorem each_induction {call : α → σ → Outcome ε σ} {motive : List α → σ → Prop}
    {input : List α} {s s' : σ} (h : each call input s = .ok s') (start : motive [] s)
    (next : ∀ done a s s', motive done s → call a s = .ok s' → motive (done ++ [a]) s') :
    motive input s' := by
  induction input using List.reverseRecOn generalizing s' with
  | nil => rw [← Outcome.ok.inj h]; exact start
  | append_singleton done a ih =>
    rw [each_append] at h
    obtain ⟨middle, hdone, ha⟩ := andThen_eq_ok h
    rw [each_cons] at ha
    obtain ⟨last, ha, hlast⟩ := andThen_eq_ok ha
    rw [← Outcome.ok.inj hlast]
    exact next done a middle last (ih hdone) ha

end Outcome
