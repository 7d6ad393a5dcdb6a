import Mathlib.Data.List.Basic

/-! Incremental decoders. A decoder core consumes one symbol at a time and
releases items; a buffered decoder keeps the released items in a queue until
they are popped. Every result below is independent of how the input is cut
into chunks and of when the queue is popped. -/
namespace Decoding

variable {P σ τ α β γ : Type*}

/-- A core: one symbol gives the next state and the items released by it. -/
abbrev Core (σ α β : Type*) := σ → α → σ × List β

def run (step : Core σ α β) : σ → List α → σ × List β
  | s, [] => (s, [])
  | s, a :: rest =>
      let next := step s a
      let tail := run step next.1 rest
      (tail.1, next.2 ++ tail.2)

@[simp] theorem run_nil (step : Core σ α β) (s : σ) : run step s [] = (s, []) := rfl

theorem run_cons (step : Core σ α β) (s : σ) (a : α) (rest : List α) :
    run step s (a :: rest) = ((run step (step s a).1 rest).1,
      (step s a).2 ++ (run step (step s a).1 rest).2) := rfl

theorem run_append (step : Core σ α β) (s : σ) (left right : List α) :
    run step s (left ++ right) = ((run step (run step s left).1 right).1,
      (run step s left).2 ++ (run step (run step s left).1 right).2) := by
  induction left generalizing s with
  | nil => rfl
  | cons a rest ih => simp only [List.cons_append, run_cons, ih, List.append_assoc]

theorem run_mono (step : Core σ α β) (s : σ) {seen input : List α} (h : seen <+: input) :
    (run step s seen).2 <+: (run step s input).2 := by
  obtain ⟨rest, rfl⟩ := h
  rw [run_append]
  exact List.prefix_append _ _

def filterMap (f : β → Option γ) (step : Core σ α β) : Core σ α γ :=
  fun s a => ((step s a).1, (step s a).2.filterMap f)

theorem run_filterMap (f : β → Option γ) (step : Core σ α β) (s : σ) (input : List α) :
    run (filterMap f step) s input = ((run step s input).1, (run step s input).2.filterMap f) := by
  induction input generalizing s with
  | nil => rfl
  | cons a rest ih => simp only [run_cons, filterMap, List.filterMap_append, ih]

theorem run_filter {step : Core σ α β} {keep : α → Bool}
    (h : ∀ s a, keep a = false → step s a = (s, [])) (s : σ) (input : List α) :
    run step s (input.filter keep) = run step s input := by
  induction input generalizing s with
  | nil => rfl
  | cons a rest ih =>
    cases hkeep : keep a with
    | true => rw [List.filter_cons_of_pos hkeep, run_cons, run_cons, ih]
    | false =>
      rw [List.filter_cons_of_neg (by simp [hkeep]), run_cons, h s a hkeep, ih]
      rfl

theorem run_simulation {step : Core σ α β} {step' : Core τ α β} {R : σ → τ → Prop}
    (h : ∀ s t a, R s t → R (step s a).1 (step' t a).1 ∧ (step s a).2 = (step' t a).2)
    {s : σ} {t : τ} (hR : R s t) (input : List α) :
    R (run step s input).1 (run step' t input).1 ∧
      (run step s input).2 = (run step' t input).2 := by
  induction input generalizing s t with
  | nil => exact ⟨hR, rfl⟩
  | cons a rest ih =>
    obtain ⟨hnext, hitems⟩ := h s t a hR
    obtain ⟨hlast, hrest⟩ := ih hnext
    rw [run_cons, run_cons]
    exact ⟨hlast, congrArg₂ _ hitems hrest⟩

def pipe (first : Core σ α β) (second : Core τ β γ) : Core (σ × τ) α γ :=
  fun s a =>
    let released := first s.1 a
    let consumed := run second s.2 released.2
    ((released.1, consumed.1), consumed.2)

theorem run_pipe (first : Core σ α β) (second : Core τ β γ) (s : σ × τ) (input : List α) :
    run (pipe first second) s input =
      (((run first s.1 input).1, (run second s.2 (run first s.1 input).2).1),
        (run second s.2 (run first s.1 input).2).2) := by
  induction input generalizing s with
  | nil => rfl
  | cons a rest ih =>
    rw [run_cons, run_cons, run_append, ih]
    rfl

/-- A decoder whose released items wait in a queue. The laws say that feeding
appends what the core releases and that popping only removes the front. -/
structure Buffered (P σ α β : Type*) where
  step : Core σ α β
  core : P → σ
  queue : P → List β
  feed : P → α → P
  pop : P → P
  core_feed : ∀ p a, core (feed p a) = (step (core p) a).1
  queue_feed : ∀ p a, queue (feed p a) = queue p ++ (step (core p) a).2
  core_pop : ∀ p, core (pop p) = core p
  queue_pop : ∀ p, queue (pop p) = (queue p).tail

namespace Buffered

variable (d : Buffered P σ α β)

theorem core_feedAll (p : P) (input : List α) :
    d.core (input.foldl d.feed p) = (run d.step (d.core p) input).1 := by
  induction input generalizing p with
  | nil => rfl
  | cons a rest ih => rw [List.foldl_cons, ih, d.core_feed, run_cons]

theorem queue_feedAll (p : P) (input : List α) :
    d.queue (input.foldl d.feed p) = d.queue p ++ (run d.step (d.core p) input).2 := by
  induction input generalizing p with
  | nil => simp
  | cons a rest ih =>
    rw [List.foldl_cons, ih, d.queue_feed, d.core_feed, run_cons, List.append_assoc]

end Buffered

inductive Op (α : Type*) where
  | feed : List α → Op α
  | pop : Op α

def Op.input : Op α → List α
  | .feed chunk => chunk
  | .pop => []

namespace Buffered

variable (d : Buffered P σ α β)

def play : P → List (Op α) → List β × P
  | p, [] => ([], p)
  | p, .feed chunk :: ops => play (chunk.foldl d.feed p) ops
  | p, .pop :: ops =>
      let rest := play (d.pop p) ops
      ((d.queue p).head?.toList ++ rest.1, rest.2)

/-- Nothing is lost, duplicated or reordered: the popped items followed by the
queued ones are the items of the uncut input. -/
theorem play_fifo (p : P) (ops : List (Op α)) :
    (d.play p ops).1 ++ d.queue (d.play p ops).2 =
      d.queue p ++ (run d.step (d.core p) (ops.flatMap Op.input)).2 := by
  induction ops generalizing p with
  | nil => simp [play]
  | cons op ops ih =>
    cases op with
    | feed chunk =>
      unfold play
      rw [ih, queue_feedAll, core_feedAll, List.flatMap_cons, run_append,
        List.append_assoc]
      rfl
    | pop =>
      unfold play
      rw [List.append_assoc, ih, d.core_pop, d.queue_pop, ← List.append_assoc]
      congr 1
      cases d.queue p <;> rfl

end Buffered

end Decoding
