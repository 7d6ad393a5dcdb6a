import Mathlib.Tactic.SplitIfs
import SerialIpmi.Library.Decoding

/-! Lines on which some pieces arrive damaged. A clean decoder reads a sound piece, and a sound
piece leaves it clean whatever came before: so a damaged piece costs at most the sound piece that
comes next. -/
namespace Decoding

variable {σ α β π : Type*}

/-- An encoded payload of which the line takes the first `taken` symbols. -/
structure Cut (α : Type*) where
  payload : List α
  taken : Nat
  deriving DecidableEq, Repr

namespace Cut

def line (encode : List α → List α) (cut : Cut α) : List α := (encode cut.payload).take cut.taken

def finished [DecidableEq α] (encode : List α → List α) (stop : α) (cut : Cut α) :
    Option (List α) :=
  if stop ∈ cut.line encode then some cut.payload else none

variable [DecidableEq α] {encode : List α → List α} {stop : α} {cut : Cut α}

theorem finished_eq_some {payload : List α} (h : cut.finished encode stop = some payload) :
    cut.payload = payload ∧ stop ∈ cut.line encode := by
  unfold finished at h
  split_ifs at h with hstop
  exact ⟨Option.some.inj h, hstop⟩

theorem finished_eq_none (h : cut.finished encode stop = none) : stop ∉ cut.line encode := by
  intro hstop
  unfold finished at h
  rw [if_pos hstop] at h
  cases h

end Cut

/-- `sound p` is what a clean decoder reads of the piece `p`; nothing is read of a piece that is
not sound, and only a harmful one takes a clean decoder off its place. -/
structure Contains (step : Core σ α β) (line : π → List α) (clean : σ → Bool)
    (sound : π → Option β) (harmful : π → Bool) : Prop where
  reads : ∀ s p b, clean s = true → sound p = some b → (run step s (line p)).2 = [b]
  recovers : ∀ s p b, sound p = some b → clean (run step s (line p)).1 = true
  silent : ∀ s p, sound p = none → (run step s (line p)).2 = []
  keeps : ∀ s p, sound p = none → harmful p = false → clean s = true →
    clean (run step s (line p)).1 = true

namespace Contains

variable {step : Core σ α β} {line : π → List α} {clean : σ → Bool} {sound : π → Option β}
  {harmful : π → Bool}

/-- Of the sound pieces at most one for each harmful piece is not read as it is. -/
theorem lost_le (h : Contains step line clean sound harmful) (s : σ) (pieces : List π) :
    ∃ read : List β, read.Sublist (run step s (pieces.flatMap line)).2 ∧
      read.Sublist (pieces.filterMap sound) ∧
      (pieces.filterMap sound).length ≤
        read.length + pieces.countP harmful + if clean s then 0 else 1 := by
  induction pieces generalizing s with
  | nil => exact ⟨[], List.nil_sublist _, List.nil_sublist _, Nat.zero_le _⟩
  | cons p pieces ih =>
    obtain ⟨read, hreleased, hsound, hle⟩ := ih (run step s (line p)).1
    rw [List.flatMap_cons, run_append, List.countP_cons]
    cases hp : sound p with
    | none =>
      have hkeeps := h.keeps s p hp
      refine ⟨read, ?_, ?_, ?_⟩
      · rw [h.silent s p hp]
        exact hreleased
      · rw [List.filterMap_cons_none hp]
        exact hsound
      · rw [List.filterMap_cons_none hp]
        cases hharmful : harmful p with
        | true =>
          rw [if_pos rfl]
          split at hle <;> split <;> omega
        | false =>
          rw [if_neg Bool.false_ne_true, Nat.add_zero]
          cases hclean : clean s with
          | true =>
            rw [hkeeps hharmful hclean] at hle
            exact hle
          | false =>
            rw [if_neg Bool.false_ne_true]
            split at hle <;> omega
    | some b =>
      rw [h.recovers s p b hp] at hle
      rw [List.filterMap_cons_some hp]
      cases hclean : clean s with
      | true =>
        refine ⟨b :: read, ?_, hsound.cons_cons b, ?_⟩
        · rw [h.reads s p b hclean hp]
          exact hreleased.cons_cons b
        · simp only [List.length_cons, if_true] at hle ⊢
          split <;> omega
      | false =>
        refine ⟨read, hreleased.trans (List.sublist_append_right _ _), hsound.cons b, ?_⟩
        simp only [List.length_cons, if_true] at hle ⊢
        split <;> simp <;> omega

theorem undamaged (h : Contains step line clean sound harmful) {s : σ} (hs : clean s = true)
    {pieces : List π} (hpieces : ∀ p ∈ pieces, harmful p = false) :
    (run step s (pieces.flatMap line)).2 = pieces.filterMap sound := by
  induction pieces generalizing s with
  | nil => rfl
  | cons p pieces ih =>
    have hrest : ∀ p ∈ pieces, harmful p = false := fun p hp =>
      hpieces p (List.mem_cons_of_mem _ hp)
    rw [List.flatMap_cons, run_append]
    cases hp : sound p with
    | none =>
      have hnext := h.keeps s p hp (hpieces p List.mem_cons_self) hs
      rw [h.silent s p hp, ih hnext hrest, List.filterMap_cons_none hp]
      rfl
    | some b =>
      rw [h.reads s p b hs hp, ih (h.recovers s p b hp) hrest, List.filterMap_cons_some hp]
      rfl

theorem released_sublist (h : Contains step line clean sound harmful)
    (hstray : ∀ s p, clean s = false → (run step s (line p)).2 = []) (s : σ) (pieces : List π) :
    (run step s (pieces.flatMap line)).2.Sublist (pieces.filterMap sound) := by
  induction pieces generalizing s with
  | nil => exact List.nil_sublist _
  | cons p pieces ih =>
    have hrest := ih (run step s (line p)).1
    rw [List.flatMap_cons, run_append]
    cases hp : sound p with
    | none =>
      rw [h.silent s p hp, List.filterMap_cons_none hp]
      exact hrest
    | some b =>
      rw [List.filterMap_cons_some hp]
      cases hclean : clean s with
      | true =>
        rw [h.reads s p b hclean hp]
        exact hrest.cons_cons b
      | false =>
        rw [hstray s p hclean]
        exact hrest.cons b

theorem length_released (h : Contains step line clean sound harmful)
    (hone : ∀ s p b, sound p = some b → (run step s (line p)).2.length = 1) (s : σ)
    (pieces : List π) :
    (run step s (pieces.flatMap line)).2.length = (pieces.filterMap sound).length := by
  induction pieces generalizing s with
  | nil => rfl
  | cons p pieces ih =>
    rw [List.flatMap_cons, run_append, List.length_append, ih]
    cases hp : sound p with
    | none =>
      rw [h.silent s p hp, List.filterMap_cons_none hp]
      exact Nat.zero_add _
    | some b =>
      rw [hone s p b hp, List.filterMap_cons_some hp, List.length_cons, Nat.add_comm]

end Contains

end Decoding
