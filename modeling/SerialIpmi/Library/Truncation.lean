import SerialIpmi.Library.Damage
import SerialIpmi.Library.Framing

/-! Frames of which the line takes a first part only. The next start gives such a frame up, unless
it was cut behind an escape: then the start is data, and the two frames are read as one. -/
namespace Framing

open Decoding

namespace Code

variable {α : Type*} (c : Code α)

def Position.notEscaped : Position α → Bool
  | .outside => true
  | .inside _ => true
  | .escaped _ => false

theorem Position.ne_escaped {position : Position α} (h : position.notEscaped = true)
    (buffer : List α) : position ≠ .escaped buffer := by
  rintro rfl
  cases h

variable [DecidableEq α]

def behindEscape (cut : Cut α) : Bool := (cut.line c.encode).getLast? = some c.escape

theorem run_take_stuffed (payload buffer : List α) (count : Nat) :
    ∃ position, run c.step (.inside buffer) ((payload.flatMap c.stuff).take count) =
        (position, []) ∧
      (((payload.flatMap c.stuff).take count).getLast? ≠ some c.escape →
        position.notEscaped = true) := by
  induction payload generalizing buffer count with
  | nil => exact ⟨.inside buffer, by simp, fun _ => rfl⟩
  | cons a payload ih =>
    rw [List.flatMap_cons]
    by_cases hpart : count < (c.stuff a).length
    · -- the cut is in front of the symbol or behind its escape
      rw [List.take_append_of_le_length (Nat.le_of_lt hpart)]
      unfold stuff at hpart ⊢
      cases hreserved : c.reserved a with
      | true =>
        rw [hreserved, if_pos rfl] at hpart
        rw [if_pos rfl]
        rcases count with - | - | count
        · exact ⟨.inside buffer, rfl, fun _ => rfl⟩
        · refine ⟨.escaped buffer, ?_, fun h => absurd rfl h⟩
          simp [run_cons, step]
        · simp only [List.length_cons, List.length_nil] at hpart
          omega
      | false =>
        rw [hreserved, if_neg Bool.false_ne_true, List.length_singleton, Nat.lt_one_iff] at hpart
        rw [hpart]
        exact ⟨.inside buffer, rfl, fun _ => rfl⟩
    · obtain ⟨position, hrun, hposition⟩ := ih (buffer ++ [a]) (count - (c.stuff a).length)
      rw [List.take_append, List.take_of_length_le (Nat.le_of_not_lt hpart), run_stuff]
      refine ⟨position, hrun, ?_⟩
      intro hlast
      apply hposition
      intro hescape
      apply hlast
      rw [List.getLast?_append, hescape]
      rfl

omit [DecidableEq α] in
theorem stop_notMem_stuffed (hmask : ∀ a, c.reserved a = true → c.mask a ≠ c.stop)
    (payload : List α) : c.stop ∉ payload.flatMap c.stuff := by
  rw [List.mem_flatMap]
  rintro ⟨a, -, hstop⟩
  unfold stuff at hstop
  cases hreserved : c.reserved a with
  | true =>
    rw [hreserved, if_pos rfl, List.mem_cons, List.mem_singleton] at hstop
    rcases hstop with hescape | hmasked
    · exact c.stop_ne_escape hescape
    · exact hmask a hreserved hmasked.symm
  | false =>
    rw [hreserved, if_neg Bool.false_ne_true, List.mem_singleton] at hstop
    exact (c.ne_of_not_reserved hreserved).2.1 hstop.symm

omit [DecidableEq α] in
theorem take_encode_cases (payload : List α) (taken : Nat) :
    (c.encode payload).take taken = [] ∨
      (∃ count, (c.encode payload).take taken =
        c.start :: (payload.flatMap c.stuff).take count) ∨
      (c.encode payload).take taken = c.encode payload := by
  cases taken with
  | zero => exact Or.inl List.take_zero
  | succ count =>
    right
    unfold encode
    rw [List.take_succ_cons]
    by_cases hpart : count ≤ (payload.flatMap c.stuff).length
    · left
      exact ⟨count, by rw [List.take_append_of_le_length hpart]⟩
    · right
      rw [List.take_of_length_le]
      rw [List.length_append, List.length_singleton]
      omega

theorem run_start_inside (position : Position α) (rest : List α) :
    ∃ buffer, run c.step position (c.start :: rest) = run c.step (.inside buffer) rest := by
  cases position with
  | outside => exact ⟨[], c.run_start (by simp) rest⟩
  | inside buffer => exact ⟨[], c.run_start (by simp) rest⟩
  | escaped buffer => exact ⟨buffer ++ [c.mask c.start], by rw [run_cons]; rfl⟩

theorem run_encode_any (position : Position α) (payload : List α) :
    ∃ item, run c.step position (c.encode payload) = (.outside, [item]) ∧
      (position.notEscaped = true → item = payload) := by
  cases hclean : position.notEscaped with
  | true =>
    have hrun := c.run_encode_of (Position.ne_escaped hclean) payload []
    rw [List.append_nil, run_nil] at hrun
    exact ⟨payload, hrun, fun _ => rfl⟩
  | false =>
    cases position with
    | outside => cases hclean
    | inside buffer => cases hclean
    | escaped buffer => exact ⟨_, c.run_encode_escaped buffer payload, nofun⟩

theorem run_unfinished {cut : Cut α} (h : c.stop ∉ cut.line c.encode) (position : Position α) :
    (run c.step position (cut.line c.encode)).2 = [] ∧
      (c.behindEscape cut = false → position.notEscaped = true →
        (run c.step position (cut.line c.encode)).1.notEscaped = true) := by
  unfold behindEscape
  rcases c.take_encode_cases cut.payload cut.taken with hnone | ⟨count, hpart⟩ | hwhole
  · rw [Cut.line, hnone]
    exact ⟨rfl, fun _ h => h⟩
  · rw [Cut.line, hpart]
    obtain ⟨buffer, hstart⟩ := c.run_start_inside position
      ((cut.payload.flatMap c.stuff).take count)
    obtain ⟨after, hrun, hafter⟩ := c.run_take_stuffed cut.payload buffer count
    rw [hstart, hrun]
    refine ⟨rfl, ?_⟩
    intro hlast _
    apply hafter
    intro hescape
    rw [List.getLast?_cons, hescape] at hlast
    exact absurd hlast (by simp)
  · rw [Cut.line, hwhole] at h
    exact absurd (by simp [encode]) h

theorem line_of_finished (hmask : ∀ a, c.reserved a = true → c.mask a ≠ c.stop) {cut : Cut α}
    {payload : List α} (h : cut.finished c.encode c.stop = some payload) :
    cut.line c.encode = c.encode payload := by
  obtain ⟨rfl, hstop⟩ := Cut.finished_eq_some h
  rcases c.take_encode_cases cut.payload cut.taken with hnone | ⟨count, hpart⟩ | hwhole
  · rw [Cut.line, hnone] at hstop
    exact absurd hstop List.not_mem_nil
  · rw [Cut.line, hpart, List.mem_cons] at hstop
    rcases hstop with hstart | hinside
    · exact absurd hstart.symm c.start_ne_stop
    · exact absurd (List.mem_of_mem_take hinside) (c.stop_notMem_stuffed hmask cut.payload)
  · exact hwhole

/-- A frame that is cut off costs at most the one after it, and that only behind an escape. -/
theorem contains_cuts (hmask : ∀ a, c.reserved a = true → c.mask a ≠ c.stop) :
    Contains c.step (Cut.line c.encode) Position.notEscaped (Cut.finished c.encode c.stop) c.behindEscape where
  reads := by
    intro position cut payload hclean hfinished
    have hline := c.line_of_finished hmask hfinished
    obtain ⟨item, hrun, hitem⟩ := c.run_encode_any position payload
    rw [hline, hrun, hitem hclean]
  recovers := by
    intro position cut payload hfinished
    have hline := c.line_of_finished hmask hfinished
    obtain ⟨item, hrun, -⟩ := c.run_encode_any position payload
    rw [hline, hrun]
    rfl
  silent := by
    intro position cut hnone
    exact (c.run_unfinished (Cut.finished_eq_none hnone) position).1
  keeps := by
    intro position cut hnone
    exact (c.run_unfinished (Cut.finished_eq_none hnone) position).2

theorem run_finished_length (hmask : ∀ a, c.reserved a = true → c.mask a ≠ c.stop)
    (position : Position α) (cut : Cut α) (payload : List α) (h : cut.finished c.encode c.stop = some payload) :
    (run c.step position (cut.line c.encode)).2.length = 1 := by
  have hline := c.line_of_finished hmask h
  obtain ⟨item, hrun, -⟩ := c.run_encode_any position payload
  rw [hline, hrun]
  rfl

end Code

end Framing
