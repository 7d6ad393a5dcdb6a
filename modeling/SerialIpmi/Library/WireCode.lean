import Mathlib.Data.List.Infix

/-! Words sent one after another on a line. When no word is the beginning of another one, every
part of the line already tells which words it begins with. -/
namespace WireCode

variable {ι α : Type*}

structure PrefixFree (encode : ι → List α) : Prop where
  ne_nil : ∀ a, encode a ≠ []
  eq_of_prefix : ∀ a b, encode a <+: encode b → a = b

theorem eq_of_stopped_prefix {stop : α} {left right : List α} (hright : stop ∉ right)
    (h : left ++ [stop] <+: right ++ [stop]) : left = right := by
  rcases List.prefix_concat_iff.mp h with hsame | hinside
  · exact List.append_cancel_right hsame
  · apply absurd _ hright
    apply hinside.subset
    exact List.mem_append_right left List.mem_cons_self

variable {encode : ι → List α}

theorem PrefixFree.prefix_iff (h : PrefixFree encode) {sent all : List ι} :
    sent.flatMap encode <+: all.flatMap encode ↔ sent <+: all := by
  constructor
  · intro hline
    induction sent generalizing all with
    | nil => exact List.nil_prefix
    | cons word sent ih =>
      cases all with
      | nil =>
        rw [List.flatMap_cons, List.flatMap_nil, List.prefix_nil] at hline
        exact absurd (List.append_eq_nil_iff.mp hline).1 (h.ne_nil word)
      | cons first all =>
        rw [List.flatMap_cons, List.flatMap_cons] at hline
        -- both words begin the same line, so one of them begins the other
        have hfirst : word = first := by
          have hword := (List.prefix_append _ _).trans hline
          rcases List.prefix_or_prefix_of_prefix hword (List.prefix_append _ _) with hone | hother
          · exact h.eq_of_prefix word first hone
          · exact (h.eq_of_prefix first word hother).symm
        rw [hfirst, List.prefix_append_right_inj] at hline
        rw [hfirst, List.cons_prefix_cons]
        exact ⟨rfl, ih hline⟩
  · intro hsent
    obtain ⟨rest, rfl⟩ := hsent
    rw [List.flatMap_append]
    exact List.prefix_append _ _

end WireCode
