import Mathlib.Order.Lattice
import Mathlib.Order.MinMax

/-! A shared cell that threads raise to their values with a weak compare-and-exchange. The cell
keeps its modification order: a load may return any value of it, an exchange succeeds only on the
newest one, and may fail without a reason. -/
namespace MaxCell

variable {α : Type*} [LinearOrder α]

inductive Phase (α : Type*) where
  | start
  | loop (expected : α)
  | done

structure Thread (α : Type*) where
  value : α
  phase : Phase α

/-- `older` holds the earlier values of the cell, the latest of them first. -/
structure State (α : Type*) where
  newest : α
  older : List α := []
  threads : List (Thread α) := []

namespace State

def history (s : State α) : List α := s.newest :: s.older

def goesOn (s : State α) (i : Nat) (value : α) (phase : Phase α) : State α :=
  { s with threads := s.threads.set i ⟨value, phase⟩ }

end State

inductive Step : State α → State α → Prop where
  | invoke (s : State α) (value : α) :
      Step s { s with threads := s.threads ++ [⟨value, .start⟩] }
  | load {s : State α} {i : Nat} {value seen : α}
      (hthread : s.threads[i]? = some ⟨value, .start⟩) (hseen : seen ∈ s.history) :
      Step s (s.goesOn i value (.loop seen))
  | skip {s : State α} {i : Nat} {value expected : α}
      (hthread : s.threads[i]? = some ⟨value, .loop expected⟩) (hle : value ≤ expected) :
      Step s (s.goesOn i value .done)
  | exchange {s : State α} {i : Nat} {value : α}
      (hthread : s.threads[i]? = some ⟨value, .loop s.newest⟩) (hlt : s.newest < value) :
      Step s { s.goesOn i value .done with newest := value, older := s.history }
  | fail {s : State α} {i : Nat} {value expected seen : α}
      (hthread : s.threads[i]? = some ⟨value, .loop expected⟩) (hlt : expected < value)
      (hseen : seen ∈ s.history) :
      Step s (s.goesOn i value (.loop seen))

/-- The cell only grows, and holds the largest of its first value and the values of the threads
that are done. -/
structure Raised (initial : α) (s : State α) : Prop where
  ordered : s.history.Pairwise (· > ·)
  seen : ∀ thread ∈ s.threads, ∀ expected, thread.phase = .loop expected → expected ∈ s.history
  reached : ∀ thread ∈ s.threads, thread.phase = .done → thread.value ≤ s.newest
  initial_le : initial ≤ s.newest
  source : s.newest = initial ∨ ∃ thread ∈ s.threads, thread.phase = .done ∧
    thread.value = s.newest

namespace Raised

variable {initial : α} {s s' : State α} {i : Nat} {value : α} {phase : Phase α}

theorem start (initial : α) : Raised initial { newest := initial } where
  ordered := List.pairwise_singleton _ _
  seen := by simp
  reached := by simp
  initial_le := le_refl initial
  source := Or.inl rfl

theorem le_newest (h : Raised initial s) {seen : α} (hseen : seen ∈ s.history) :
    seen ≤ s.newest := by
  rcases List.mem_cons.mp hseen with rfl | holder
  · exact le_refl _
  · exact le_of_lt (List.rel_of_pairwise_cons h.ordered holder)

theorem goesOn (h : Raised initial s) {old : Phase α} (hold : old ≠ .done)
    (hthread : s.threads[i]? = some ⟨value, old⟩)
    (hseen : ∀ expected, phase = .loop expected → expected ∈ s.history)
    (hreached : phase = .done → value ≤ s.newest) : Raised initial (s.goesOn i value phase) := by
  have hmem : ∀ thread ∈ (s.goesOn i value phase).threads,
      thread ∈ s.threads ∨ thread = ⟨value, phase⟩ := by
    intro thread hthread
    exact List.mem_or_eq_of_mem_set hthread
  refine ⟨h.ordered, ?_, ?_, h.initial_le, ?_⟩
  · intro thread hmember expected hphase
    rcases hmem thread hmember with hkept | rfl
    · exact h.seen thread hkept expected hphase
    · exact hseen expected hphase
  · intro thread hmember hphase
    rcases hmem thread hmember with hkept | rfl
    · exact h.reached thread hkept hphase
    · exact hreached hphase
  · rcases h.source with hinitial | ⟨thread, hmember, hdone, hvalue⟩
    · exact Or.inl hinitial
    · right
      obtain ⟨k, hk, rfl⟩ := List.mem_iff_getElem.mp hmember
      have hne : i ≠ k := by
        rintro rfl
        rw [List.getElem?_eq_getElem hk, Option.some.injEq] at hthread
        rw [hthread] at hdone
        exact hold hdone
      refine ⟨s.threads[k], ?_, hdone, hvalue⟩
      rw [← List.getElem_set_ne hne]
      · exact List.getElem_mem _
      · rw [List.length_set]
        exact hk

theorem step (h : Raised initial s) (hstep : Step s s') : Raised initial s' := by
  cases hstep with
  | invoke value =>
    have hmem : ∀ thread ∈ s.threads ++ [⟨value, .start⟩],
        thread ∈ s.threads ∨ thread = ⟨value, .start⟩ := by
      intro thread hmember
      rw [List.mem_append, List.mem_singleton] at hmember
      exact hmember
    refine ⟨h.ordered, ?_, ?_, h.initial_le, ?_⟩
    · intro thread hmember expected hphase
      rcases hmem thread hmember with hkept | rfl
      · exact h.seen thread hkept expected hphase
      · cases hphase
    · intro thread hmember hphase
      rcases hmem thread hmember with hkept | rfl
      · exact h.reached thread hkept hphase
      · cases hphase
    · rcases h.source with hinitial | ⟨thread, hmember, hdone⟩
      · exact Or.inl hinitial
      · exact Or.inr ⟨thread, List.mem_append_left _ hmember, hdone⟩
  | load hthread hseen =>
    apply h.goesOn (by simp) hthread
    · intro expected hphase
      cases hphase
      exact hseen
    · intro hphase
      cases hphase
  | skip hthread hle =>
    apply h.goesOn (by simp) hthread
    · intro expected hphase
      cases hphase
    · intro _
      exact hle.trans (h.le_newest (h.seen _ (List.mem_of_getElem? hthread) _ rfl))
  | fail hthread hlt hseen =>
    apply h.goesOn (by simp) hthread
    · intro expected hphase
      cases hphase
      exact hseen
    · intro hphase
      cases hphase
  | @exchange i value hthread hlt =>
    have hmem : ∀ thread ∈ s.threads.set i ⟨value, .done⟩,
        thread ∈ s.threads ∨ thread = ⟨value, .done⟩ := by
      intro thread hmember
      exact List.mem_or_eq_of_mem_set hmember
    have hi : i < s.threads.length := (List.getElem?_eq_some_iff.mp hthread).1
    refine ⟨?_, ?_, ?_, h.initial_le.trans hlt.le, Or.inr ⟨⟨value, .done⟩, ?_, rfl, rfl⟩⟩
    · apply List.pairwise_cons.mpr
      refine ⟨?_, h.ordered⟩
      intro seen hseen
      exact (h.le_newest hseen).trans_lt hlt
    · intro thread hmember expected hphase
      rcases hmem thread hmember with hkept | rfl
      · exact List.mem_cons_of_mem _ (h.seen thread hkept expected hphase)
      · cases hphase
    · intro thread hmember hphase
      rcases hmem thread hmember with hkept | rfl
      · exact (h.reached thread hkept hphase).trans hlt.le
      · exact le_refl _
    · exact List.mem_set hi _

theorem max_eq (h : Raised initial s) (hdone : ∀ thread ∈ s.threads, thread.phase = .done) :
    (initial :: s.threads.map Thread.value).max? = some s.newest := by
  apply List.max?_eq_some_iff.mpr
  constructor
  · rcases h.source with hinitial | ⟨thread, hmember, -, hvalue⟩
    · rw [hinitial]
      exact List.mem_cons_self
    · rw [← hvalue]
      exact List.mem_cons_of_mem _ (List.mem_map_of_mem hmember)
  · intro value hvalue
    rcases List.mem_cons.mp hvalue with rfl | hmember
    · exact h.initial_le
    · obtain ⟨thread, hthread, rfl⟩ := List.mem_map.mp hmember
      exact h.reached thread hthread (hdone thread hthread)

end Raised

end MaxCell
