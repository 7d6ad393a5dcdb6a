import SerialIpmi.Replies
import SerialIpmi.Library.Runs

/-! When a reply is lost. The handler stores the slot of a new call over that of the
last one, which cancels the earlier call if its reply is still outstanding. -/
namespace SerialIpmi

namespace Daemon

/-- Every reply that has arrived is answered, and the slot of every outstanding call is
still alive. -/
def NothingLost (d : Daemon) : Prop :=
  (∀ serial ∈ (arrivals d.trace).map Prod.fst, serial ∈ (answers d.trace).map Prod.fst) ∧
    ∀ serial, d.Outstanding serial → d.handler.asyncSlot = some serial

/-- The step makes a call while the reply of an earlier one is outstanding. -/
def Overlaps (env : Env) (d : Daemon) : Step → Prop
  | .incoming msg => Calls env d msg ∧ ∃ serial, d.Outstanding serial
  | .reply _ _ => False

theorem NothingLost.of_sends {d d' : Daemon} (h : NothingLost d) (hsends : Sends d [] d') :
    NothingLost d' := by
  refine ⟨?_, fun serial hlive => ?_⟩
  · rw [hsends.arrivals_eq, hsends.answers_eq, List.append_nil]
    exact h.1
  · unfold Outstanding at hlive
    rw [hsends.calls, hsends.replied] at hlive
    rw [hsends.asyncSlot]
    exact h.2 serial hlive

theorem Starts.outstanding {d d' : Daemon} {msg : Message} (h : Starts d msg d') (serial : Nat)
    (hnew : serial ≠ d.calls.length) : d'.Outstanding serial ↔ d.Outstanding serial := by
  obtain ⟨call, -, hcalls⟩ := h.calls
  unfold Outstanding
  rw [hcalls, h.replied, List.length_append, List.length_singleton]
  have : serial < d.calls.length + 1 ↔ serial < d.calls.length := by omega
  rw [this]

theorem NothingLost.of_starts {d d' : Daemon} {msg : Message} (h : NothingLost d)
    (hstarts : Starts d msg d') (hidle : ∀ serial, ¬ d.Outstanding serial) : NothingLost d' := by
  constructor
  · rw [hstarts.arrivals_eq, hstarts.answers_eq]
    exact h.1
  · intro serial hlive
    rw [hstarts.asyncSlot]
    by_contra hother
    have hne : serial ≠ d.calls.length := fun heq => hother (by rw [heq])
    exact hidle serial ((hstarts.outstanding serial hne).mp hlive)

theorem NothingLost.of_arrives {d d' : Daemon} {serial : Nat} {reply : Reply} {sent : List Message}
    (h : NothingLost d) (harrives : Arrives d serial reply sent d') (hsent : sent ≠ []) :
    NothingLost d' := by
  constructor
  · have hanswered : serial ∈ (sent.map fun resp => (serial, resp)).map Prod.fst := by
      cases sent with
      | nil => exact absurd rfl hsent
      | cons resp rest => exact List.mem_cons_self
    rw [harrives.arrivals, harrives.answers, List.map_append, List.map_append]
    intro other hother
    rcases List.mem_append.mp hother with hold | hnew
    · exact List.mem_append_left _ (h.1 other hold)
    · rw [List.map_singleton, List.mem_singleton] at hnew
      rw [hnew]
      exact List.mem_append_right _ hanswered
  · intro other hlive
    unfold Outstanding at hlive
    rw [harrives.calls, harrives.replied, List.mem_append] at hlive
    rw [harrives.asyncSlot]
    exact h.2 other ⟨hlive.1, fun hmem => hlive.2 (Or.inl hmem)⟩

theorem NothingLost.perform {d : Daemon} (h : NothingLost d) (env : Env) {step : Step}
    (hstep : ¬ Overlaps env d step) : NothingLost (Daemon.perform env step d).state := by
  cases step with
  | incoming msg =>
    rcases processIncoming_cases env msg d with ⟨-, hsends⟩ | ⟨hcalls, hstarts⟩
    · exact h.of_sends hsends
    · apply h.of_starts hstarts
      intro serial hlive
      exact hstep ⟨hcalls, serial, hlive⟩
  | reply serial reply =>
    rcases deliver_arrives env serial reply d with
      ⟨-, hsame⟩ | ⟨hlive, hslot, -⟩ | ⟨-, -, call, sent, -, harrives, hsent⟩
    · have hstate : (Daemon.perform env (.reply serial reply) d).state = d := hsame
      rw [hstate]
      exact h
    · exact absurd (h.2 serial hlive) hslot
    · apply h.of_arrives harrives
      -- the callback sends its first answer, or the exception response
      cases hanswer : firstAnswer call.callback reply with
      | none =>
        rw [hanswer] at hsent
        rw [hsent]
        exact List.cons_ne_nil _ _
      | some resp =>
        rw [hanswer] at hsent
        rcases hsent with rfl | rfl <;> exact List.cons_ne_nil _ _

theorem Overlaps.lost {env : Env} {d : Daemon} {step : Step} (h : Overlaps env d step) :
    ¬ NothingLost (Daemon.perform env step d).state := by
  cases step with
  | reply serial reply => exact h.elim
  | incoming msg =>
    obtain ⟨hcalls, serial, hlive⟩ := h
    rcases processIncoming_cases env msg d with ⟨hnot, -⟩ | ⟨-, hstarts⟩
    · exact absurd hcalls hnot
    · intro hkept
      have hne : serial ≠ d.calls.length := Nat.ne_of_lt hlive.1
      have hslot := hkept.2 serial ((hstarts.outstanding serial hne).mpr hlive)
      have heq := hstarts.asyncSlot.symm.trans hslot
      exact hne (Option.some.inj heq).symm

end Daemon

end SerialIpmi
