import SerialIpmi.Library.Damage
import SerialIpmi.Terminal.RoundTrip

/-! Encoded payloads of which the line takes a first part only. The opening bracket of the next
one rejects such a frame, and the rest of the next one is skipped. -/
namespace SerialIpmi.Terminal

open Decoding

def payloadStep : Core Position UInt8 (List UInt8) := filterMap Frame.payload step

def Position.isOutside : Position → Bool
  | .outside => true
  | .inside _ => false
  | .skip => false

def deliverable (p : Parser) (cut : Cut UInt8) : Option (List UInt8) :=
  (cut.finished p.encodeResponse closeBracket).filter fun m => Fits m

def unclosed (p : Parser) (cut : Cut UInt8) : Bool := closeBracket ∉ cut.line p.encodeResponse

theorem take_encodeResponse_cases (p : Parser) (payload : List UInt8) (taken : Nat) :
    (p.encodeResponse payload).take taken = [] ∨
      (∃ count, (p.encodeResponse payload).take taken =
        openBracket :: (Parser.hexBytes payload).take count) ∨
      ∃ count, (p.encodeResponse payload).take taken = openBracket ::
        (Parser.hexBytes payload ++ closeBracket :: [carriageReturn, lineFeed].take count) := by
  cases taken with
  | zero => exact Or.inl List.take_zero
  | succ count =>
    right
    unfold Parser.encodeResponse
    rw [List.take_succ_cons]
    by_cases hpart : count ≤ (Parser.hexBytes payload).length
    · left
      exact ⟨count, by rw [List.take_append_of_le_length hpart]⟩
    · right
      obtain ⟨more, hmore⟩ : ∃ more, count - (Parser.hexBytes payload).length = more + 1 :=
        Nat.exists_eq_add_one.mpr (Nat.sub_pos_of_lt (Nat.lt_of_not_le hpart))
      refine ⟨more, ?_⟩
      rw [List.take_append, List.take_of_length_le (Nat.le_of_not_le hpart), hmore,
        List.take_succ_cons]

theorem notMem_hexBytes {ch : UInt8} (hspace : ch ≠ space) (hdigit : isHexDigit ch = false)
    (payload : List UInt8) : ch ∉ Parser.hexBytes payload := by
  intro hmem
  rcases mem_hexBytes hmem with heq | htrue
  · exact hspace heq
  · rw [hdigit] at htrue
    exact absurd htrue Bool.false_ne_true

theorem open_notMem_rest (payload : List UInt8) (count : Nat) :
    openBracket ∉ Parser.hexBytes payload ++
      closeBracket :: [carriageReturn, lineFeed].take count := by
  have hend : openBracket ∉ closeBracket :: [carriageReturn, lineFeed] := by decide
  rw [List.mem_append, List.mem_cons]
  rintro (hbytes | hclose | htake)
  · exact notMem_hexBytes (by decide) not_isHexDigit_open payload hbytes
  · exact hend (hclose ▸ List.mem_cons_self)
  · exact hend (List.mem_cons_of_mem _ (List.mem_of_mem_take htake))

/-- An opening bracket inside a frame or behind a rejected one costs all that follows it up to the
next one, as long as anything follows. -/
theorem run_dirty {position : Position} (h : position.isOutside = false) {rest : List UInt8}
    (hrest : openBracket ∉ rest) :
    (run payloadStep position (openBracket :: rest)).2 = [] ∧
      (rest ≠ [] → (run payloadStep position (openBracket :: rest)).1.isOutside = true) := by
  unfold payloadStep
  rw [run_filterMap, run_cons]
  cases position with
  | outside => cases h
  | skip =>
    rw [step, run_skipped hrest]
    exact ⟨rfl, fun _ => rfl⟩
  | inside digits =>
    have hstep : step (.inside digits) openBracket = (.skip, [⟨digits, .illegal⟩]) := by
      have hother : openBracket ≠ space ∧ isHexDigit openBracket = false ∧
          endingOf openBracket = .illegal := by decide
      simp [step, hother, Ending.next, Ending.discards]
    rw [hstep]
    cases rest with
    | nil => exact ⟨rfl, fun h => absurd rfl h⟩
    | cons lost rest =>
      rw [run_skip (List.cons_ne_nil _ _) hrest]
      exact ⟨rfl, fun _ => rfl⟩

theorem payloadStep_digit {ch : UInt8} (h : ch = space ∨ isHexDigit ch = true)
    (position : Position) : (payloadStep position ch).2 = [] := by
  have hopen : ch ≠ openBracket := by
    rintro rfl
    exact absurd h (by decide)
  cases position with
  | outside => simp [payloadStep, filterMap, step, hopen]
  | skip => rfl
  | inside digits =>
    by_cases hspace : ch = space
    · simp [payloadStep, filterMap, step, hspace]
    have hdigit := h.resolve_left hspace
    by_cases hfull : digits.length = 160
    · simp [payloadStep, filterMap, step, hspace, hdigit, hfull, Frame.payload, Ending.discards]
    · simp [payloadStep, filterMap, step, hspace, hdigit, hfull]

theorem payloads_digits {input : List UInt8} (h : ∀ ch ∈ input, ch = space ∨ isHexDigit ch = true)
    (position : Position) : (run payloadStep position input).2 = [] := by
  induction input generalizing position with
  | nil => rfl
  | cons ch input ih =>
    rw [run_cons, payloadStep_digit (h ch List.mem_cons_self),
      ih fun c hc => h c (List.mem_cons_of_mem _ hc)]
    rfl

theorem step_close (position : Position) : (step position closeBracket).1 = .outside := by
  cases position with
  | outside => rfl
  | skip => rfl
  | inside digits =>
    have hother : closeBracket ≠ space ∧ isHexDigit closeBracket = false ∧
        (endingOf closeBracket).next = .outside := by decide
    simp [step, hother]

theorem run_close {input tail : List UInt8} (h : openBracket ∉ tail) (position : Position) :
    run step position (input ++ closeBracket :: tail) =
      (.outside, (run step position (input ++ [closeBracket])).2) := by
  rw [run_append, run_append, run_cons, step_close, run_skipped h, run_cons, step_close]
  rfl

theorem run_closed (payload : List UInt8) (count : Nat) :
    run payloadStep .outside (openBracket ::
        (Parser.hexBytes payload ++ closeBracket :: [carriageReturn, lineFeed].take count)) =
      (.outside, if Fits payload then [payload] else []) := by
  obtain ⟨frame, hrun, hpayload, -⟩ := frames_encodeResponse {} payload
  change frame.payload = if Fits payload then some payload else none at hpayload
  have htail : openBracket ∉ [carriageReturn, lineFeed] := by decide
  have htaken : openBracket ∉ [carriageReturn, lineFeed].take count := fun hmem =>
    htail (List.mem_of_mem_take hmem)
  have hwhole : run step .outside ((openBracket :: Parser.hexBytes payload) ++
      closeBracket :: [carriageReturn, lineFeed]) = (.outside, [frame]) := hrun
  rw [run_close htail] at hwhole
  unfold payloadStep
  rw [run_filterMap, ← List.cons_append, run_close htaken, (Prod.mk.inj hwhole).2,
    List.filterMap_cons, hpayload]
  by_cases hfits : Fits payload <;> simp [hfits]

theorem line_cases (p : Parser) (cut : Cut UInt8) :
    (unclosed p cut = false ∧ ∃ count, cut.line p.encodeResponse = openBracket ::
      (Parser.hexBytes cut.payload ++ closeBracket :: [carriageReturn, lineFeed].take count)) ∨
    (unclosed p cut = true ∧ (cut.line p.encodeResponse = [] ∨ ∃ count,
      cut.line p.encodeResponse = openBracket :: (Parser.hexBytes cut.payload).take count)) := by
  unfold unclosed
  rcases take_encodeResponse_cases p cut.payload cut.taken with hnone | ⟨count, hpart⟩ |
    ⟨count, hclosed⟩
  · rw [Cut.line, hnone]
    exact Or.inr ⟨by simp, Or.inl rfl⟩
  · rw [Cut.line, hpart]
    refine Or.inr ⟨?_, Or.inr ⟨count, rfl⟩⟩
    have hdigits : closeBracket ∉ Parser.hexBytes cut.payload :=
      notMem_hexBytes (by decide) (by decide) cut.payload
    have hopen : closeBracket ≠ openBracket := by decide
    have htaken : closeBracket ∉ (Parser.hexBytes cut.payload).take count := fun hmem =>
      hdigits (List.mem_of_mem_take hmem)
    simp [hopen, htaken]
  · rw [Cut.line, hclosed]
    exact Or.inl ⟨by simp, count, rfl⟩

theorem deliverable_eq (p : Parser) (cut : Cut UInt8) : deliverable p cut =
    if unclosed p cut = false ∧ Fits cut.payload then some cut.payload else none := by
  unfold deliverable unclosed Cut.finished
  by_cases hclose : closeBracket ∈ cut.line p.encodeResponse
  · by_cases hfits : Fits cut.payload <;> simp [hclose, hfits]
  · simp [hclose]

theorem released_dirty (p : Parser) {position : Position} (h : position.isOutside = false)
    (cut : Cut UInt8) : (run payloadStep position (cut.line p.encodeResponse)).2 = [] := by
  rcases line_cases p cut with ⟨-, count, hline⟩ | ⟨-, hline | ⟨count, hline⟩⟩
  · rw [hline]
    exact (run_dirty h (open_notMem_rest cut.payload count)).1
  · rw [hline]
    rfl
  · have hopen : openBracket ∉ (Parser.hexBytes cut.payload).take count := fun hmem =>
      notMem_hexBytes (by decide) not_isHexDigit_open cut.payload (List.mem_of_mem_take hmem)
    rw [hline]
    exact (run_dirty h hopen).1

theorem released_unclosed (p : Parser) (position : Position) {cut : Cut UInt8}
    (h : unclosed p cut = true) : (run payloadStep position (cut.line p.encodeResponse)).2 = [] := by
  cases hdirty : position.isOutside with
  | false => exact released_dirty p hdirty cut
  | true =>
    rcases line_cases p cut with ⟨hclosed, -⟩ | ⟨-, hline | ⟨count, hline⟩⟩
    · rw [h] at hclosed
      cases hclosed
    · rw [hline]
      rfl
    · have hdigits : (run payloadStep (.inside []) ((Parser.hexBytes cut.payload).take count)).2 =
          [] := payloads_digits (fun _ hch => mem_hexBytes (List.mem_of_mem_take hch)) _
      cases position with
      | outside =>
        rw [hline, run_cons]
        exact hdigits
      | inside digits => cases hdirty
      | skip => cases hdirty

theorem run_of_closed (p : Parser) {cut : Cut UInt8} (h : unclosed p cut = false)
    (position : Position) :
    (run payloadStep position (cut.line p.encodeResponse)).1.isOutside = true ∧
      (position.isOutside = true → (run payloadStep position (cut.line p.encodeResponse)).2 =
        if Fits cut.payload then [cut.payload] else []) := by
  rcases line_cases p cut with ⟨-, count, hline⟩ | ⟨hunclosed, -⟩
  · rw [hline]
    cases hdirty : position.isOutside with
    | false =>
      refine ⟨(run_dirty hdirty (open_notMem_rest cut.payload count)).2 ?_, nofun⟩
      simp
    | true =>
      cases position with
      | outside =>
        rw [run_closed]
        exact ⟨rfl, fun _ => rfl⟩
      | inside digits => cases hdirty
      | skip => cases hdirty
  · rw [h] at hunclosed
    cases hunclosed

theorem deliverable_eq_some {p : Parser} {cut : Cut UInt8} {payload : List UInt8}
    (h : deliverable p cut = some payload) :
    unclosed p cut = false ∧ Fits payload ∧ cut.payload = payload := by
  rw [deliverable_eq] at h
  split_ifs at h with hcut
  obtain rfl := Option.some.inj h
  exact ⟨hcut.1, hcut.2, rfl⟩

theorem contains_cuts (p : Parser) :
    Contains payloadStep (Cut.line p.encodeResponse) Position.isOutside (deliverable p)
      (unclosed p) where
  reads := by
    intro position cut payload hclean hdeliver
    obtain ⟨hclosed, hfits, rfl⟩ := deliverable_eq_some hdeliver
    rw [(run_of_closed p hclosed position).2 hclean, if_pos hfits]
  recovers := by
    intro position cut payload hdeliver
    obtain ⟨hclosed, -⟩ := deliverable_eq_some hdeliver
    exact (run_of_closed p hclosed position).1
  silent := by
    intro position cut hnone
    rw [deliverable_eq] at hnone
    cases hunclosed : unclosed p cut with
    | true => exact released_unclosed p position hunclosed
    | false =>
      cases hclean : position.isOutside with
      | false => exact released_dirty p hclean cut
      | true =>
        rw [(run_of_closed p hunclosed position).2 hclean, if_neg]
        intro hfits
        rw [if_pos ⟨hunclosed, hfits⟩] at hnone
        cases hnone
  keeps := by
    intro position cut _ hclosed _
    exact (run_of_closed p hclosed position).1

end SerialIpmi.Terminal
