import SerialIpmi.Terminal.Stream

/-! Terminal-mode encoding on the line: what the decoder makes of an encoded
payload of any length. -/
namespace SerialIpmi.Terminal

open Decoding

theorem isHexDigit_hexByte (byte : UInt8) : ∀ ch ∈ Parser.hexByte byte, isHexDigit ch = true := by
  simp [Parser.hexByte, hexDigit_isHexDigit_high, hexDigit_isHexDigit_low]

theorem filter_hexBytes (payload : List UInt8) :
    (Parser.hexBytes payload).filter isHexDigit = payload.flatMap Parser.hexByte := by
  have hbyte : ∀ byte, (Parser.hexByte byte).filter isHexDigit = Parser.hexByte byte := fun byte =>
    List.filter_eq_self.mpr (isHexDigit_hexByte byte)
  have hspaced : ∀ rest : List UInt8,
      (rest.flatMap fun byte => space :: Parser.hexByte byte).filter isHexDigit =
        rest.flatMap Parser.hexByte := by
    intro rest
    rw [List.filter_flatMap]
    congr 1
    funext byte
    rw [List.filter_cons, not_isHexDigit_space, hbyte]
    rfl
  cases payload with
  | nil => rfl
  | cons byte rest => rw [Parser.hexBytes, List.filter_append, hbyte, hspaced, List.flatMap_cons]

theorem mem_hexBytes {payload : List UInt8} {ch : UInt8} (h : ch ∈ Parser.hexBytes payload) :
    ch = space ∨ isHexDigit ch = true := by
  cases payload with
  | nil => simp [Parser.hexBytes] at h
  | cons byte rest =>
    unfold Parser.hexBytes at h
    rw [List.mem_append, List.mem_flatMap] at h
    rcases h with hfirst | ⟨byte', -, hrest⟩
    · exact Or.inr (isHexDigit_hexByte byte ch hfirst)
    · rcases List.mem_cons.mp hrest with hspace | hdigit
      · exact Or.inl hspace
      · exact Or.inr (isHexDigit_hexByte byte' ch hdigit)

theorem length_flatMap_hexByte (payload : List UInt8) :
    (payload.flatMap Parser.hexByte).length = 2 * payload.length := by
  induction payload with
  | nil => rfl
  | cons byte payload ih =>
    rw [List.flatMap_cons, List.length_append, ih, List.length_cons]
    simp only [Parser.hexByte, List.length_cons, List.length_nil]
    omega

theorem run_digits {input : List UInt8} (h : ∀ ch ∈ input, ch = space ∨ isHexDigit ch = true)
    (digits rest : List UInt8) (hfit : digits.length + (input.filter isHexDigit).length ≤ 160) :
    run step (.inside digits) (input ++ rest) =
      run step (.inside (digits ++ input.filter isHexDigit)) rest := by
  induction input generalizing digits with
  | nil => simp
  | cons ch input ih =>
    have htail : ∀ ch ∈ input, ch = space ∨ isHexDigit ch = true := fun c hc =>
      h c (List.mem_cons_of_mem _ hc)
    by_cases hspace : ch = space
    · subst hspace
      rw [List.filter_cons, not_isHexDigit_space] at hfit ⊢
      rw [List.cons_append, run_cons]
      simpa [step] using ih htail digits hfit
    · have hdigit := (h ch List.mem_cons_self).resolve_left hspace
      rw [List.filter_cons, hdigit, if_pos rfl] at hfit ⊢
      rw [List.length_cons] at hfit
      have hroom : digits.length ≠ 160 := by omega
      rw [List.cons_append, run_cons]
      have := ih htail (digits ++ [ch]) (by simp only [List.length_append, List.length_singleton]; omega)
      simpa [step, hspace, hdigit, hroom] using this

theorem run_skipped {input : List UInt8} (h : openBracket ∉ input) :
    run step .outside input = (.outside, []) := by
  induction input with
  | nil => rfl
  | cons ch input ih =>
    have hch : ch ≠ openBracket := (List.ne_of_not_mem_cons h).symm
    rw [run_cons]
    simp [step, hch, ih (List.not_mem_of_not_mem_cons h)]

theorem run_skip {input : List UInt8} (hne : input ≠ []) (h : openBracket ∉ input) :
    run step .skip input = (.outside, []) := by
  cases input with
  | nil => exact absurd rfl hne
  | cons lost input =>
    rw [run_cons]
    simp [step, run_skipped (List.not_mem_of_not_mem_cons h)]

theorem run_overflow {input : List UInt8} (h : ∀ ch ∈ input, ch = space ∨ isHexDigit ch = true)
    (digits rest : List UInt8) (hdigits : digits.length ≤ 160)
    (hover : 160 < digits.length + (input.filter isHexDigit).length) (hrest : rest ≠ [])
    (hopen : openBracket ∉ rest) :
    ∃ taken : List UInt8, run step (.inside digits) (input ++ rest) =
      (.outside, [⟨taken, .overflow⟩]) := by
  induction input generalizing digits with
  | nil =>
    simp only [List.filter_nil, List.length_nil] at hover
    omega
  | cons ch input ih =>
    have htail : ∀ ch ∈ input, ch = space ∨ isHexDigit ch = true := fun c hc =>
      h c (List.mem_cons_of_mem _ hc)
    by_cases hspace : ch = space
    · subst hspace
      rw [List.filter_cons, not_isHexDigit_space] at hover
      obtain ⟨taken, hrun⟩ := ih htail digits hdigits hover
      exact ⟨taken, by simpa [run_cons, step] using hrun⟩
    have hdigit := (h ch List.mem_cons_self).resolve_left hspace
    by_cases hfull : digits.length = 160
    · -- the digit overflows, and the byte after it is lost before skipping starts
      refine ⟨digits, ?_⟩
      have hno : openBracket ∉ input ++ rest := by
        rw [List.mem_append]
        rintro (hin | hin)
        · rcases htail _ hin with heq | heq
          · exact absurd heq (by decide)
          · rw [not_isHexDigit_open] at heq
            exact absurd heq (by decide)
        · exact hopen hin
      rw [List.cons_append, run_cons]
      simp [step, hspace, hdigit, hfull, run_skip (by simp [hrest]) hno]
    · rw [List.filter_cons, hdigit, if_pos rfl, List.length_cons] at hover
      obtain ⟨taken, hrun⟩ := ih htail (digits ++ [ch])
        (by simp only [List.length_append, List.length_singleton]; omega)
        (by simp only [List.length_append, List.length_singleton]; omega)
      exact ⟨taken, by simpa [run_cons, step, hspace, hdigit, hfull] using hrun⟩

theorem run_encodeResponse (p : Parser) {payload : List UInt8} (h : payload.length ≤ 80) :
    run step .outside (p.encodeResponse payload) =
      (.outside, [⟨payload.flatMap Parser.hexByte, .bracket⟩]) := by
  have hfit : ([] : List UInt8).length + ((Parser.hexBytes payload).filter isHexDigit).length ≤
      160 := by
    rw [filter_hexBytes, length_flatMap_hexByte, List.length_nil]
    omega
  have hinside := run_digits (fun _ => mem_hexBytes) [] [closeBracket, carriageReturn, lineFeed] hfit
  rw [filter_hexBytes, List.nil_append] at hinside
  unfold Parser.encodeResponse
  rw [run_cons]
  simp only [step, if_true, List.nil_append, hinside]
  rfl

theorem run_encodeResponse_long (p : Parser) {payload : List UInt8} (h : 80 < payload.length) :
    ∃ taken : List UInt8, run step .outside (p.encodeResponse payload) =
      (.outside, [⟨taken, .overflow⟩]) := by
  have hover : 160 < ([] : List UInt8).length +
      ((Parser.hexBytes payload).filter isHexDigit).length := by
    rw [filter_hexBytes, length_flatMap_hexByte, List.length_nil]
    omega
  obtain ⟨taken, hrun⟩ := run_overflow (fun _ => mem_hexBytes) []
    [closeBracket, carriageReturn, lineFeed] (by simp) hover (by simp) (by decide)
  refine ⟨taken, ?_⟩
  unfold Parser.encodeResponse
  rw [run_cons]
  simp only [step, if_true, List.nil_append, hrun]

theorem encodeResponse_injective (p q : Parser) {left right : List UInt8}
    (h : p.encodeResponse left = q.encodeResponse right) : left = right := by
  have hdigits : ∀ (p : Parser) (payload : List UInt8),
      (p.encodeResponse payload).filter isHexDigit = payload.flatMap Parser.hexByte := by
    intro p payload
    have hend : [closeBracket, carriageReturn, lineFeed].filter isHexDigit = [] := by decide
    rw [Parser.encodeResponse, List.filter_cons, not_isHexDigit_open, List.filter_append, hend,
      filter_hexBytes]
    simp
  have hflat := congrArg (List.filter isHexDigit) h
  rw [hdigits, hdigits] at hflat
  rw [← pairBytes_hexBytes left, hflat, pairBytes_hexBytes]

theorem frames_encodeResponse (p : Parser) (payload : List UInt8) :
    ∃ frame : Frame, run step .outside (p.encodeResponse payload) = (.outside, [frame]) ∧
      frame.payload = (if 1 ≤ payload.length ∧ payload.length ≤ 80 then some payload else none) ∧
      frame.framesError = if 1 ≤ payload.length ∧ payload.length ≤ 80 then 0 else 1 := by
  by_cases hlong : payload.length ≤ 80
  · have hlength := length_flatMap_hexByte payload
    have hpayload := pairBytes_hexBytes payload
    refine ⟨_, run_encodeResponse p hlong, ?_⟩
    generalize payload.flatMap Parser.hexByte = digits at hlength hpayload
    by_cases hempty : 1 ≤ payload.length
    · have hdigits : ¬ digits.length < 2 := by omega
      simp [Frame.payload, Frame.framesError, Ending.discards, hempty, hlong, hdigits, hpayload]
    · have hdigits : digits.length < 2 := by omega
      simp [Frame.payload, Frame.framesError, Ending.discards, hempty, hdigits]
  · obtain ⟨taken, hrun⟩ := run_encodeResponse_long p (Nat.lt_of_not_le hlong)
    refine ⟨_, hrun, ?_⟩
    simp [Frame.payload, Frame.framesError, Ending.discards, hlong]

theorem streamPayload_encodeResponse (p : Parser) (payload : List UInt8) :
    (frames (p.encodeResponse payload)).filterMap Frame.payload =
      if 1 ≤ payload.length ∧ payload.length ≤ 80 then [payload] else [] := by
  obtain ⟨frame, hrun, hpayload, -⟩ := frames_encodeResponse p payload
  rw [← run_outside, hrun]
  by_cases hfits : 1 ≤ payload.length ∧ payload.length ≤ 80 <;> simp [hpayload, hfits]

def Fits (payload : List UInt8) : Prop :=
  1 ≤ payload.length ∧ payload.length ≤ 80

instance (payload : List UInt8) : Decidable (Fits payload) :=
  inferInstanceAs (Decidable (1 ≤ payload.length ∧ payload.length ≤ 80))

theorem run_encodeResponses (p : Parser) (payloads : List (List UInt8)) :
    ∃ fs : List Frame, run step .outside (payloads.flatMap p.encodeResponse) = (.outside, fs) ∧
      fs.filterMap Frame.payload = payloads.filter (fun m => Fits m) ∧
      (fs.map Frame.framesError).sum = payloads.countP fun m => ¬ Fits m := by
  induction payloads with
  | nil => exact ⟨[], rfl, rfl, rfl⟩
  | cons payload payloads ih =>
    obtain ⟨fs, hrun, hpayloads, herrors⟩ := ih
    obtain ⟨frame, hfirst, hpayload, herror⟩ := frames_encodeResponse p payload
    change frame.payload = if Fits payload then some payload else none at hpayload
    change frame.framesError = if Fits payload then 0 else 1 at herror
    refine ⟨frame :: fs, ?_, ?_, ?_⟩
    · rw [List.flatMap_cons, run_append, hfirst, hrun]
      rfl
    · rw [List.filterMap_cons, hpayload, hpayloads]
      by_cases hfits : Fits payload <;> simp [hfits]
    · rw [List.map_cons, List.sum_cons, herrors, herror, List.countP_cons, Nat.add_comm]
      by_cases hfits : Fits payload <;> simp [hfits]

end SerialIpmi.Terminal
