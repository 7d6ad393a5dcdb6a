import SerialIpmi.Terminal.RoundTrip

/-! The Terminal-mode parser before and after an encoded payload: how it takes up a
frame from each of its states, whatever it has received so far. -/
namespace SerialIpmi.Terminal

open Decoding

namespace Parser

theorem feedData_encodeResponse {p : Parser} (hp : p.Valid) (hposition : p.position = .outside)
    (q : Parser) (payload : List UInt8) :
    (p.feedData (q.encodeResponse payload)).position = .outside ∧
      (p.feedData (q.encodeResponse payload)).completed = p.completed ++
        (if 1 ≤ payload.length ∧ payload.length ≤ 80 then [payload] else []) ∧
      (p.feedData (q.encodeResponse payload)).stats.framesError = p.stats.framesError +
        if 1 ≤ payload.length ∧ payload.length ≤ 80 then 0 else 1 := by
  obtain ⟨frame, hrun, hpayload, herror⟩ := frames_encodeResponse q payload
  rw [position_feedData hp, completed_feedData hp, stats_feedData hp, hposition, hrun]
  refine ⟨rfl, ?_, ?_⟩
  · by_cases hfits : 1 ≤ payload.length ∧ payload.length ≤ 80 <;> simp [hpayload, hfits]
  · rw [(foldl_count [frame] p.stats).2.2]
    by_cases hfits : 1 ≤ payload.length ∧ payload.length ≤ 80 <;> simp [herror, hfits]

theorem framesError_prefix {p : Parser} (hp : p.Valid) (hposition : p.position = .outside)
    (q : Parser) {payload fed : List UInt8}
    (hfits : 1 ≤ payload.length ∧ payload.length ≤ 80) (hfed : fed <+: q.encodeResponse payload) :
    (p.feedData fed).stats.framesError = p.stats.framesError := by
  obtain ⟨frame, hrun, -, herror⟩ := frames_encodeResponse q payload
  rw [if_pos hfits] at herror
  have hframes : (run step .outside fed).2 <+: [frame] := by
    have := run_mono step .outside hfed
    rwa [hrun] at this
  rw [stats_feedData hp, hposition]
  rcases List.prefix_cons_iff.mp hframes with hnone | ⟨rest, hone, hrest⟩
  · rw [hnone]
    rfl
  · rw [hone, List.prefix_nil.mp hrest, (foldl_count [frame] p.stats).2.2]
    simp [herror]

theorem position_break (position : Position) {ch : UInt8}
    (h : ch = carriageReturn ∨ ch = lineFeed) : (step position ch).1 = .outside := by
  have hother : ch ≠ openBracket ∧ ch ≠ space ∧ isHexDigit ch = false ∧
      (endingOf ch).next = .outside := by
    rcases h with rfl | rfl <;> decide
  cases position <;> simp [step, hother]

theorem run_skip_encodeResponse (q : Parser) (payload : List UInt8) :
    run step .skip (q.encodeResponse payload) = (.outside, []) := by
  have hrest : openBracket ∉ hexBytes payload ++ [closeBracket, carriageReturn, lineFeed] := by
    intro hmem
    rcases List.mem_append.mp hmem with hbytes | hend
    · rcases mem_hexBytes hbytes with hspace | hdigit
      · exact absurd hspace (by decide)
      · rw [not_isHexDigit_open] at hdigit
        exact absurd hdigit (by decide)
    · exact absurd hend (by decide)
  unfold encodeResponse
  rw [run_cons, step, run_skipped hrest]
  rfl

theorem feed_queue (p : Parser) (queue : List (List UInt8)) (ch : UInt8) :
    { p with completed := queue ++ p.completed }.feed ch =
      { p.feed ch with completed := queue ++ (p.feed ch).completed } := by
  obtain ⟨stats, state, hexBuffer, completed⟩ := p
  unfold feed
  cases state <;> dsimp only <;> split_ifs <;> simp

theorem feedData_queue (p : Parser) (queue : List (List UInt8)) (data : List UInt8) :
    { p with completed := queue ++ p.completed }.feedData data =
      { p.feedData data with completed := queue ++ (p.feedData data).completed } := by
  induction data generalizing p with
  | nil => rfl
  | cons ch data ih =>
    unfold feedData at ih ⊢
    rw [List.foldl_cons, List.foldl_cons, feed_queue]
    exact ih (p.feed ch)

theorem feed_lineFeed {p : Parser} (hposition : p.position = .outside) :
    (p.feed lineFeed).state = .idle := by
  have hopen : lineFeed ≠ openBracket := by decide
  obtain ⟨stats, state, hexBuffer, completed⟩ := p
  cases state with
  | idle => simp [feed, hopen]
  | complete => simp [feed, hopen]
  | receivingHex => simp [position] at hposition
  | error => simp [position] at hposition

theorem feedData_newline {p : Parser} (hp : p.Valid) (data : List UInt8) :
    (p.feedData (data ++ [carriageReturn, lineFeed])).state = .idle := by
  have hposition : (p.feedData (data ++ [carriageReturn])).position = .outside := by
    rw [position_feedData hp, run_append, run_cons, run_nil]
    exact position_break _ (Or.inl rfl)
  have hsplit : data ++ [carriageReturn, lineFeed] = (data ++ [carriageReturn]) ++ [lineFeed] := by
    simp
  rw [hsplit, feedData, List.foldl_append]
  exact feed_lineFeed hposition

end Parser

/-- A line break brings a parser that has received anything to where it takes the next
payload: exactly that one is added, and nothing of it counts as an error. -/
theorem recovers_at_break (garbage : List UInt8) (ch : UInt8) (payload : List UInt8)
    (hbreak : ch = carriageReturn ∨ ch = lineFeed)
    (hfits : 1 ≤ payload.length ∧ payload.length ≤ 80) :
    let p := ({} : Parser).feedData (garbage ++ [ch])
    (p.feedData (p.encodeResponse payload)).completed = p.completed ++ [payload] ∧
      ∀ fed, fed <+: p.encodeResponse payload →
        (p.feedData fed).stats.framesError = p.stats.framesError := by
  intro p
  have hp : p.Valid := Parser.valid_feedData Parser.valid_fresh _
  have hposition : p.position = .outside := by
    rw [Parser.position_feedData Parser.valid_fresh, run_append, run_cons, run_nil]
    exact Parser.position_break _ hbreak
  obtain ⟨-, hcompleted, -⟩ := Parser.feedData_encodeResponse hp hposition p payload
  rw [if_pos hfits] at hcompleted
  refine ⟨hcompleted, ?_⟩
  intro fed hfed
  exact Parser.framesError_prefix hp hposition p hfits hfed

theorem recovers_at_break_truncated :
    let p := ({} : Parser).feedData ([0x5B, 0x30, 0x34, 0x20, 0x30] ++ [lineFeed])
    (p.feedData (p.encodeResponse [0x18, 0x00, 0x38])).completed =
      p.completed ++ [[0x18, 0x00, 0x38]] :=
  (recovers_at_break [0x5B, 0x30, 0x34, 0x20, 0x30] lineFeed [0x18, 0x00, 0x38]
    (Or.inr rfl) (by decide)).1

/-- Without a line break a parser that is not inside a frame takes the next payload exactly
when no frame has just been rejected. -/
theorem recovers_directly_iff (garbage payload : List UInt8)
    (hfits : 1 ≤ payload.length ∧ payload.length ≤ 80)
    (houtside : (({} : Parser).feedData garbage).state ≠ .receivingHex) :
    let p := ({} : Parser).feedData garbage
    (p.feedData (p.encodeResponse payload)).completed = p.completed ++ [payload] ↔
      p.state ≠ .error := by
  intro p
  have hp : p.Valid := Parser.valid_feedData Parser.valid_fresh _
  have hbetween : p.state ≠ .error → p.position = .outside := by
    intro herror
    unfold Parser.position
    cases hstate : p.state with
    | idle => rfl
    | complete => rfl
    | receivingHex => exact absurd hstate houtside
    | error => exact absurd hstate herror
  by_cases herror : p.state = .error
  · have hskip : p.position = .skip := by
      unfold Parser.position
      rw [herror]
    rw [Parser.completed_feedData hp, hskip, Parser.run_skip_encodeResponse]
    simp [herror]
  · obtain ⟨-, hcompleted, -⟩ := Parser.feedData_encodeResponse hp (hbetween herror) p payload
    rw [if_pos hfits] at hcompleted
    exact iff_of_true hcompleted herror

theorem recovers_directly_complete :
    let p := ({} : Parser).feedData [0x5B, 0x30, 0x34, 0x5D]
    (p.feedData (p.encodeResponse [0x18, 0x00, 0x38])).completed =
      p.completed ++ [[0x18, 0x00, 0x38]] :=
  (recovers_directly_iff [0x5B, 0x30, 0x34, 0x5D] [0x18, 0x00, 0x38] (by decide)
    (by decide)).mpr (by decide)

/-- `[G` and right after it `[18 00 38]`: the second bracket is lost with the rejected frame. -/
theorem frame_lost_after_rejection :
    let p := ({} : Parser).feedData [0x5B, 0x47]
    p.state = .error ∧ (p.feedData (p.encodeResponse [0x18, 0x00, 0x38])).completed ≠
      p.completed ++ [[0x18, 0x00, 0x38]] := by
  decide

/-- Between frames an encoded payload of any length leaves the parser idle. It is added if it
has 1 to 80 bytes, and is one error otherwise. -/
theorem encodeResponse_limits (p : Parser) (payload : List UInt8)
    (hstate : p.state = .idle ∨ p.state = .complete) (hbuffer : p.hexBuffer = []) :
    let q := p.feedData (p.encodeResponse payload)
    q.state = .idle ∧ q.hexBuffer = [] ∧
      (1 ≤ payload.length ∧ payload.length ≤ 80 →
        q.completed = p.completed ++ [payload] ∧ q.stats.framesError = p.stats.framesError) ∧
      (payload = [] ∨ 80 < payload.length →
        q.completed = p.completed ∧ q.stats.framesError = p.stats.framesError + 1) := by
  intro q
  -- the payloads that wait already are no business of the parser's invariant
  set fresh : Parser := { p with completed := [] } with hfresh
  have hvalid : fresh.Valid :=
    ⟨by simp [hfresh, hbuffer], by simp [hfresh, hbuffer], fun _ => hbuffer, by simp [hfresh]⟩
  have hposition : fresh.position = .outside := by
    rcases hstate with h | h <;> simp [hfresh, Parser.position, h]
  have hq : q = { fresh.feedData (p.encodeResponse payload) with
      completed := p.completed ++ (fresh.feedData (p.encodeResponse payload)).completed } := by
    have hp : p = { fresh with completed := p.completed ++ fresh.completed } := by
      simp [hfresh]
    rw [← Parser.feedData_queue, ← hp]
  obtain ⟨-, hcompleted, herror⟩ := Parser.feedData_encodeResponse hvalid hposition p payload
  have hidle : (fresh.feedData (p.encodeResponse payload)).state = .idle := by
    have hline : p.encodeResponse payload =
        (openBracket :: (Parser.hexBytes payload ++ [closeBracket])) ++
          [carriageReturn, lineFeed] := by
      simp [Parser.encodeResponse]
    rw [hline]
    exact Parser.feedData_newline hvalid _
  have hempty := (Parser.valid_feedData hvalid (p.encodeResponse payload)).empty
    (by rw [hidle]; decide)
  rw [hq]
  refine ⟨hidle, hempty, ?_, ?_⟩
  · intro hfits
    rw [if_pos hfits] at hcompleted herror
    exact ⟨congrArg (p.completed ++ ·) hcompleted, by rw [herror]; exact UInt64.add_zero _⟩
  · intro hmisfit
    have hunfit : ¬ (1 ≤ payload.length ∧ payload.length ≤ 80) := by
      rcases hmisfit with rfl | hlong
      · simp
      · omega
    rw [if_neg hunfit] at hcompleted herror
    refine ⟨?_, herror⟩
    rw [hcompleted]
    exact List.append_nil _

theorem encodeResponse_limits_waiting :
    let p : Parser := { state := .complete, completed := [[0x04]] }
    (p.feedData (p.encodeResponse [0x1C, 0x00, 0x01, 0x00])).completed =
      [[0x04], [0x1C, 0x00, 0x01, 0x00]] :=
  ((encodeResponse_limits { state := .complete, completed := [[0x04]] } [0x1C, 0x00, 0x01, 0x00]
    (Or.inr rfl) rfl).2.2.1 (by decide)).1

end SerialIpmi.Terminal
