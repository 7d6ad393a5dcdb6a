import SerialIpmi.Basic.Stream
import SerialIpmi.Terminal.Stream

/-! Both parsers behind their interface, as one buffered decoder. The handler's
results are proved from this module alone, for the two modes at once. -/
namespace SerialIpmi

open Decoding

inductive Position where
  | terminal (position : Terminal.Position)
  | basic (position : Framing.Code.Position UInt8)

def Position.between : ProtocolMode → Position
  | .terminal => .terminal .outside
  | .basic => .basic .outside

def Position.mode : Position → ProtocolMode
  | .terminal _ => .terminal
  | .basic _ => .basic

def Position.step : Core Position UInt8 (List UInt8)
  | .terminal position, ch =>
      let next := filterMap Terminal.Frame.payload Terminal.step position ch
      (.terminal next.1, next.2)
  | .basic position, ch =>
      let next := filterMap Basic.keep Basic.basicCode.step position ch
      (.basic next.1, next.2)

def streamPayloads : ProtocolMode → List UInt8 → List (List UInt8)
  | .terminal, stream => (Terminal.frames stream).filterMap Terminal.Frame.payload
  | .basic, stream => (Basic.basicCode.frames stream).filterMap Basic.keep

def parsePayload : ProtocolMode → List UInt8 → Message
  | .terminal, payload => { parseTerminalPayload payload with rawFrame := payload }
  | .basic, payload => { parseBasicPayload payload with rawFrame := payload }

theorem parsePayload_rawFrame (mode : ProtocolMode) (payload : List UInt8) :
    (parsePayload mode payload).rawFrame = payload := by
  cases mode <;> rfl

theorem run_terminal (position : Terminal.Position) (data : List UInt8) :
    run Position.step (.terminal position) data =
      (.terminal (run Terminal.step position data).1,
        (run Terminal.step position data).2.filterMap Terminal.Frame.payload) := by
  induction data generalizing position with
  | nil => rfl
  | cons ch data ih =>
    rw [run_cons, run_cons, List.filterMap_append]
    simp only [Position.step, filterMap, ih]

theorem run_basic (position : Framing.Code.Position UInt8) (data : List UInt8) :
    run Position.step (.basic position) data =
      (.basic (run Basic.basicCode.step position data).1,
        (run Basic.basicCode.step position data).2.filterMap Basic.keep) := by
  induction data generalizing position with
  | nil => rfl
  | cons ch data ih =>
    rw [run_cons, run_cons, List.filterMap_append]
    simp only [Position.step, filterMap, ih]

theorem run_between (mode : ProtocolMode) (stream : List UInt8) :
    (run Position.step (.between mode) stream).2 = streamPayloads mode stream := by
  cases mode with
  | terminal => rw [Position.between, run_terminal, Terminal.run_outside]; rfl
  | basic => rw [Position.between, run_basic, Framing.Code.run_outside]; rfl

/-- A byte releases nothing or one payload. In the second case it ends a frame: it
leaves the parser between frames, where the same byte again changes nothing. -/
theorem step_cases (position : Position) (ch : UInt8) :
    (position.step ch).2 = [] ∨ ∃ payload, position ≠ .between position.mode ∧
      position.step ch = (.between position.mode, [payload]) ∧
      (Position.between position.mode).step ch = (.between position.mode, []) := by
  cases position with
  | terminal position =>
    rcases Terminal.step_cases position ch with hnone | ⟨frame, hframe, hposition, hend⟩
    · left
      simp [Position.step, filterMap, hnone]
    cases hpayload : frame.payload with
    | none =>
      left
      simp [Position.step, filterMap, hframe, hpayload]
    | some payload =>
      have hdiscards : frame.ending.discards = false := by
        by_contra h
        simp [Terminal.Frame.payload, h] at hpayload
      obtain ⟨hnext, hopen⟩ := hend hdiscards
      refine Or.inr ⟨payload, fun h => hposition (Position.terminal.inj h), ?_, ?_⟩
      · simp [Position.step, filterMap, hframe, hpayload, hnext, Position.between, Position.mode]
      · simp [Position.step, Position.between, Position.mode, filterMap, Terminal.step, hopen]
  | basic position =>
    rcases Basic.basicCode.step_cases position ch with hnone | ⟨buffer, rfl, rfl, hstep⟩
    · left
      simp [Position.step, filterMap, hnone]
    cases hkeep : Basic.keep buffer with
    | none =>
      left
      simp [Position.step, filterMap, hstep, hkeep]
    | some payload =>
      have hstop : Basic.basicCode.stop ≠ Basic.basicCode.start := by decide
      refine Or.inr ⟨payload, by simp [Position.between, Position.mode], ?_, ?_⟩
      · simp [Position.step, filterMap, hstep, hkeep, Position.between, Position.mode]
      · simp [Position.step, Position.between, Position.mode, filterMap, Framing.Code.step, hstop]

def streamMessages (mode : ProtocolMode) (stream : List UInt8) : List Message :=
  (streamPayloads mode stream).map (parsePayload mode)

def streamPosition (mode : ProtocolMode) (stream : List UInt8) : Position :=
  (run Position.step (.between mode) stream).1

theorem streamMessages_nil (mode : ProtocolMode) : streamMessages mode [] = [] := by
  unfold streamMessages
  rw [← run_between]
  rfl

theorem streamMessages_append (mode : ProtocolMode) (seen : List UInt8) (ch : UInt8) :
    streamMessages mode (seen ++ [ch]) =
      streamMessages mode seen ++ ((streamPosition mode seen).step ch).2.map (parsePayload mode) := by
  unfold streamMessages
  rw [← run_between, ← run_between, run_append, List.map_append,
    run_cons, run_nil, List.append_nil, streamPosition]

theorem streamPosition_append (mode : ProtocolMode) (seen : List UInt8) (ch : UInt8) :
    streamPosition mode (seen ++ [ch]) = ((streamPosition mode seen).step ch).1 := by
  rw [streamPosition, run_append, run_cons, run_nil, streamPosition]

namespace IParser

def Valid : IParser → Prop
  | .terminal p => p.Valid
  | .basic _ => True

def position : IParser → Position
  | .terminal p => .terminal p.position
  | .basic p => .basic p.position

def payloads : IParser → List (List UInt8)
  | .terminal p => p.completed
  | .basic p => p.completedMessages

theorem valid_createParser (mode : ProtocolMode) : (createParser mode).Valid := by
  cases mode with
  | terminal => exact Terminal.Parser.valid_fresh
  | basic => trivial

theorem valid_feedData {p : IParser} (hp : p.Valid) (data : List UInt8) : (p.feedData data).Valid := by
  cases p with
  | terminal p => exact Terminal.Parser.valid_feedData hp data
  | basic p => trivial

theorem valid_getNextMessage {p : IParser} (hp : p.Valid) : p.getNextMessage.2.Valid := by
  cases p with
  | terminal p => exact Terminal.Parser.valid_pop hp
  | basic p => trivial

theorem mode_feedData (p : IParser) (data : List UInt8) : (p.feedData data).mode = p.mode := by
  cases p <;> rfl

theorem mode_getNextMessage (p : IParser) : p.getNextMessage.2.mode = p.mode := by
  cases p <;> rfl

theorem position_mode (p : IParser) : p.position.mode = p.mode := by
  cases p <;> rfl

theorem position_feedData {p : IParser} (hp : p.Valid) (data : List UInt8) :
    (p.feedData data).position = (run Position.step p.position data).1 := by
  cases p with
  | terminal p =>
    rw [position, run_terminal]
    exact congrArg Position.terminal (Terminal.Parser.position_feedData hp data)
  | basic p =>
    rw [position, run_basic]
    exact congrArg Position.basic (Basic.Parser.position_feedData p data)

theorem payloads_feedData {p : IParser} (hp : p.Valid) (data : List UInt8) :
    (p.feedData data).payloads = p.payloads ++ (run Position.step p.position data).2 := by
  cases p with
  | terminal p =>
    rw [position, run_terminal]
    exact Terminal.Parser.completed_feedData hp data
  | basic p =>
    rw [position, run_basic]
    exact Basic.Parser.completedMessages_feedData p data

theorem hasCompleteMessage_eq (p : IParser) : p.hasCompleteMessage = !p.payloads.isEmpty := by
  cases p <;> rfl

theorem pending_eq (p : IParser) : p.pending = p.payloads.length := by
  cases p <;> rfl

theorem getNextMessage_cons {p : IParser} {payload : List UInt8} {rest : List (List UInt8)}
    (h : p.payloads = payload :: rest) :
    p.getNextMessage.1 = parsePayload p.mode payload ∧ p.getNextMessage.2.payloads = rest ∧
      p.getNextMessage.2.position = p.position := by
  cases p with
  | terminal p =>
    have hqueue : p.completed = payload :: rest := h
    simp [getNextMessage, Terminal.Parser.getNextMessagePayload, hqueue, parsePayload, mode,
      payloads, position, Terminal.Parser.position]
  | basic p =>
    have hqueue : p.completedMessages = payload :: rest := h
    simp [getNextMessage, Basic.Parser.getNextMessage_cons hqueue, parsePayload, mode, payloads,
      position, Basic.Parser.position]

def takeMessages : Nat → IParser → List Message
  | 0, _ => []
  | rounds + 1, p =>
      if p.hasCompleteMessage then
        p.getNextMessage.1 :: takeMessages rounds p.getNextMessage.2
      else []

def drain (p : IParser) : List Message := takeMessages p.pending p

theorem takeMessages_eq (p : IParser) :
    takeMessages p.payloads.length p = p.payloads.map (parsePayload p.mode) := by
  induction hqueue : p.payloads generalizing p with
  | nil => rfl
  | cons payload rest ih =>
    obtain ⟨hmsg, hrest, -⟩ := getNextMessage_cons hqueue
    have htail := ih p.getNextMessage.2 hrest
    rw [List.length_cons, takeMessages, hasCompleteMessage_eq, hqueue, hmsg, htail,
      mode_getNextMessage]
    rfl

theorem drain_eq (p : IParser) : p.drain = p.payloads.map (parsePayload p.mode) := by
  unfold drain
  rw [pending_eq, takeMessages_eq]

/-- A parser of `mode` at `position` with no message waiting. -/
structure Ready (mode : ProtocolMode) (position : Position) (p : IParser) : Prop where
  valid : p.Valid
  mode : p.mode = mode
  position : p.position = position
  payloads : p.payloads = []

theorem ready_createParser (mode : ProtocolMode) :
    (createParser mode).Ready mode (.between mode) := by
  refine ⟨valid_createParser mode, ?_, ?_, ?_⟩ <;> cases mode <;> rfl

theorem drain_createParser (mode : ProtocolMode) (stream : List UInt8) :
    ((createParser mode).feedData stream).drain = streamMessages mode stream := by
  have hready := ready_createParser mode
  rw [drain_eq, mode_feedData, payloads_feedData hready.valid, hready.position, run_between,
    hready.payloads, hready.mode, List.nil_append, streamMessages]

end IParser

end SerialIpmi
