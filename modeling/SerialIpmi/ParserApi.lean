import SerialIpmi.ParserStream

/-! The parser interface as its clients see it: calls in any order, `reset` included. The object
behind it is a reader of one stream, which begins anew at each reset. -/
namespace SerialIpmi

open Decoding

inductive ParserCall where
  | feedData (data : List UInt8)
  | hasCompleteMessage
  | getNextMessage
  | encodeResponse (payload : List UInt8)
  | reset
  deriving DecidableEq, Repr

inductive ParserResult where
  | void
  | complete (hasMessage : Bool)
  | message (msg : Message)
  | encoded (frame : List UInt8)
  deriving DecidableEq, Repr

def IParser.call (p : IParser) : ParserCall → IParser × List ParserResult
  | .feedData data => (p.feedData data, [.void])
  | .hasCompleteMessage => (p, [.complete p.hasCompleteMessage])
  | .getNextMessage =>
      let result := p.getNextMessage
      (result.2, [.message result.1])
  | .encodeResponse payload => (p, [.encoded (p.encodeResponse payload)])
  | .reset => (p.reset, [.void])

/-- The bytes since the last reset, and how many of their messages have been taken. -/
structure Reader where
  stream : List UInt8 := []
  taken : Nat := 0
  deriving DecidableEq, Repr

namespace Reader

def messages (mode : ProtocolMode) (r : Reader) : List Message :=
  (streamMessages mode r.stream).drop r.taken

def emptyMessage : ProtocolMode → Message
  | .terminal => { mode := some .terminal }
  | .basic => { mode := some .basic }

def call (mode : ProtocolMode) (r : Reader) : ParserCall → Reader × List ParserResult
  | .feedData data => ({ r with stream := r.stream ++ data }, [.void])
  | .hasCompleteMessage => (r, [.complete !(r.messages mode).isEmpty])
  | .getNextMessage =>
      match r.messages mode with
      | [] => (r, [.message (emptyMessage mode)])
      | msg :: _ => ({ r with taken := r.taken + 1 }, [.message msg])
  | .encodeResponse payload => (r, [.encoded ((createParser mode).encodeResponse payload)])
  | .reset => ({}, [.void])

end Reader

structure IParser.Reads (mode : ProtocolMode) (p : IParser) (r : Reader) : Prop where
  valid : p.Valid
  speaks : p.mode = mode
  position : p.position = streamPosition mode r.stream
  payloads : p.payloads = (streamPayloads mode r.stream).drop r.taken
  taken : r.taken ≤ (streamPayloads mode r.stream).length

namespace IParser

variable {mode : ProtocolMode} {p : IParser} {r : Reader}

theorem reads_createParser (mode : ProtocolMode) : (createParser mode).Reads mode {} := by
  have hready := ready_createParser mode
  have hnone : streamPayloads mode [] = [] := by
    rw [← run_between]
    rfl
  refine ⟨hready.valid, hready.mode, hready.position, ?_, Nat.zero_le _⟩
  rw [hready.payloads, hnone]
  rfl

theorem reset_eq (p : IParser) : p.reset = createParser p.mode := by
  cases p <;> rfl

theorem encodeResponse_eq (p : IParser) (payload : List UInt8) :
    p.encodeResponse payload = (createParser p.mode).encodeResponse payload := by
  cases p <;> rfl

theorem getNextMessage_empty (h : p.payloads = []) :
    p.getNextMessage = (Reader.emptyMessage p.mode, p) := by
  cases p with
  | terminal p =>
    have hqueue : p.completed = [] := h
    simp [getNextMessage, Terminal.Parser.getNextMessagePayload, hqueue, parseTerminalPayload,
      Reader.emptyMessage, mode]
  | basic p =>
    have hqueue : p.completedMessages = [] := h
    simp [getNextMessage, Basic.Parser.getNextMessage, hqueue, Reader.emptyMessage, mode]

theorem Reads.messages (h : p.Reads mode r) :
    r.messages mode = p.payloads.map (parsePayload mode) := by
  rw [Reader.messages, streamMessages, h.payloads, List.map_drop]

theorem streamPayloads_append (mode : ProtocolMode) (seen data : List UInt8) :
    streamPayloads mode (seen ++ data) =
      streamPayloads mode seen ++ (run Position.step (streamPosition mode seen) data).2 := by
  rw [← run_between, ← run_between, run_append]
  rfl

theorem Reads.feedData (h : p.Reads mode r) (data : List UInt8) :
    (p.feedData data).Reads mode { r with stream := r.stream ++ data } := by
  refine ⟨valid_feedData h.valid data, ?_, ?_, ?_, ?_⟩
  · rw [mode_feedData, h.speaks]
  · rw [position_feedData h.valid, h.position, streamPosition, streamPosition, run_append]
  · rw [payloads_feedData h.valid, h.position, h.payloads, streamPayloads_append,
      List.drop_append_of_le_length h.taken]
  · rw [streamPayloads_append, List.length_append]
    exact h.taken.trans (Nat.le_add_right _ _)

theorem Reads.take (h : p.Reads mode r) {payload : List UInt8} {rest : List (List UInt8)}
    (hqueue : p.payloads = payload :: rest) :
    p.getNextMessage.2.Reads mode { r with taken := r.taken + 1 } := by
  obtain ⟨-, hrest, hposition⟩ := getNextMessage_cons hqueue
  have hdrop := h.payloads
  rw [hqueue] at hdrop
  refine ⟨valid_getNextMessage h.valid, ?_, ?_, ?_, ?_⟩
  · rw [mode_getNextMessage, h.speaks]
  · rw [hposition, h.position]
  · rw [hrest, ← List.drop_drop, ← hdrop]
    rfl
  · have hlength := congrArg List.length hdrop
    rw [List.length_cons, List.length_drop] at hlength
    dsimp only
    omega

theorem Reads.call (h : p.Reads mode r) (c : ParserCall) :
    (p.call c).1.Reads mode (r.call mode c).1 ∧ (p.call c).2 = (r.call mode c).2 := by
  cases c with
  | feedData data => exact ⟨h.feedData data, rfl⟩
  | hasCompleteMessage =>
    refine ⟨h, ?_⟩
    unfold IParser.call Reader.call
    dsimp only
    rw [hasCompleteMessage_eq, h.messages]
    cases p.payloads <;> rfl
  | encodeResponse payload =>
    refine ⟨h, ?_⟩
    unfold IParser.call Reader.call
    dsimp only
    rw [p.encodeResponse_eq, h.speaks]
  | reset =>
    refine ⟨?_, rfl⟩
    unfold IParser.call Reader.call
    dsimp only
    rw [p.reset_eq, h.speaks]
    exact reads_createParser mode
  | getNextMessage =>
    unfold IParser.call Reader.call
    dsimp only
    rw [h.messages]
    cases hqueue : p.payloads with
    | nil =>
      rw [getNextMessage_empty hqueue, h.speaks]
      exact ⟨h, rfl⟩
    | cons payload rest =>
      obtain ⟨hmessage, -, -⟩ := getNextMessage_cons hqueue
      refine ⟨h.take hqueue, ?_⟩
      rw [hmessage, h.speaks]
      rfl

/-- Over every history of calls a parser returns what a reader of the stream returns: messages
come from the bytes since the last reset, each once and in order, whatever the cuts between the
`feedData` calls. -/
theorem refines_reader (mode : ProtocolMode) (calls : List ParserCall) :
    (run IParser.call (createParser mode) calls).2 = (run (Reader.call mode) {} calls).2 := by
  have hcall : ∀ (p : IParser) (r : Reader) c, p.Reads mode r →
      (p.call c).1.Reads mode (r.call mode c).1 ∧ (p.call c).2 = (r.call mode c).2 := by
    intro p r c h
    exact h.call c
  exact (run_simulation hcall (reads_createParser mode) calls).2

end IParser

end SerialIpmi
