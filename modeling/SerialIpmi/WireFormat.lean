import SerialIpmi.Library.WireCode
import SerialIpmi.Basic.Recovery
import SerialIpmi.Terminal.Recovery
import SerialIpmi.Terminal.Digits

/-! What both encoders of a mode write on one line: responses mixed with handshakes in Basic
mode, and with error notices in Terminal mode. -/
namespace SerialIpmi

open Decoding

namespace Basic

inductive Sent where
  | response (payload : List UInt8)
  | handshake
  deriving DecidableEq, Repr

def Sent.encode (p : Parser) : Sent → List UInt8
  | .response payload => p.encodeResponse payload
  | .handshake => p.encodeHandshake

def Sent.payload : Sent → Option (List UInt8)
  | .response payload => some payload
  | .handshake => none

theorem notMem_encodeByte : ∀ byte : UInt8, bmcStop ∉ Parser.encodeByte byte ∧
    bmcHandshake ∉ Parser.encodeByte byte := by
  decide +kernel

theorem notMem_encodeBytes (payload : List UInt8) :
    bmcStop ∉ payload.flatMap Parser.encodeByte ∧
      bmcHandshake ∉ payload.flatMap Parser.encodeByte := by
  simp only [List.mem_flatMap, not_exists, not_and]
  exact ⟨fun byte _ => (notMem_encodeByte byte).1, fun byte _ => (notMem_encodeByte byte).2⟩

theorem count_handshake_encodeResponse (p : Parser) (payload : List UInt8) :
    (p.encodeResponse payload).count bmcHandshake = 0 := by
  have hbody := (notMem_encodeBytes payload).2
  apply List.count_eq_zero_of_not_mem
  unfold Parser.encodeResponse
  rw [List.mem_cons, List.mem_append, List.mem_singleton]
  rintro (hstart | hinside | hstop)
  · exact absurd hstart (by decide)
  · exact hbody hinside
  · exact absurd hstop (by decide)

theorem prefixFree_encode (p : Parser) : WireCode.PrefixFree (Sent.encode p) where
  ne_nil := by
    intro sent
    cases sent with
    | response payload => exact List.cons_ne_nil _ _
    | handshake => exact List.cons_ne_nil _ _
  eq_of_prefix := by
    intro left right h
    cases left with
    | handshake =>
      cases right with
      | handshake => rfl
      | response payload => exact absurd (List.cons_prefix_cons.mp h).1 (by decide)
    | response payload =>
      cases right with
      | handshake => exact absurd (List.cons_prefix_cons.mp h).1 (by decide)
      | response payload' =>
        have hbody := WireCode.eq_of_stopped_prefix (notMem_encodeBytes payload').1
          (List.cons_prefix_cons.mp h).2
        rw [encodeByte_eq] at hbody
        have hwhole : basicCode.encode payload = basicCode.encode payload' := by
          unfold Framing.Code.encode
          rw [hbody]
        rw [basicCode.encode_injective hwhole]

theorem run_sent (p : Parser) (sent : List Sent) :
    run basicCode.step .outside (sent.flatMap (Sent.encode p)) =
      (.outside, sent.filterMap Sent.payload) := by
  induction sent with
  | nil => rfl
  | cons item sent ih =>
    rw [List.flatMap_cons]
    cases item with
    | response payload =>
      have hfirst := basicCode.run_encode payload (sent.flatMap (Sent.encode p))
      rw [← encodeResponse_eq p, ih] at hfirst
      rw [List.filterMap_cons]
      exact hfirst
    | handshake =>
      have hnoise : basicCode.start ∉ [bmcHandshake] := by decide
      have hskipped := basicCode.run_noise hnoise (sent.flatMap (Sent.encode p))
      rw [ih] at hskipped
      rw [List.filterMap_cons]
      exact hskipped

theorem count_handshake (p : Parser) (sent : List Sent) :
    (sent.flatMap (Sent.encode p)).count bmcHandshake = sent.count .handshake := by
  induction sent with
  | nil => rfl
  | cons item sent ih =>
    rw [List.flatMap_cons, List.count_append, ih, List.count_cons, Nat.add_comm]
    cases item with
    | response payload =>
      have hnone := count_handshake_encodeResponse p payload
      change _ + (p.encodeResponse payload).count bmcHandshake = _
      rw [hnone]
      rfl
    | handshake => rfl

theorem between_iff (p : Parser) :
    p.position = .outside ↔ p.state = .msgNone ∨ p.state = .msgDone := by
  obtain ⟨stats, state, msgBuffer, completedMessages⟩ := p
  cases state <;> simp [Parser.position]

/-- A reader between two frames gets from a line of responses and handshakes the responses whose
checksums hold, in their order, and counts the others as errors; the handshakes do not disturb
it. Whatever part of the line it has seen, it has got a first part of them. On the line the
handshakes are the handshake bytes, and the line up to any item tells all that was sent. -/
theorem handshakes_read (encoder reader : Parser)
    (hreader : reader.state = .msgNone ∨ reader.state = .msgDone) (sent : List Sent) :
    let line := sent.flatMap (Sent.encode encoder)
    let payloads := sent.filterMap Sent.payload
    let read := reader.feedData line
    (read.state = .msgNone ∨ read.state = .msgDone) ∧
    read.completedMessages =
      reader.completedMessages ++ payloads.filter (fun m => validateChecksum m) ∧
    read.stats.framesReceived = reader.stats.framesReceived + UInt64.ofNat payloads.length ∧
    read.stats.framesChecksumError = reader.stats.framesChecksumError +
      UInt64.ofNat (payloads.countP fun m => !validateChecksum m) ∧
    (∀ seen, seen <+: line →
      (reader.feedData seen).completedMessages <+: read.completedMessages) ∧
    line.count bmcHandshake = sent.count .handshake ∧
    ∀ other : List Sent, other.flatMap (Sent.encode encoder) <+: line ↔ other <+: sent := by
  intro line payloads read
  have hrun : run basicCode.step reader.position line = (.outside, payloads) := by
    rw [(between_iff reader).mpr hreader]
    exact run_sent encoder sent
  have hstats := foldl_count payloads reader.stats
  refine ⟨?_, ?_, ?_, ?_, ?_, count_handshake encoder sent, ?_⟩
  · apply (between_iff read).mp
    rw [Parser.position_feedData, hrun]
  · rw [Parser.completedMessages_feedData, hrun, filterMap_keep]
  · rw [Parser.stats_feedData, hrun, hstats.1]
  · rw [Parser.stats_feedData, hrun, hstats.2]
  · intro seen hseen
    rw [Parser.completedMessages_feedData, Parser.completedMessages_feedData,
      List.prefix_append_right_inj]
    exact (run_mono basicCode.step reader.position hseen).filterMap keep
  · intro other
    exact (prefixFree_encode encoder).prefix_iff

theorem handshakes_read_mixed :
    let good : List UInt8 := [0x20, 0x1C, 0xC4, 0xA0, 0x04, 0x38, 0x00, 0x24]
    let sent : List Sent := [.handshake, .response good, .handshake, .handshake, .response [1, 2]]
    let read := ({} : Parser).feedData (sent.flatMap (Sent.encode {}))
    read.completedMessages = [good] ∧ read.stats.framesChecksumError = 1 ∧
      (sent.flatMap (Sent.encode {})).count bmcHandshake = 3 := by
  intro good sent read
  have h := handshakes_read {} {} (Or.inl rfl) sent
  have hcompleted : read.completedMessages = [good] := h.2.1.trans (by decide)
  have herrors : read.stats.framesChecksumError = 1 := h.2.2.2.1.trans (by decide)
  exact ⟨hcompleted, herrors, h.2.2.2.2.2.1.trans (by decide)⟩

end Basic

namespace Terminal

inductive Sent where
  | response (payload : List UInt8)
  | error (code : UInt8)
  deriving DecidableEq, Repr

def Sent.encode (p : Parser) : Sent → List UInt8
  | .response payload => p.encodeResponse payload
  | .error code => Parser.encodeError code

/-- The payload that the far side gets. An error notice begins with a hex digit and goes on with
a letter that is none, so it is a frame that is rejected. -/
def Sent.payload : Sent → Option (List UInt8)
  | .response payload => if Fits payload then some payload else none
  | .error _ => none

theorem run_encodeError (code : UInt8) :
    run step .outside (Parser.encodeError code) = (.outside, [⟨[0x45], .illegal⟩]) := by
  have hskipped : openBracket ∉ [0x52, space] ++ Parser.hexByte code ++
      [closeBracket, carriageReturn, lineFeed] := by
    intro hmem
    rw [List.mem_append, List.mem_append] at hmem
    rcases hmem with (hletters | hdigits) | hend
    · exact absurd hletters (by decide)
    · have hdigit := isHexDigit_hexByte code _ hdigits
      rw [not_isHexDigit_open] at hdigit
      exact absurd hdigit (by decide)
    · exact absurd hend (by decide)
  have hskip := run_skip (by simp) hskipped
  have hletters : run step .outside [openBracket, 0x45, 0x52] =
      (.skip, [⟨[0x45], .illegal⟩]) := by decide
  have hline : Parser.encodeError code = [openBracket, 0x45, 0x52] ++ ([0x52, space] ++
      Parser.hexByte code ++ [closeBracket, carriageReturn, lineFeed]) := rfl
  rw [hline, run_append, hletters, hskip]
  rfl

theorem run_item (p : Parser) (item : Sent) :
    ∃ frame : Frame, run step .outside (item.encode p) = (.outside, [frame]) ∧
      frame.payload = item.payload ∧
      frame.framesError = if item.payload.isSome then 0 else 1 := by
  cases item with
  | error code => exact ⟨_, run_encodeError code, rfl, rfl⟩
  | response payload =>
    obtain ⟨frame, hrun, hpayload, herror⟩ := frames_encodeResponse p payload
    change frame.payload = if Fits payload then some payload else none at hpayload
    change frame.framesError = if Fits payload then 0 else 1 at herror
    refine ⟨frame, hrun, hpayload, ?_⟩
    rw [herror, Sent.payload]
    by_cases hfits : Fits payload <;> simp [hfits]

theorem run_sent (p : Parser) (sent : List Sent) :
    ∃ fs : List Frame, run step .outside (sent.flatMap (Sent.encode p)) = (.outside, fs) ∧
      fs.filterMap Frame.payload = sent.filterMap Sent.payload ∧
      (fs.map Frame.framesError).sum = sent.countP fun item => item.payload.isNone := by
  induction sent with
  | nil => exact ⟨[], rfl, rfl, rfl⟩
  | cons item sent ih =>
    obtain ⟨fs, hrun, hpayloads, herrors⟩ := ih
    obtain ⟨frame, hitem, hpayload, herror⟩ := run_item p item
    refine ⟨frame :: fs, ?_, ?_, ?_⟩
    · rw [List.flatMap_cons, run_append, hitem, hrun]
      rfl
    · rw [List.filterMap_cons, List.filterMap_cons, hpayload, hpayloads]
    · rw [List.map_cons, List.sum_cons, herrors, herror, List.countP_cons, Nat.add_comm]
      cases item.payload <;> rfl

theorem hexByte_injective : Function.Injective Parser.hexByte := by
  intro left right h
  have hdigits := List.cons.inj h
  rw [← pairByte_hexByte left, hdigits.1, (List.cons.inj hdigits.2).1, pairByte_hexByte]

def Sent.text : Sent → List UInt8
  | .response payload =>
      openBracket :: (Parser.hexBytes payload ++ [closeBracket, carriageReturn])
  | .error code =>
      openBracket :: ([0x45, 0x52, 0x52, space] ++ Parser.hexByte code ++
        [closeBracket, carriageReturn])

theorem encode_eq (p : Parser) (item : Sent) : item.encode p = item.text ++ [lineFeed] := by
  cases item <;> simp [Sent.encode, Sent.text, Parser.encodeResponse, Parser.encodeError]

theorem mem_text_response {payload : List UInt8} {ch : UInt8}
    (h : ch ∈ (Sent.response payload).text) : isHexDigit ch = true ∨
      ch ∈ [openBracket, space, closeBracket, carriageReturn] := by
  unfold Sent.text at h
  rw [List.mem_cons, List.mem_append] at h
  rcases h with rfl | hbytes | hend
  · right
    decide
  · rcases mem_hexBytes hbytes with rfl | hdigit
    · right
      decide
    · exact Or.inl hdigit
  · right
    simp only [List.mem_cons, List.not_mem_nil, or_false] at hend ⊢
    rcases hend with rfl | rfl <;> simp

theorem lineFeed_notMem_text (item : Sent) : lineFeed ∉ item.text := by
  cases item with
  | response payload =>
    intro hmem
    have hcases := mem_text_response hmem
    revert hcases
    decide
  | error code =>
    have hcode : lineFeed ∉ Parser.hexByte code := by
      intro hmem
      exact absurd (isHexDigit_hexByte code _ hmem) (by decide)
    have hothers : lineFeed ∉ [openBracket, 0x45, 0x52, 0x52, space] ∧
        lineFeed ∉ [closeBracket, carriageReturn] := by decide
    change lineFeed ∉ [openBracket, 0x45, 0x52, 0x52, space] ++ Parser.hexByte code ++
      [closeBracket, carriageReturn]
    rw [List.mem_append, List.mem_append]
    rintro ((hstart | hdigits) | hend)
    · exact hothers.1 hstart
    · exact hcode hdigits
    · exact hothers.2 hend

theorem text_injective : Function.Injective Sent.text := by
  have hdiffer : ∀ payload code, (Sent.response payload).text ≠ (Sent.error code).text := by
    intro payload code h
    have hletter : 0x52 ∈ (Sent.error code).text := by simp [Sent.text]
    rw [← h] at hletter
    have hcases := mem_text_response hletter
    revert hcases
    decide
  intro left right h
  cases left with
  | response payload =>
    cases right with
    | error code => exact absurd h (hdiffer payload code)
    | response payload' =>
      have hwhole : ({} : Parser).encodeResponse payload = ({} : Parser).encodeResponse payload' := by
        change (Sent.response payload).encode {} = (Sent.response payload').encode {}
        rw [encode_eq, encode_eq, h]
      rw [encodeResponse_injective {} {} hwhole]
  | error code =>
    cases right with
    | response payload => exact absurd h.symm (hdiffer payload code)
    | error code' =>
      have hcodes : Parser.hexByte code = Parser.hexByte code' := by
        simpa [Sent.text] using h
      rw [hexByte_injective hcodes]

theorem prefixFree_encode (p : Parser) : WireCode.PrefixFree (Sent.encode p) where
  ne_nil := by
    intro item
    rw [encode_eq]
    exact List.concat_ne_nil _ _
  eq_of_prefix := by
    intro left right h
    rw [encode_eq, encode_eq] at h
    exact text_injective (WireCode.eq_of_stopped_prefix (lineFeed_notMem_text right) h)

theorem received_eq (fs : List Frame) :
    (fs.map Frame.framesReceived).sum = (fs.filterMap Frame.payload).length ∧
      (fs.map Frame.bytesReceived).sum = ((fs.filterMap Frame.payload).map List.length).sum := by
  induction fs with
  | nil => exact ⟨rfl, rfl⟩
  | cons frame fs ih =>
    rw [List.map_cons, List.map_cons, List.sum_cons, List.sum_cons, ih.1, ih.2,
      List.filterMap_cons]
    unfold Frame.framesReceived Frame.bytesReceived Frame.payload
    split_ifs with hdelivered
    · simp [pairBytes_length, Nat.add_comm]
    · simp

theorem between_iff (p : Parser) :
    p.position = .outside ↔ p.state = .idle ∨ p.state = .complete := by
  obtain ⟨stats, state, hexBuffer, completed⟩ := p
  cases state <;> simp [Parser.position]

/-- A reader between two frames, whatever it has received, gets from a line of responses and
error notices the responses of 1 to 80 bytes, in their order, and counts one error for each
other item. Whatever part of the line it has seen, it has got a first part of them. The line up
to any item tells all that was sent, the codes of the notices included. -/
theorem notices_read (ops : List (Op UInt8)) (encoder : Parser) (sent : List Sent) :
    let reader := (Parser.runOps {} ops).2
    let line := sent.flatMap (Sent.encode encoder)
    let payloads := sent.filterMap Sent.payload
    let read := reader.feedData line
    reader.state = .idle ∨ reader.state = .complete →
    (read.state = .idle ∨ read.state = .complete) ∧
    read.completed = reader.completed ++ payloads ∧
    read.stats.framesReceived = reader.stats.framesReceived + UInt64.ofNat payloads.length ∧
    read.stats.bytesReceived = reader.stats.bytesReceived +
      UInt64.ofNat (payloads.map List.length).sum ∧
    read.stats.framesError = reader.stats.framesError +
      UInt64.ofNat (sent.countP fun item => item.payload.isNone) ∧
    (∀ seen, seen <+: line → (reader.feedData seen).completed <+: read.completed) ∧
    ∀ other : List Sent, other.flatMap (Sent.encode encoder) <+: line ↔ other <+: sent := by
  intro reader line payloads read hreader
  have hvalid : reader.Valid := (Parser.valid_runOps Parser.valid_fresh ops).1
  obtain ⟨fs, hfs, hpayloads, herrors⟩ := run_sent encoder sent
  have hrun : run step reader.position line = (.outside, fs) := by
    rw [(between_iff reader).mpr hreader]
    exact hfs
  have hstats := foldl_count fs reader.stats
  have hreceived := received_eq fs
  refine ⟨?_, ?_, ?_, ?_, ?_, ?_, ?_⟩
  · apply (between_iff read).mp
    rw [Parser.position_feedData hvalid, hrun]
  · rw [Parser.completed_feedData hvalid, hrun, hpayloads]
  · rw [Parser.stats_feedData hvalid, hrun, hstats.1, hreceived.1, hpayloads]
  · rw [Parser.stats_feedData hvalid, hrun, hstats.2.1, hreceived.2, hpayloads]
  · rw [Parser.stats_feedData hvalid, hrun, hstats.2.2, herrors]
  · intro seen hseen
    rw [Parser.completed_feedData hvalid, Parser.completed_feedData hvalid,
      List.prefix_append_right_inj]
    exact (run_mono step reader.position hseen).filterMap Frame.payload
  · intro other
    exact (prefixFree_encode encoder).prefix_iff

theorem notices_read_mixed :
    ((Parser.runOps {} [.feed [openBracket, lineFeed]]).2.feedData
      ([Sent.error 0x41, .response [0x1C, 0, 0x38], .response [], .error 0xFF].flatMap
        (Sent.encode {}))).completed = [[0x1C, 0, 0x38]] := by
  have h := notices_read [.feed [openBracket, lineFeed]] {}
    [.error 0x41, .response [0x1C, 0, 0x38], .response [], .error 0xFF] (by decide)
  exact h.2.1.trans (by decide)

end Terminal

end SerialIpmi
