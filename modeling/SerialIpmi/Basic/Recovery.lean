import SerialIpmi.Basic.Stream

/-! The Basic-mode parser on a disturbed line: noise between the frames, frames
that are given up, and frames that start while another one is open. -/
namespace SerialIpmi.Basic

open Decoding Framing

/-- What a sender puts on the line before and with one payload: noise without a START,
frames that it gives up, and the encoded payload. -/
structure Transmission where
  noise : List UInt8
  quiet : bmcStart ∉ noise
  aborted : List (List UInt8)
  payload : List UInt8

def abortedFrame (payload : List UInt8) : List UInt8 :=
  bmcStart :: payload.flatMap Parser.encodeByte

def Transmission.line (t : Transmission) : List UInt8 :=
  t.noise ++ t.aborted.flatMap abortedFrame ++ ({} : Parser).encodeResponse t.payload

theorem abortedFrame_eq : abortedFrame = basicCode.abort := by
  funext payload
  unfold abortedFrame Code.abort
  rw [encodeByte_eq]
  rfl

theorem run_line (t : Transmission) (rest : List UInt8) :
    run basicCode.step .outside (t.line ++ rest) =
      ((run basicCode.step .outside rest).1, t.payload :: (run basicCode.step .outside rest).2) := by
  unfold Transmission.line
  rw [abortedFrame_eq, encodeResponse_eq, List.append_assoc, List.append_assoc,
    basicCode.run_noise t.quiet]
  apply basicCode.run_aborted
  simp

theorem run_lines (transmissions : List Transmission) :
    run basicCode.step .outside (transmissions.flatMap Transmission.line) =
      (.outside, transmissions.map Transmission.payload) := by
  induction transmissions with
  | nil => rfl
  | cons t transmissions ih => rw [List.flatMap_cons, run_line, ih, List.map_cons]

/-- On a line with noise and aborted frames a fresh parser queues exactly the valid payloads,
in order and unaltered; it counts every payload, and the others as checksum errors. -/
theorem disturbed_line (transmissions : List Transmission) :
    let payloads := transmissions.map Transmission.payload
    let p := ({} : Parser).feedData (transmissions.flatMap Transmission.line)
    p.completedMessages = payloads.filter (fun m => validateChecksum m) ∧
      p.stats.framesReceived = UInt64.ofNat payloads.length ∧
      p.stats.framesChecksumError =
        UInt64.ofNat (payloads.countP fun m => !validateChecksum m) := by
  intro payloads p
  have hposition : ({} : Parser).position = .outside := rfl
  have hcount := foldl_count payloads {}
  have hcompleted : p.completedMessages = payloads.filter (fun m => validateChecksum m) := by
    rw [Parser.completedMessages_feedData, hposition, run_lines, filterMap_keep]
    rfl
  have hstats : p.stats = payloads.foldl Stats.count {} := by
    rw [Parser.stats_feedData, hposition, run_lines]
  rw [hstats, hcount.1, hcount.2]
  exact ⟨hcompleted, UInt64.zero_add _, UInt64.zero_add _⟩

namespace Parser

theorem position_eq_escaped_iff (p : Parser) :
    (∃ buffer, p.position = .escaped buffer) ↔ p.state = .msgEscape := by
  obtain ⟨stats, state, msgBuffer, completedMessages⟩ := p
  cases state <;> simp [position]

theorem feed_start_iff (p : Parser) :
    ((p.feed bmcStart).state = .msgInProgress ∧ (p.feed bmcStart).msgBuffer = []) ↔
      p.state ≠ .msgEscape := by
  have hother : bmcStart ≠ bmcEscape ∧ bmcStart ≠ bmcStop := by decide
  obtain ⟨stats, state, msgBuffer, completedMessages⟩ := p
  cases state <;> simp [feed, hother]

theorem completedMessages_encode_iff (p : Parser) {payload : List UInt8}
    (hvalid : validateChecksum payload = true) :
    (p.feedData (p.encodeResponse payload)).completedMessages = p.completedMessages ++ [payload] ↔
      p.state ≠ .msgEscape := by
  rw [completedMessages_feedData, encodeResponse_eq, List.append_cancel_left_eq, ne_eq,
    ← position_eq_escaped_iff]
  by_cases hescaped : ∃ buffer, p.position = .escaped buffer
  · obtain ⟨buffer, hbuffer⟩ := hescaped
    rw [hbuffer, basicCode.run_encode_escaped]
    have hlonger : [buffer ++ basicCode.mask basicCode.start :: payload].filterMap keep ≠
        [payload] := by
      intro h
      have hmem : payload ∈ [buffer ++ basicCode.mask basicCode.start :: payload].filterMap keep := by
        rw [h]
        exact List.mem_singleton_self payload
      rw [filterMap_keep, List.mem_filter, List.mem_singleton] at hmem
      have hlength := congrArg List.length hmem.1
      simp only [List.length_append, List.length_cons] at hlength
      omega
    simp [hlonger]
  · have hposition : ∀ buffer, p.position ≠ .escaped buffer := fun buffer h =>
      hescaped ⟨buffer, h⟩
    have hrun := basicCode.run_encode_of hposition payload []
    rw [List.append_nil] at hrun
    rw [hrun]
    simp [filterMap_keep, hvalid, hescaped]

end Parser

/-- After any stream the parser takes up the next valid frame, and reads its START as one,
exactly when the stream did not stop behind an escape byte inside a frame. -/
theorem resynchronises_iff (stream payload : List UInt8) (hvalid : validateChecksum payload = true) :
    let p := ({} : Parser).feedData stream
    ((p.feedData (p.encodeResponse payload)).completedMessages = p.completedMessages ++ [payload] ∧
      (p.feed bmcStart).state = .msgInProgress ∧ (p.feed bmcStart).msgBuffer = []) ↔
        p.state ≠ .msgEscape := by
  intro p
  rw [p.completedMessages_encode_iff hvalid, p.feed_start_iff, and_self]

theorem resynchronises_mid_frame :
    let p := ({} : Parser).feedData [0xA0, 0x20, 0x18]
    let payload : List UInt8 := [0x20, 0x18, 0xC8, 0x81, 0x04, 0x3B, 0x40]
    (p.feedData (p.encodeResponse payload)).completedMessages = p.completedMessages ++ [payload] :=
  ((resynchronises_iff [0xA0, 0x20, 0x18] [0x20, 0x18, 0xC8, 0x81, 0x04, 0x3B, 0x40]
    (by decide)).mpr (by decide)).1

/-- A frame that is cut off behind its escape byte takes the next frame with it. -/
theorem frame_lost_after_escape :
    let p := ({} : Parser).feedData [0xA0, 0x20, 0xAA]
    let payload : List UInt8 := [0x20, 0x18, 0xC8, 0x81, 0x04, 0x3B, 0x40]
    validateChecksum payload = true ∧ (p.feed bmcStart).msgBuffer = [0x20, 0xB0] ∧
      (p.feedData (p.encodeResponse payload)).completedMessages ≠
        p.completedMessages ++ [payload] := by
  decide

end SerialIpmi.Basic
