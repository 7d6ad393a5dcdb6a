import SerialIpmi.Library.Framing
import SerialIpmi.MessageParsers

/-! The Basic-mode parser on whole streams. The four-state machine is the
framing decoder of the library with a checksum filter behind it, so its queue
and its counters are functions of the frames of the stream alone. -/
namespace SerialIpmi.Basic

open Decoding Framing ByteSum

/-- The Basic-mode framing: START, STOP, ESCAPE and the exclusive-or mask. The
encoder also escapes the handshake byte. -/
def basicCode : Code UInt8 where
  start := bmcStart
  stop := bmcStop
  escape := bmcEscape
  mask := fun b => b ^^^ 0x10
  reserved := fun b => b = bmcStart ∨ b = bmcStop ∨ b = bmcHandshake ∨ b = bmcEscape
  mask_mask := fun b => by rw [UInt8.xor_assoc, UInt8.xor_self, UInt8.xor_zero]
  start_ne_stop := by decide
  start_ne_escape := by decide
  stop_ne_escape := by decide
  reserved_start := by decide
  reserved_stop := by decide
  reserved_escape := by decide

theorem encodeByte_eq : Parser.encodeByte = basicCode.stuff := by
  funext b
  simp [Parser.encodeByte, Code.stuff, basicCode]

theorem encodeResponse_eq (p : Parser) (payload : List UInt8) :
    p.encodeResponse payload = basicCode.encode payload := by
  unfold Parser.encodeResponse Code.encode
  rw [encodeByte_eq]
  rfl

def keep (m : List UInt8) : Option (List UInt8) :=
  if validateChecksum m then some m else none

def Stats.count (stats : Stats) (m : List UInt8) : Stats :=
  if validateChecksum m then
    { stats with
      framesReceived := stats.framesReceived + 1
      framesValid := stats.framesValid + 1
      bytesReceived := stats.bytesReceived + UInt64.ofNat m.length }
  else
    { stats with
      framesReceived := stats.framesReceived + 1
      framesChecksumError := stats.framesChecksumError + 1 }

theorem foldl_count (frames : List (List UInt8)) (stats : Stats) :
    (frames.foldl Stats.count stats).framesReceived =
        stats.framesReceived + UInt64.ofNat frames.length ∧
      (frames.foldl Stats.count stats).framesChecksumError =
        stats.framesChecksumError + UInt64.ofNat (frames.countP fun m => !validateChecksum m) := by
  induction frames generalizing stats with
  | nil => simp
  | cons m frames ih =>
    obtain ⟨hreceived, herror⟩ := ih (stats.count m)
    rw [List.foldl_cons, hreceived, herror, List.length_cons, List.countP_cons, UInt64.ofNat_add,
      UInt64.ofNat_add]
    cases hvalid : validateChecksum m <;>
      simp [Stats.count, hvalid, UInt64.add_assoc, UInt64.add_comm 1]

namespace Parser

/-- Both states between frames are one position of the framing decoder. -/
def position (p : Parser) : Code.Position UInt8 :=
  match p.state with
  | .msgNone => .outside
  | .msgInProgress => .inside p.msgBuffer
  | .msgEscape => .escaped p.msgBuffer
  | .msgDone => .outside

/-- One byte moves the parser as it moves the framing decoder, and the frame
that it completes, if any, is filtered and counted. -/
theorem feed_spec (p : Parser) (ch : UInt8) :
    (p.feed ch).position = (basicCode.step p.position ch).1 ∧
      (p.feed ch).completedMessages =
        p.completedMessages ++ (basicCode.step p.position ch).2.filterMap keep ∧
      (p.feed ch).stats = (basicCode.step p.position ch).2.foldl Stats.count p.stats := by
  obtain ⟨stats, state, msgBuffer, completedMessages⟩ := p
  cases state with
  | msgNone => by_cases hstart : ch = bmcStart <;> simp [feed, position, Code.step, basicCode, hstart]
  | msgDone => by_cases hstart : ch = bmcStart <;> simp [feed, position, Code.step, basicCode, hstart]
  | msgEscape => simp [feed, position, Code.step, basicCode]
  | msgInProgress =>
    by_cases hescape : ch = bmcEscape
    · simp [feed, position, Code.step, basicCode, hescape]
    by_cases hstop : ch = bmcStop
    · have hne : bmcStop ≠ bmcEscape := by decide
      cases hvalid : validateChecksum msgBuffer <;>
        simp [feed, position, Code.step, basicCode, hne, hstop, hvalid, keep, Stats.count]
    by_cases hstart : ch = bmcStart
    · have hne : bmcStart ≠ bmcEscape ∧ bmcStart ≠ bmcStop := by decide
      simp [feed, position, Code.step, basicCode, hne, hstart]
    · simp [feed, position, Code.step, basicCode, hescape, hstop, hstart]

def buffered : Buffered Parser (Code.Position UInt8) UInt8 (List UInt8) where
  step := filterMap keep basicCode.step
  core := position
  queue := completedMessages
  feed := feed
  pop := fun p => p.getNextMessage.2
  core_feed := fun p ch => (p.feed_spec ch).1
  queue_feed := fun p ch => (p.feed_spec ch).2.1
  core_pop := fun p => by
    unfold getNextMessage
    cases h : p.completedMessages with
    | nil => rfl
    | cons raw rest => dsimp only; split <;> rfl
  queue_pop := fun p => by
    unfold getNextMessage
    cases h : p.completedMessages with
    | nil => exact h
    | cons raw rest => dsimp only; split <;> rfl

theorem position_feedData (p : Parser) (data : List UInt8) :
    (p.feedData data).position = (run basicCode.step p.position data).1 := by
  have := buffered.core_feedAll p data
  rwa [show buffered.step = filterMap keep basicCode.step from rfl, run_filterMap] at this

theorem completedMessages_feedData (p : Parser) (data : List UInt8) :
    (p.feedData data).completedMessages =
      p.completedMessages ++ (run basicCode.step p.position data).2.filterMap keep := by
  have := buffered.queue_feedAll p data
  rwa [show buffered.step = filterMap keep basicCode.step from rfl, run_filterMap] at this

theorem stats_feedData (p : Parser) (data : List UInt8) :
    (p.feedData data).stats = (run basicCode.step p.position data).2.foldl Stats.count p.stats := by
  induction data generalizing p with
  | nil => rfl
  | cons ch data ih =>
    rw [feedData, List.foldl_cons, ← feedData, ih, run_cons, List.foldl_append,
      (p.feed_spec ch).1, (p.feed_spec ch).2.2]

theorem getNextMessage_cons {p : Parser} {raw : List UInt8} {rest : List (List UInt8)}
    (h : p.completedMessages = raw :: rest) :
    p.getNextMessage = ({ parseBasicPayload raw with rawFrame := raw },
      { p with completedMessages := rest }) := by
  unfold getNextMessage
  rw [parseBasicPayload, h]
  by_cases hshort : raw.length < 7 <;> simp [hshort]

/-- The messages popped from a nonempty queue by a sequence of `feedData` and
`getNextMessage` calls, and the parser left. -/
def runOps : Parser → List (Op UInt8) → List Message × Parser
  | p, [] => ([], p)
  | p, .feed data :: ops => runOps (p.feedData data) ops
  | p, .pop :: ops =>
      let (msg, next) := p.getNextMessage
      let (popped, last) := runOps next ops
      (if p.hasCompleteMessage then msg :: popped else popped, last)

theorem runOps_play (p : Parser) (ops : List (Op UInt8)) :
    (runOps p ops).1.map Message.rawFrame = (buffered.play p ops).1 ∧
      (runOps p ops).2 = (buffered.play p ops).2 := by
  induction ops generalizing p with
  | nil => exact ⟨rfl, rfl⟩
  | cons op ops ih =>
    cases op with
    | feed data => exact ih (p.feedData data)
    | pop =>
      obtain ⟨hpopped, hlast⟩ := ih p.getNextMessage.2
      refine ⟨?_, hlast⟩
      cases h : p.completedMessages with
      | nil => simpa [runOps, Buffered.play, hasCompleteMessage, h, buffered] using hpopped
      | cons raw rest =>
        have hraw : p.getNextMessage.1.rawFrame = raw := by rw [getNextMessage_cons h]
        simpa [runOps, Buffered.play, hasCompleteMessage, h, buffered, hraw] using hpopped

theorem runOps_parsed (p : Parser) (ops : List (Op UInt8)) :
    ∀ msg ∈ (runOps p ops).1, { msg with rawFrame := [] } = parseBasicPayload msg.rawFrame := by
  induction ops generalizing p with
  | nil => simp [runOps]
  | cons op ops ih =>
    cases op with
    | feed data => exact ih (p.feedData data)
    | pop =>
      cases h : p.completedMessages with
      | nil => simpa [runOps, hasCompleteMessage, h] using ih p.getNextMessage.2
      | cons raw rest =>
        have hfront : { p.getNextMessage.1 with rawFrame := [] } =
            parseBasicPayload p.getNextMessage.1.rawFrame := by
          rw [getNextMessage_cons h]
          unfold parseBasicPayload
          split <;> rfl
        simpa [runOps, hasCompleteMessage, h] using And.intro hfront (ih p.getNextMessage.2)

end Parser

/-- The batch decoder: the frames of the stream that have at least seven bytes
and whose two checksums bring their sums to zero modulo 256. -/
def referenceDecode (stream : List UInt8) : List (List UInt8) :=
  (basicCode.frames stream).filter fun m =>
    7 ≤ m.length ∧ byteSum (m.take 3) % 256 = 0 ∧ byteSum (m.drop 3) % 256 = 0

theorem filterMap_keep (frames : List (List UInt8)) :
    frames.filterMap keep = frames.filter fun m => validateChecksum m := by
  induction frames with
  | nil => rfl
  | cons m frames ih =>
    cases h : validateChecksum m <;> simp [keep, h, ih]

theorem referenceDecode_eq (stream : List UInt8) :
    referenceDecode stream = (basicCode.frames stream).filterMap keep := by
  rw [filterMap_keep, referenceDecode]
  congr 1
  funext m
  rw [Bool.eq_iff_iff, decide_eq_true_iff, validateChecksum_iff]

/-- Incremental decoding is batch decoding, for every split of the stream into
`feedData` calls and every interleaving with `getNextMessage`; and what is popped
is the parsed payload. -/
theorem incremental_eq_reference (ops : List (Op UInt8)) :
    (Parser.runOps {} ops).1.map Message.rawFrame ++ (Parser.runOps {} ops).2.completedMessages =
        referenceDecode (ops.flatMap Op.input) ∧
      ∀ msg ∈ (Parser.runOps {} ops).1,
        { msg with rawFrame := [] } = parseBasicPayload msg.rawFrame := by
  refine ⟨?_, Parser.runOps_parsed {} ops⟩
  obtain ⟨hpopped, hlast⟩ := Parser.runOps_play {} ops
  have hfifo := Parser.buffered.play_fifo {} ops
  rw [show Parser.buffered.step = filterMap keep basicCode.step from rfl, run_filterMap] at hfifo
  rw [hpopped, hlast, referenceDecode_eq, ← Code.run_outside]
  exact hfifo

end SerialIpmi.Basic
