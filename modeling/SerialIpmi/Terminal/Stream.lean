import Mathlib.Algebra.GroupWithZero.Nat
import SerialIpmi.Terminal.Grammar

/-! The Terminal-mode parser on whole streams. As long as its buffer holds at
most 160 digits it is the decoder of the grammar, so its queue and its counters
are functions of the frames of the stream alone. -/
namespace SerialIpmi.Terminal

open Decoding

def Stats.count (stats : Stats) (frame : Frame) : Stats :=
  { stats with
    framesReceived := stats.framesReceived + UInt64.ofNat frame.framesReceived
    bytesReceived := stats.bytesReceived + UInt64.ofNat frame.bytesReceived
    framesError := stats.framesError + UInt64.ofNat frame.framesError }

namespace Parser

structure Valid (p : Parser) : Prop where
  digits : ∀ c ∈ p.hexBuffer, isHexDigit c = true
  bound : p.hexBuffer.length ≤ 160
  empty : p.state ≠ .receivingHex → p.hexBuffer = []
  payloads : ∀ m ∈ p.completed, 1 ≤ m.length ∧ m.length ≤ 80

theorem valid_fresh : ({} : Parser).Valid where
  digits := by simp
  bound := by simp
  empty := fun _ => rfl
  payloads := by simp

def position (p : Parser) : Position :=
  match p.state with
  | .idle => .outside
  | .receivingHex => .inside p.hexBuffer
  | .complete => .outside
  | .error => .skip

theorem pairBytes_ne_nil (digits : List UInt8) : pairBytes digits ≠ [] ↔ 2 ≤ digits.length := by
  rw [← List.length_pos_iff, pairBytes_length]
  omega

/-- One byte moves a valid parser as it moves the decoder of the grammar, and
the frame that it ends, if any, is delivered and counted. -/
theorem feed_spec {p : Parser} (hp : p.Valid) (ch : UInt8) :
    (p.feed ch).position = (step p.position ch).1 ∧
      (p.feed ch).completed = p.completed ++ (step p.position ch).2.filterMap Frame.payload ∧
      (p.feed ch).stats = (step p.position ch).2.foldl Stats.count p.stats := by
  obtain ⟨stats, state, hexBuffer, completed⟩ := p
  cases state with
  | idle => by_cases hopen : ch = openBracket <;> simp [feed, position, step, hopen]
  | complete => by_cases hopen : ch = openBracket <;> simp [feed, position, step, hopen]
  | error => simp [feed, position, step]
  | receivingHex =>
    have hbytes : hexStringToBytes hexBuffer = pairBytes hexBuffer :=
      hexStringToBytes_digits hp.digits
    have hpair := pairBytes_ne_nil hexBuffer
    by_cases hclose : ch = closeBracket
    · have hother : closeBracket ≠ space ∧ isHexDigit closeBracket = false := by decide
      have hending : endingOf closeBracket = .bracket := by decide
      by_cases hlength : 2 ≤ hexBuffer.length
      · have hfew : ¬ hexBuffer.length < 2 := by omega
        simp [feed, position, step, hclose, hother, hbytes, hending, Ending.next, Ending.discards,
          Frame.payload, Stats.count, Frame.framesReceived, Frame.bytesReceived, Frame.framesError,
          hpair, hlength, hfew, pairBytes_length]
      · have hfew : hexBuffer.length < 2 := by omega
        simp [feed, position, step, hclose, hother, hbytes, hending, Ending.next, Ending.discards,
          Frame.payload, Stats.count, Frame.framesReceived, Frame.bytesReceived, Frame.framesError,
          hpair, hlength, hfew]
    by_cases hnewline : ch = carriageReturn ∨ ch = lineFeed
    · have hother : ch ≠ space ∧ isHexDigit ch = false := by
        rcases hnewline with rfl | rfl <;> decide
      have hending : endingOf ch = .newline := by simp [endingOf, hclose, hnewline]
      by_cases hlength : 2 ≤ hexBuffer.length
      · have hone : hexBuffer.length ≠ 1 := by omega
        simp [feed, position, step, hclose, hnewline, hother, hbytes, hending, Ending.next,
          Ending.discards, Frame.payload, Stats.count, Frame.framesReceived, Frame.bytesReceived,
          Frame.framesError, hpair, hlength, hone, pairBytes_length]
      by_cases hempty : hexBuffer = []
      · simp [feed, position, step, hclose, hnewline, hother, hending, Ending.next, hempty,
          Ending.discards, Frame.payload, Stats.count, Frame.framesReceived, Frame.bytesReceived,
          Frame.framesError, hexStringToBytes, hexPairs]
      · have hone : hexBuffer.length = 1 := by
          have := List.length_pos_iff.mpr hempty
          omega
        simp [feed, position, step, hclose, hnewline, hother, hbytes, hending, Ending.next, hempty,
          Ending.discards, Frame.payload, Stats.count, Frame.framesReceived, Frame.bytesReceived,
          Frame.framesError, hpair, hone]
    by_cases hspace : ch = space
    · have hother : space ≠ closeBracket ∧ ¬ (space = carriageReturn ∨ space = lineFeed) := by decide
      simp [feed, position, step, hspace, hother]
    cases hdigit : isHexDigit ch with
    | true =>
      by_cases hfull : hexBuffer.length = 160
      · simp [feed, position, step, hclose, hnewline, hspace, hdigit, hfull, Stats.count,
          Frame.payload, Ending.discards, Frame.framesReceived, Frame.bytesReceived,
          Frame.framesError]
      · have hroom : ¬ 160 < hexBuffer.length + 1 := by
          have := hp.bound
          simp only at this
          omega
        simp [feed, position, step, hclose, hnewline, hspace, hdigit, hfull, hroom]
    | false =>
      have hending : endingOf ch = .illegal := by simp [endingOf, hclose, hnewline]
      simp [feed, position, step, hclose, hnewline, hspace, hdigit, hending, Ending.next,
        Ending.discards, Stats.count, Frame.payload, Frame.framesReceived, Frame.bytesReceived,
        Frame.framesError]

theorem feed_hexBuffer (p : Parser) (ch : UInt8) :
    (p.feed ch).hexBuffer = [] ∨
      ((p.feed ch).hexBuffer = p.hexBuffer ∧ (p.feed ch).state ≠ .receivingHex ∧
        p.state ≠ .receivingHex) ∨
      ((p.feed ch).hexBuffer = p.hexBuffer ∧ (p.feed ch).state = .receivingHex) ∨
      ((p.feed ch).hexBuffer = p.hexBuffer ++ [ch] ∧ (p.feed ch).state = .receivingHex ∧
        isHexDigit ch = true ∧ (p.hexBuffer ++ [ch]).length ≤ 160) := by
  obtain ⟨stats, state, hexBuffer, completed⟩ := p
  cases state with
  | idle => by_cases hopen : ch = openBracket <;> simp [feed, hopen]
  | complete => by_cases hopen : ch = openBracket <;> simp [feed, hopen]
  | error => simp [feed]
  | receivingHex =>
    by_cases hclose : ch = closeBracket
    · simp [feed, hclose]
    by_cases hnewline : ch = carriageReturn ∨ ch = lineFeed
    · simp [feed, hclose, hnewline]
    by_cases hspace : ch = space
    · have hother : space ≠ closeBracket ∧ ¬ (space = carriageReturn ∨ space = lineFeed) := by decide
      simp [feed, hspace, hother]
    cases hdigit : isHexDigit ch with
    | true =>
      by_cases hfull : hexBuffer.length + 1 > 160
      · simp [feed, hclose, hnewline, hspace, hdigit, hfull]
      · have hroom : hexBuffer.length + 1 ≤ 160 := by omega
        simp [feed, hclose, hnewline, hspace, hdigit, hfull, hroom]
    | false => simp [feed, hclose, hnewline, hspace, hdigit]

theorem step_frames {p : Parser} (hp : p.Valid) (ch : UInt8) :
    ∀ frame ∈ (step p.position ch).2, frame.digits.length ≤ 160 := by
  obtain ⟨stats, state, hexBuffer, completed⟩ := p
  have hbound : hexBuffer.length ≤ 160 := hp.bound
  cases state with
  | idle => by_cases hopen : ch = openBracket <;> simp [position, step, hopen]
  | complete => by_cases hopen : ch = openBracket <;> simp [position, step, hopen]
  | error => simp [position, step]
  | receivingHex =>
    simp only [position, step]
    split_ifs <;> simp [hbound]

theorem payload_length {frame : Frame} {m : List UInt8} (h : frame.payload = some m) :
    m.length = frame.digits.length / 2 ∧ 1 ≤ m.length := by
  unfold Frame.payload at h
  split at h
  · next hframe =>
    obtain rfl := Option.some.inj h
    rw [pairBytes_length]
    omega
  · contradiction

theorem valid_feed {p : Parser} (hp : p.Valid) (ch : UInt8) : (p.feed ch).Valid := by
  have hpayloads : ∀ m ∈ (p.feed ch).completed, 1 ≤ m.length ∧ m.length ≤ 80 := by
    intro m hm
    rw [(feed_spec hp ch).2.1, List.mem_append, List.mem_filterMap] at hm
    rcases hm with hm | ⟨frame, hframe, hpayload⟩
    · exact hp.payloads m hm
    · have hbound := step_frames hp ch frame hframe
      obtain ⟨hhalf, hpos⟩ := payload_length hpayload
      omega
  rcases p.feed_hexBuffer ch with hclear | ⟨hkeep, hstate, hbefore⟩ | ⟨hkeep, hstate⟩ |
    ⟨hpush, hstate, hdigit, hroom⟩
  · exact ⟨by simp [hclear], by simp [hclear], fun _ => hclear, hpayloads⟩
  · exact ⟨hkeep ▸ hp.digits, hkeep ▸ hp.bound, fun _ => hkeep.trans (hp.empty hbefore), hpayloads⟩
  · exact ⟨hkeep ▸ hp.digits, hkeep ▸ hp.bound, fun h => absurd hstate h, hpayloads⟩
  · refine ⟨?_, hpush ▸ hroom, fun h => absurd hstate h, hpayloads⟩
    intro c hc
    rw [hpush, List.mem_append, List.mem_singleton] at hc
    rcases hc with hc | rfl
    · exact hp.digits c hc
    · exact hdigit

theorem valid_pop {p : Parser} (hp : p.Valid) : p.getNextMessagePayload.2.Valid := by
  unfold getNextMessagePayload
  cases h : p.completed with
  | nil => exact hp
  | cons v rest =>
    exact ⟨hp.digits, hp.bound, hp.empty, fun m hm => hp.payloads m (by simp_all)⟩

theorem pop_spec (p : Parser) : p.getNextMessagePayload.2.position = p.position ∧
    p.getNextMessagePayload.2.completed = p.completed.tail ∧
    p.getNextMessagePayload.2.stats = p.stats := by
  obtain ⟨stats, state, hexBuffer, completed⟩ := p
  cases completed <;> exact ⟨rfl, rfl, rfl⟩

theorem valid_feedData {p : Parser} (hp : p.Valid) (data : List UInt8) : (p.feedData data).Valid := by
  induction data generalizing p with
  | nil => exact hp
  | cons ch data ih => exact ih (valid_feed hp ch)

theorem stats_feedData {p : Parser} (hp : p.Valid) (data : List UInt8) :
    (p.feedData data).stats = (run step p.position data).2.foldl Stats.count p.stats := by
  induction data generalizing p with
  | nil => rfl
  | cons ch data ih =>
    rw [feedData, List.foldl_cons, ← feedData, ih (valid_feed hp ch), run_cons, List.foldl_append,
      (feed_spec hp ch).1, (feed_spec hp ch).2.2]

def buffered : Buffered { p : Parser // p.Valid } Position UInt8 (List UInt8) where
  step := filterMap Frame.payload step
  core := fun p => p.1.position
  queue := fun p => p.1.completed
  feed := fun p ch => ⟨p.1.feed ch, valid_feed p.2 ch⟩
  pop := fun p => ⟨p.1.getNextMessagePayload.2, valid_pop p.2⟩
  core_feed := fun p ch => (feed_spec p.2 ch).1
  queue_feed := fun p ch => (feed_spec p.2 ch).2.1
  core_pop := fun p => p.1.pop_spec.1
  queue_pop := fun p => p.1.pop_spec.2.1

theorem foldl_buffered (p : { p : Parser // p.Valid }) (data : List UInt8) :
    (data.foldl buffered.feed p).1 = p.1.feedData data := by
  induction data generalizing p with
  | nil => rfl
  | cons ch data ih => exact ih _

/-- The payloads popped from a nonempty queue by a sequence of `feedData` and
`getNextMessagePayload` calls, and the parser left. -/
def runOps : Parser → List (Op UInt8) → List (List UInt8) × Parser
  | p, [] => ([], p)
  | p, .feed data :: ops => runOps (p.feedData data) ops
  | p, .pop :: ops =>
      let (payload, next) := p.getNextMessagePayload
      let (popped, last) := runOps next ops
      (if p.hasCompleteMessage then payload :: popped else popped, last)

theorem runOps_play (p : { p : Parser // p.Valid }) (ops : List (Op UInt8)) :
    (runOps p.1 ops).1 = (buffered.play p ops).1 ∧
      (runOps p.1 ops).2 = (buffered.play p ops).2.1 := by
  induction ops generalizing p with
  | nil => exact ⟨rfl, rfl⟩
  | cons op ops ih =>
    cases op with
    | feed data =>
      have hnext := ih (data.foldl buffered.feed p)
      rw [foldl_buffered] at hnext
      exact hnext
    | pop =>
      obtain ⟨hpopped, hlast⟩ := ih (buffered.pop p)
      refine ⟨?_, hlast⟩
      rw [Buffered.play, ← hpopped]
      obtain ⟨⟨stats, state, hexBuffer, completed⟩, hp⟩ := p
      cases completed <;> rfl

theorem position_feedData {p : Parser} (hp : p.Valid) (data : List UInt8) :
    (p.feedData data).position = (run step p.position data).1 := by
  have h := buffered.core_feedAll ⟨p, hp⟩ data
  rw [show buffered.step = filterMap Frame.payload step from rfl, run_filterMap] at h
  rw [← foldl_buffered ⟨p, hp⟩]
  exact h

theorem completed_feedData {p : Parser} (hp : p.Valid) (data : List UInt8) :
    (p.feedData data).completed =
      p.completed ++ (run step p.position data).2.filterMap Frame.payload := by
  have h := buffered.queue_feedAll ⟨p, hp⟩ data
  rw [show buffered.step = filterMap Frame.payload step from rfl, run_filterMap] at h
  rw [← foldl_buffered ⟨p, hp⟩]
  exact h

theorem stats_runOps {p : Parser} (hp : p.Valid) (ops : List (Op UInt8)) :
    (runOps p ops).2.stats =
      (run step p.position (ops.flatMap Op.input)).2.foldl Stats.count p.stats := by
  induction ops generalizing p with
  | nil => rfl
  | cons op ops ih =>
    cases op with
    | feed data =>
      have hnext := ih (valid_feedData hp data)
      rw [position_feedData hp, stats_feedData hp] at hnext
      rw [List.flatMap_cons, run_append, List.foldl_append]
      exact hnext
    | pop =>
      have hnext := ih (valid_pop hp)
      rw [p.pop_spec.1, p.pop_spec.2.2] at hnext
      exact hnext

end Parser

theorem foldl_count (frames : List Frame) (stats : Stats) :
    (frames.foldl Stats.count stats).framesReceived =
        stats.framesReceived + UInt64.ofNat (frames.map Frame.framesReceived).sum ∧
      (frames.foldl Stats.count stats).bytesReceived =
        stats.bytesReceived + UInt64.ofNat (frames.map Frame.bytesReceived).sum ∧
      (frames.foldl Stats.count stats).framesError =
        stats.framesError + UInt64.ofNat (frames.map Frame.framesError).sum := by
  induction frames generalizing stats with
  | nil => simp
  | cons frame frames ih =>
    obtain ⟨hreceived, hbytes, herror⟩ := ih (stats.count frame)
    rw [List.foldl_cons, hreceived, hbytes, herror]
    simp only [Stats.count, List.map_cons, List.sum_cons, UInt64.ofNat_add, UInt64.add_assoc,
      and_self]

theorem runOps_frames (ops : List (Op UInt8)) :
    (Parser.runOps {} ops).1 ++ (Parser.runOps {} ops).2.completed =
        (frames (ops.flatMap Op.input)).filterMap Frame.payload ∧
      (Parser.runOps {} ops).2.stats = (frames (ops.flatMap Op.input)).foldl Stats.count {} := by
  have hplay := Parser.runOps_play ⟨{}, Parser.valid_fresh⟩ ops
  have hfifo := Parser.buffered.play_fifo ⟨{}, Parser.valid_fresh⟩ ops
  have hstats := Parser.stats_runOps Parser.valid_fresh ops
  rw [show Parser.buffered.step = filterMap Frame.payload step from rfl, run_filterMap] at hfifo
  rw [show ({} : Parser).position = .outside from rfl, run_outside] at hstats
  refine ⟨?_, hstats⟩
  rw [hplay.1, hplay.2, ← run_outside]
  exact hfifo

/-- On every stream, however it is cut and whenever payloads are popped, a fresh
parser delivers the payloads of the frames of the grammar, in order, and its
counters are the totals over those frames. -/
theorem accepts_grammar (ops : List (Op UInt8)) :
    (Parser.runOps {} ops).1 ++ (Parser.runOps {} ops).2.completed =
        (frames (ops.flatMap Op.input)).filterMap Frame.payload ∧
      (Parser.runOps {} ops).2.stats.framesReceived =
        UInt64.ofNat ((frames (ops.flatMap Op.input)).map Frame.framesReceived).sum ∧
      (Parser.runOps {} ops).2.stats.bytesReceived =
        UInt64.ofNat ((frames (ops.flatMap Op.input)).map Frame.bytesReceived).sum ∧
      (Parser.runOps {} ops).2.stats.framesError =
        UInt64.ofNat ((frames (ops.flatMap Op.input)).map Frame.framesError).sum := by
  obtain ⟨hdelivered, hstats⟩ := runOps_frames ops
  have hcount := foldl_count (frames (ops.flatMap Op.input)) {}
  refine ⟨hdelivered, ?_, ?_, ?_⟩
  · rw [hstats, hcount.1, UInt64.zero_add]
  · rw [hstats, hcount.2.1, UInt64.zero_add]
  · rw [hstats, hcount.2.2, UInt64.zero_add]

end SerialIpmi.Terminal
