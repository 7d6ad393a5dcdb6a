import SerialIpmi.EventLoop

/-! A corrupted Basic-mode frame at the handler: it is counted, and never dispatched. The
counters of the handler's parser are those of its stream, whatever calls throw. -/
namespace SerialIpmi

open Decoding Framing

def IParser.basicStats : IParser → Option Basic.Stats
  | .terminal _ => none
  | .basic p => some p.stats

theorem IParser.basicStats_getNextMessage (p : IParser) :
    p.getNextMessage.2.basicStats = p.basicStats := by
  cases p with
  | terminal p => rfl
  | basic p =>
    cases hqueue : p.completedMessages with
    | nil => simp [getNextMessage, Basic.Parser.getNextMessage, hqueue, basicStats]
    | cons raw rest => simp [getNextMessage, Basic.Parser.getNextMessage_cons hqueue, basicStats]

namespace Daemon

theorem processMessages_basicStats (env : Env) (rounds : Nat) (d : Daemon) :
    (processMessages env rounds d).state.handler.parser.basicStats =
      d.handler.parser.basicStats := by
  induction rounds generalizing d with
  | zero => rfl
  | succ rounds ih =>
    unfold processMessages
    split
    · have hincoming := (processIncoming_dispatches env d.handler.parser.getNextMessage.1
        { d with handler.parser := d.handler.parser.getNextMessage.2 }).parser
      dsimp only
      cases hresult : processIncoming env d.handler.parser.getNextMessage.1
        { d with handler.parser := d.handler.parser.getNextMessage.2 } with
      | ok d' =>
        rw [hresult] at hincoming
        exact (ih d').trans (hincoming ▸ IParser.basicStats_getNextMessage _)
      | thrown e d' =>
        rw [hresult] at hincoming
        exact hincoming ▸ IParser.basicStats_getNextMessage _
    · rfl

theorem processByte_basicStats (env : Env) (ch : UInt8) (d : Daemon) :
    (processByte env ch d).state.handler.parser.basicStats =
      (d.handler.parser.feedData (d.handler.rxBuffer ++ [ch])).basicStats := by
  have hmessages := processMessages_basicStats env
    (d.handler.parser.feedData (d.handler.rxBuffer ++ [ch])).pending
    { d with
      handler.parser := d.handler.parser.feedData (d.handler.rxBuffer ++ [ch])
      handler.rxBuffer := d.handler.rxBuffer ++ [ch] }
  rw [← hmessages]
  unfold processByte tryParseMessages
  dsimp only
  cases processMessages env (d.handler.parser.feedData (d.handler.rxBuffer ++ [ch])).pending
    { d with
      handler.parser := d.handler.parser.feedData (d.handler.rxBuffer ++ [ch])
      handler.rxBuffer := d.handler.rxBuffer ++ [ch] } <;> rfl

def streamStats (stream : List UInt8) : Basic.Stats :=
  (run Basic.basicCode.step .outside stream).2.foldl Basic.Stats.count {}

section

variable {d₀ d : Daemon} {seen : List UInt8}

theorem Settled.basic_position (h : Settled .basic d₀ seen d) {p : Basic.Parser}
    (hparser : d.handler.parser = .basic p) :
    p.position = (Decoding.run Basic.basicCode.step .outside seen).1 := by
  have hposition := h.parser.position
  rw [hparser] at hposition
  unfold streamPosition Position.between at hposition
  rw [run_basic] at hposition
  exact Position.basic.inj hposition

theorem Settled.basicStats_processByte (h : Settled .basic d₀ seen d)
    (hstats : d.handler.parser.basicStats = some (streamStats seen)) (env : Env) (ch : UInt8) :
    (Daemon.processByte env ch d).state.handler.parser.basicStats =
      some (streamStats (seen ++ [ch])) := by
  rw [processByte_basicStats]
  cases hparser : d.handler.parser with
  | terminal p => simp [hparser, IParser.basicStats] at hstats
  | basic p =>
    have hposition := h.basic_position hparser
    have hcount : p.stats = streamStats seen := by
      rw [hparser] at hstats
      exact Option.some.inj hstats
    -- a byte that waits is one that the parser skips between frames
    have hwaiting : (Decoding.run Basic.basicCode.step p.position (d.handler.rxBuffer ++ [ch])).2 =
        (Decoding.run Basic.basicCode.step p.position [ch]).2 := by
      rcases h.rxBuffer with hempty | ⟨stale, hstale, hbetween, hstep⟩
      · rw [hempty, List.nil_append]
      · have houtside : p.position = .outside := by
          rw [← h.parser.position, hparser] at hbetween
          exact Position.basic.inj hbetween
        have hskip : Basic.basicCode.step .outside stale = (.outside, []) := by
          by_cases hstart : stale = Basic.basicCode.start
          · simp [Position.between, Position.step, filterMap, Code.step, hstart] at hstep
          · simp [Code.step, hstart]
        rw [hstale, houtside, List.singleton_append, run_cons, hskip]
        rfl
    have hfed := p.stats_feedData (d.handler.rxBuffer ++ [ch])
    rw [hwaiting, hcount, hposition] at hfed
    unfold streamStats
    rw [run_append, List.foldl_append, ← streamStats, ← hfed]
    rfl

theorem Settled.basicStats_run (h : Settled .basic d₀ seen d)
    (hstats : d.handler.parser.basicStats = some (streamStats seen)) (env : Env)
    (events : List Event) :
    (Outcome.eachCaught (Daemon.handle env) events d).handler.parser.basicStats =
      some (streamStats (seen ++ events.flatMap Event.input)) := by
  apply h.run_induction
    (P := fun seen d => d.handler.parser.basicStats = some (streamStats seen)) hstats
  intro seen d event hsettled hstats
  cases event with
  | byte ch => exact hsettled.basicStats_processByte hstats env ch
  | reply serial reply =>
    have hparser := (deliver_dispatches env serial reply d).parser
    unfold Daemon.handle
    rw [Event.append_input_reply, hparser]
    exact hstats
  | busError =>
    rw [Event.append_input_busError]
    exact hstats

theorem streamMessages_basic_eq (stream : List UInt8) : streamMessages .basic stream =
    ((Decoding.run Basic.basicCode.step .outside stream).2.filterMap Basic.keep).map
      (parsePayload .basic) := by
  rw [Code.run_outside]
  rfl

theorem run_append_encode {stream : List UInt8}
    (houtside : (Decoding.run Basic.basicCode.step .outside stream).1 = .outside)
    (p : Basic.Parser) (payload : List UInt8) :
    (Decoding.run Basic.basicCode.step .outside (stream ++ p.encodeResponse payload)).2 =
      (Decoding.run Basic.basicCode.step .outside stream).2 ++ [payload] := by
  have hencode := Basic.basicCode.run_encode payload []
  rw [List.append_nil] at hencode
  rw [run_append, houtside, Basic.encodeResponse_eq, hencode]
  rfl

section

variable {stream : List UInt8} {p : Basic.Parser} {payload : List UInt8}

theorem streamMessages_append_invalid
    (houtside : (Decoding.run Basic.basicCode.step .outside stream).1 = .outside)
    (hinvalid : Basic.validateChecksum payload = false) :
    streamMessages .basic (stream ++ p.encodeResponse payload) = streamMessages .basic stream := by
  rw [streamMessages_basic_eq, streamMessages_basic_eq, run_append_encode houtside,
    List.filterMap_append]
  simp [Basic.keep, hinvalid]

theorem streamStats_append_invalid
    (houtside : (Decoding.run Basic.basicCode.step .outside stream).1 = .outside)
    (hinvalid : Basic.validateChecksum payload = false) :
    (streamStats (stream ++ p.encodeResponse payload)).framesChecksumError =
      (streamStats stream).framesChecksumError + 1 := by
  unfold streamStats
  rw [run_append_encode houtside, List.foldl_append, List.foldl_cons, List.foldl_nil]
  simp [Basic.Stats.count, hinvalid]

end

theorem Settled.invalid_frame (h : Settled .basic d₀ seen d)
    (hstats : d.handler.parser.basicStats = some (streamStats seen)) {p : Basic.Parser}
    (hparser : d.handler.parser = .basic p) (hbetween : p.state = .msgNone ∨ p.state = .msgDone)
    {payload : List UInt8} (hinvalid : Basic.validateChecksum payload = false) (env : Env) :
    let d' := Outcome.eachCaught (Daemon.processByte env) (p.encodeResponse payload) d
    d'.trace.filterMap Action.dispatched = d.trace.filterMap Action.dispatched ∧
      ∃ p', d'.handler.parser = .basic p' ∧
        p'.stats.framesChecksumError = p.stats.framesChecksumError + 1 := by
  intro d'
  have houtside : (Decoding.run Basic.basicCode.step .outside seen).1 = .outside := by
    rw [← h.basic_position hparser]
    unfold Basic.Parser.position
    rcases hbetween with hnone | hdone
    · rw [hnone]
    · rw [hdone]
  have hsettled : Settled .basic d₀ (seen ++ p.encodeResponse payload) d' := h.processBytes env _
  have hafter : d'.handler.parser.basicStats =
      some (streamStats (seen ++ p.encodeResponse payload)) := by
    have hrun := h.basicStats_run hstats env ((p.encodeResponse payload).map .byte)
    rw [input_byte, eachCaught_byte] at hrun
    exact hrun
  have hbefore : p.stats = streamStats seen := by
    rw [hparser] at hstats
    exact Option.some.inj hstats
  constructor
  · rw [hsettled.dispatched, h.dispatched]
    exact streamMessages_append_invalid houtside hinvalid
  · cases hparser' : d'.handler.parser with
    | terminal p' => simp [hparser', IParser.basicStats] at hafter
    | basic p' =>
      rw [hparser'] at hafter
      have hcount : p'.stats = streamStats (seen ++ p.encodeResponse payload) :=
        Option.some.inj hafter
      refine ⟨p', rfl, ?_⟩
      rw [hcount, hbefore]
      exact streamStats_append_invalid houtside hinvalid

end

/-- A valid payload with one byte replaced is no valid payload. Sent to a Basic-mode handler
whose parser is between frames, whatever happened before, it is dispatched as no message and
counts as one checksum error. -/
theorem corruption_caught (env : Env) (channel : Option Channel) (channelName : String)
    (bus : Option Bus) (table : Table) (events : List Event) (m : List UInt8) (i : Nat) (b : UInt8)
    (p : Basic.Parser) (hvalid : Basic.validateChecksum m = true) (hi : i < m.length)
    (hb : b ≠ m[i]) :
    let d := Outcome.eachCaught (handle env) events
      { start .basic channel channelName bus with table }
    let d' := Outcome.eachCaught (processByte env) (p.encodeResponse (m.set i b)) d
    d.handler.parser = .basic p → p.state = .msgNone ∨ p.state = .msgDone →
      Basic.validateChecksum (m.set i b) = false ∧
        d'.trace.filterMap Action.dispatched = d.trace.filterMap Action.dispatched ∧
        ∃ p', d'.handler.parser = .basic p' ∧
          p'.stats.framesChecksumError = p.stats.framesChecksumError + 1 := by
  intro d d' hparser hbetween
  have hinvalid := Basic.validateChecksum_set hvalid hi hb
  have hfresh := settled_fresh .basic channel channelName bus table
  exact ⟨hinvalid, (hfresh.run env events).invalid_frame (hfresh.basicStats_run rfl env events)
    hparser hbetween hinvalid env⟩

theorem corruption_caught_privilege :
    let d := Outcome.eachCaught (handle .reliable)
      ([0xA0, 0x20, 0x18, 0xC8, 0x81, 0x04, 0x3B, 0x40, 0xA5].map .byte)
      { start .basic none "serial0" none with table := sessionTable }
    let p : Basic.Parser :=
      { state := .msgDone, stats := { framesReceived := 1, framesValid := 1, bytesReceived := 7 } }
    let d' := Outcome.eachCaught (processByte .reliable)
      (p.encodeResponse [0x20, 0x18, 0xC8, 0x81, 0x04, 0x3B, 0x41]) d
    d'.trace.filterMap Action.dispatched = d.trace.filterMap Action.dispatched := by
  intro d p d'
  have hcaught := corruption_caught .reliable none "serial0" none sessionTable
    ([0xA0, 0x20, 0x18, 0xC8, 0x81, 0x04, 0x3B, 0x40, 0xA5].map .byte)
    [0x20, 0x18, 0xC8, 0x81, 0x04, 0x3B, 0x40] 6 0x41 p (by decide) (by decide) (by decide)
  exact (hcaught (by decide +kernel) (Or.inr rfl)).2.1

end Daemon

end SerialIpmi
