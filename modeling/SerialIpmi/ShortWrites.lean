import SerialIpmi.Library.Truncation
import SerialIpmi.Line
import SerialIpmi.Terminal.Truncation

/-! What short writes do to the far side. `Channel::write` does not go on with the rest of a frame
that the system call did not take, so the frame is cut off on the line and the next one follows. -/
namespace SerialIpmi

open Decoding

def frameEnd : ProtocolMode → UInt8
  | .terminal => Terminal.closeBracket
  | .basic => Basic.bmcStop

/-- The responses whose frame the system call takes up to the byte that ends it. -/
def Env.finished (env : Env) (mode : ProtocolMode) (resps : List Message) : List Message :=
  Numbered.results (fun count resp => (env.accepts count (lineFrame mode resp)).bind fun bytes =>
    if frameEnd mode ∈ bytes then some resp else none) resps

/-- What the line takes of the responses whose system call does not fail. -/
def Env.cuts (env : Env) (mode : ProtocolMode) (resps : List Message) : List (Cut UInt8) :=
  Numbered.results (fun count resp => (env.write count (lineFrame mode resp)).map fun written =>
    ⟨Daemon.responsePayload resp, written⟩) resps

theorem Env.cuts_line (env : Env) (mode : ProtocolMode) (resps : List Message) :
    (env.cuts mode resps).map (Cut.line (createParser mode).encodeResponse) =
      Numbered.results env.accepts (resps.map (lineFrame mode)) := by
  unfold cuts
  rw [Numbered.map_results, Numbered.results_map]
  congr 1
  funext count resp
  rw [Option.map_map]
  rfl

theorem Env.cuts_finished (env : Env) (mode : ProtocolMode) (resps : List Message) :
    (env.cuts mode resps).filterMap
        (Cut.finished (createParser mode).encodeResponse (frameEnd mode)) =
      (env.finished mode resps).map Daemon.responsePayload := by
  unfold cuts finished
  rw [Numbered.filterMap_results, Numbered.map_results]
  congr 1
  funext count resp
  unfold accepts
  cases env.write count (lineFrame mode resp) with
  | none => rfl
  | some written =>
    change (if frameEnd mode ∈ (lineFrame mode resp).take written then _ else _) =
      Option.map _ (if frameEnd mode ∈ (lineFrame mode resp).take written then _ else _)
    split <;> rfl

theorem Basic.mask_ne_stop : ∀ a, basicCode.reserved a = true →
    basicCode.mask a ≠ basicCode.stop := by
  decide +kernel

def Env.firstCut (limit : Nat) : Env where
  write := fun count bytes =>
    some ⟨if count = 0 then min limit bytes.length else bytes.length, by split <;> omega⟩
  callAsync := fun _ => true

namespace Daemon

variable {env : Env} {resps : List Message} {d : Daemon}

theorem OnLine.line_eq {mode : ProtocolMode} (h : OnLine env mode resps d) :
    d.device.accepted.flatten =
      (env.cuts mode resps).flatMap (Cut.line (createParser mode).encodeResponse) := by
  rw [h.accepted, ← env.cuts_line, List.flatMap_def]

theorem OnLine.countP_accepted {mode : ProtocolMode} (h : OnLine env mode resps d)
    (harmful : List UInt8 → Bool) : d.device.accepted.countP harmful =
      (env.cuts mode resps).countP fun cut =>
        harmful (cut.line (createParser mode).encodeResponse) := by
  rw [h.accepted, ← env.cuts_line, List.countP_map]
  rfl

theorem encodeResponse_basic : (createParser .basic).encodeResponse = Basic.basicCode.encode := by
  funext payload
  exact Basic.encodeResponse_eq {} payload

theorem cuts_finished_basic (env : Env) (resps : List Message) :
    (env.cuts .basic resps).filterMap
        (Cut.finished Basic.basicCode.encode Basic.basicCode.stop) =
      (env.finished .basic resps).map responsePayload := by
  have hfinished := env.cuts_finished .basic resps
  rw [encodeResponse_basic] at hfinished
  exact hfinished

theorem read_responsePayloads (resps : List Message) :
    ((resps.map responsePayload).filter fun m => Basic.validateChecksum m).map
      (parsePayload .basic) = resps.map Message.asRead := by
  rw [List.filter_eq_self.mpr, List.map_map]
  · apply List.map_congr_left
    intro resp _
    exact parsePayload_responsePayload resp
  · intro m hm
    obtain ⟨resp, -, rfl⟩ := List.mem_map.mp hm
    exact validateChecksum_responsePayload resp

theorem line_cut_basic (h : OnLine env .basic resps d) :
    let client := ({} : Basic.Parser).feedData d.device.accepted.flatten
    let finished := env.finished .basic resps
    let harmful := d.device.accepted.countP fun bytes => bytes.getLast? = some Basic.bmcEscape
    client.stats.framesReceived = UInt64.ofNat finished.length ∧
      (∃ read : List Message, read.Sublist finished ∧
        (read.map Message.asRead).Sublist (IParser.basic client).drain ∧
        finished.length ≤ read.length + harmful) ∧
      (harmful = 0 → (IParser.basic client).drain = finished.map Message.asRead ∧
        client.stats.framesChecksumError = 0) := by
  intro client finished harmful
  have hcontains := Basic.basicCode.contains_cuts Basic.mask_ne_stop
  have hfinished := cuts_finished_basic env resps
  have hline := h.line_eq
  have hharmful : harmful = (env.cuts .basic resps).countP Basic.basicCode.behindEscape := by
    change List.countP _ _ = _
    rw [h.countP_accepted, encodeResponse_basic]
    rfl
  rw [encodeResponse_basic] at hline
  set cuts := env.cuts .basic resps with hcuts
  set released := (run Basic.basicCode.step .outside d.device.accepted.flatten).2 with hreleased
  have hdrain : (IParser.basic client).drain =
      (released.filter fun m => Basic.validateChecksum m).map (parsePayload .basic) := by
    have hfed := Basic.Parser.completedMessages_feedData {} d.device.accepted.flatten
    rw [Basic.filterMap_keep] at hfed
    rw [IParser.drain_eq, IParser.payloads, hfed]
    rfl
  have hstats : client.stats = released.foldl Basic.Stats.count {} :=
    Basic.Parser.stats_feedData {} d.device.accepted.flatten
  have hcount := Basic.foldl_count released {}
  refine ⟨?_, ?_, ?_⟩
  · have hlength := hcontains.length_released
      (Basic.basicCode.run_finished_length Basic.mask_ne_stop) .outside cuts
    rw [← hline, hfinished, List.length_map] at hlength
    rw [hstats, hcount.1, UInt64.zero_add, hlength]
  · obtain ⟨payloads, hsub, hsound, hle⟩ := hcontains.lost_le .outside cuts
    rw [← hline] at hsub
    rw [hfinished] at hsound hle
    obtain ⟨read, hread, rfl⟩ := List.sublist_map_iff.mp hsound
    refine ⟨read, hread, ?_, ?_⟩
    · rw [hdrain, ← read_responsePayloads]
      exact (hsub.filter _).map _
    · rw [List.length_map, List.length_map] at hle
      rw [hharmful]
      exact hle
  · intro hnone
    rw [hharmful, List.countP_eq_zero] at hnone
    have hpieces : ∀ cut ∈ cuts, Basic.basicCode.behindEscape cut = false := by
      intro cut hcut
      exact Bool.not_eq_true _ ▸ hnone cut hcut
    have hall := hcontains.undamaged (s := .outside) rfl hpieces
    rw [← hline, hfinished, ← hreleased] at hall
    refine ⟨?_, ?_⟩
    · rw [hdrain, hall, read_responsePayloads]
    · have hvalid : (released.countP fun m => !Basic.validateChecksum m) = 0 := by
        rw [hall, List.countP_map, List.countP_eq_zero]
        intro resp _
        simp [validateChecksum_responsePayload]
      rw [hstats, hcount.2, hvalid]
      rfl

theorem cuts_deliverable (env : Env) (resps : List Message) :
    (env.cuts .terminal resps).filterMap (Terminal.deliverable {}) =
      ((env.finished .terminal resps).filter fun resp => resp.data.length ≤ 72).map
        responsePayload := by
  have hfinished : (env.cuts .terminal resps).filterMap
      (Cut.finished ({} : Terminal.Parser).encodeResponse Terminal.closeBracket) =
        (env.finished .terminal resps).map responsePayload := env.cuts_finished .terminal resps
  unfold Terminal.deliverable
  rw [← List.filter_filterMap, hfinished, List.filter_map]
  congr 1
  apply List.filter_congr
  intro resp _
  exact decide_eq_decide.mpr (fits_responsePayload resp)

theorem line_cut_terminal (h : OnLine env .terminal resps d) :
    let client := ({} : Terminal.Parser).feedData d.device.accepted.flatten
    let fitting := (env.finished .terminal resps).filter fun resp => resp.data.length ≤ 72
    let unclosed := d.device.accepted.countP fun bytes => Terminal.closeBracket ∉ bytes
    ∃ read : List Message, read.Sublist fitting ∧ client.completed = read.map responsePayload ∧
      fitting.length ≤ read.length + unclosed := by
  intro client fitting unclosed
  have hcontains := Terminal.contains_cuts {}
  have hsound := cuts_deliverable env resps
  have hline : d.device.accepted.flatten =
      (env.cuts .terminal resps).flatMap (Cut.line ({} : Terminal.Parser).encodeResponse) :=
    h.line_eq
  have hunclosed : unclosed = (env.cuts .terminal resps).countP (Terminal.unclosed {}) :=
    h.countP_accepted fun bytes => Terminal.closeBracket ∉ bytes
  have hcompleted : client.completed =
      (run Terminal.payloadStep .outside d.device.accepted.flatten).2 := by
    unfold Terminal.payloadStep
    rw [run_filterMap]
    exact Terminal.Parser.completed_feedData Terminal.Parser.valid_fresh _
  obtain ⟨payloads, hsub, -, hle⟩ := hcontains.lost_le .outside (env.cuts .terminal resps)
  have hreleased := hcontains.released_sublist
    (fun _ cut hdirty => Terminal.released_dirty {} hdirty cut) .outside (env.cuts .terminal resps)
  rw [← hline, ← hcompleted] at hsub hreleased
  rw [hsound] at hreleased hle
  obtain ⟨read, hread, hclient⟩ := List.sublist_map_iff.mp hreleased
  refine ⟨read, hread, hclient, ?_⟩
  have hlength := hsub.length_le
  rw [hclient, List.length_map] at hlength
  rw [List.length_map] at hle
  rw [hunclosed]
  change fitting.length ≤ _ + _ + 0 at hle
  omega

/-- What short writes cost in Basic mode, over any bytes received and replies delivered and
whatever each system call takes or refuses: the far side counts as many frames as were taken up to
their STOP, and reads them as they were sent, but for at most one after each frame that is cut
behind an escape byte. Without such a cut it reads all of them, and no checksum fails. -/
theorem basic_short_writes (env : Env) (channel : Channel) (channelName : String)
    (bus : Option Bus) (table : Table) (events : List Event) (hopen : 0 ≤ channel.fd) :
    let d := Outcome.eachCaught (handle env) events
      { start .basic (some channel) channelName bus with table }
    let client := ({} : Basic.Parser).feedData d.device.accepted.flatten
    let finished := env.finished .basic d.sent
    let harmful := d.device.accepted.countP fun bytes => bytes.getLast? = some Basic.bmcEscape
    client.stats.framesReceived = UInt64.ofNat finished.length ∧
      (∃ read : List Message, read.Sublist finished ∧
        (read.map Message.asRead).Sublist (IParser.basic client).drain ∧
        finished.length ≤ read.length + harmful) ∧
      (harmful = 0 → (IParser.basic client).drain = finished.map Message.asRead ∧
        client.stats.framesChecksumError = 0) :=
  line_cut_basic (onLine_run env .basic hopen channelName bus table events)

/-- A reply is cut behind the escape byte of its data. The far side reads the two frames as one
response, whose checksums hold and which was never sent. -/
theorem basic_short_writes_forged :
    let events : List Event := [0xA0, 0x20, 0x18, 0xC8, 0x81, 0x04, 0x01, 0x7A, 0xA5].map .byte ++
      [.reply 0 (.response 0x07 0x00 0x2C 0x00 [0xA0])] ++
      [0xA0, 0x20, 0x18, 0xC8, 0x81, 0x04, 0x3B, 0x40, 0xA5].map .byte
    let d := Outcome.eachCaught (handle (.firstCut 9)) events
      { start .basic (some ⟨"/dev/ttyAMA1", 3⟩) "serial0" (some {}) with table := sessionTable }
    let client := ({} : Basic.Parser).feedData d.device.accepted.flatten
    client.stats.framesReceived = 1 ∧
      (Env.finished (.firstCut 9) .basic d.sent).map (fun resp => (resp.cmd, resp.data)) =
        [(0x3B, [0x04])] ∧
      (IParser.basic client).drain.map (fun msg => (msg.cmd, msg.data)) =
        [(0x2C, [0x00, 0xB0, 0x81, 0x1C, 0x63, 0x20, 0x04, 0x3B, 0x00, 0x04])] := by
  intro events d client
  have hread := basic_short_writes (.firstCut 9) ⟨"/dev/ttyAMA1", 3⟩ "serial0" (some {})
    sessionTable events (by decide)
  refine ⟨?_, by decide +kernel, by decide +kernel⟩
  apply hread.1.trans
  decide +kernel

/-- In Terminal mode the far side reads nothing that was not sent, and misses at most one response
for each frame that is cut off, besides the frames that are cut off and those that do not fit. -/
theorem terminal_short_writes (env : Env) (channel : Channel) (channelName : String)
    (bus : Option Bus) (table : Table) (events : List Event) (hopen : 0 ≤ channel.fd) :
    let d := Outcome.eachCaught (handle env) events
      { start .terminal (some channel) channelName bus with table }
    let client := ({} : Terminal.Parser).feedData d.device.accepted.flatten
    let fitting := (env.finished .terminal d.sent).filter fun resp => resp.data.length ≤ 72
    let unclosed := d.device.accepted.countP fun bytes => Terminal.closeBracket ∉ bytes
    ∃ read : List Message, read.Sublist fitting ∧ client.completed = read.map responsePayload ∧
      fitting.length ≤ read.length + unclosed :=
  line_cut_terminal (onLine_run env .terminal hopen channelName bus table events)

/-- Three requests whose first response is cut after four bytes: the second response is lost with
it, and the third is read. -/
theorem terminal_short_writes_next :
    let request : List UInt8 := [0x5B, 0x31, 0x38, 0x20, 0x30, 0x30, 0x20, 0x33, 0x42, 0x5D]
    let d := Outcome.eachCaught (handle (.firstCut 4)) ((request ++ request ++ request).map .byte)
      { start .terminal (some ⟨"/dev/ttyAMA1", 3⟩) "serial0" (some {}) with table := sessionTable }
    let client := ({} : Terminal.Parser).feedData d.device.accepted.flatten
    let fitting := (Env.finished (.firstCut 4) .terminal d.sent).filter fun resp =>
      resp.data.length ≤ 72
    fitting.length = 2 ∧ client.completed.length = 1 ∧
      ∃ read : List Message, read.Sublist fitting ∧ client.completed = read.map responsePayload := by
  refine ⟨?_, ?_, ?_⟩
  · decide +kernel
  · decide +kernel
  · obtain ⟨read, hread, hclient, -⟩ := terminal_short_writes (.firstCut 4) ⟨"/dev/ttyAMA1", 3⟩
      "serial0" (some {}) sessionTable _ (by decide)
    refine ⟨read, hread, ?_⟩
    dsimp only at hclient ⊢
    exact hclient

end Daemon

end SerialIpmi
