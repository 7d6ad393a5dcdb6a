import SerialIpmi.Library.Numbered
import SerialIpmi.Exchange

/-! Everything that the daemon puts on the line: its own responses and the answers of the reply
callbacks, in the order in which they were sent, whatever the writes do. -/
namespace SerialIpmi

open Decoding

def Action.sent : Action → Option Message
  | .respond resp => some resp
  | .answer _ resp => some resp
  | _ => none

def lineFrame (mode : ProtocolMode) (resp : Message) : List UInt8 :=
  (createParser mode).encodeResponse (Daemon.responsePayload resp)

def Env.accepts (env : Env) (count : Nat) (bytes : List UInt8) : Option (List UInt8) :=
  (env.write count bytes).map fun written => bytes.take written

theorem Env.isSome_accepts (env : Env) (count : Nat) (bytes : List UInt8) :
    (env.accepts count bytes).isSome = (env.write count bytes).isSome := by
  unfold Env.accepts
  cases env.write count bytes <;> rfl

namespace Daemon

def sent (d : Daemon) : List Message :=
  d.trace.filterMap Action.sent

/-- The frames of `resps` were written, in this order, to a channel that is open, and the k-th of
them went through the k-th system call. -/
structure OnLine (env : Env) (mode : ProtocolMode) (resps : List Message) (d : Daemon) : Prop where
  speaks : d.handler.parser.mode = mode
  channel : ∃ channel, d.handler.channel = some channel ∧ 0 ≤ channel.fd
  written : d.written = resps.map (lineFrame mode)
  writes : d.device.writes = resps.length
  accepted : d.device.accepted = Numbered.results env.accepts (resps.map (lineFrame mode))
  framesSent : d.framesSent = UInt64.ofNat d.device.accepted.length

variable {env : Env} {mode : ProtocolMode} {resps : List Message} {d d' : Daemon}

theorem sendResponse_unconnected (hchannel : d.handler.channel = none) (env : Env)
    (resp : Message) : sendResponse env resp d = .ok d := by
  have hframe : d.frame resp ≠ [] := d.handler.parser.encodeResponse_ne_nil _
  rw [sendResponse, ← frame, if_pos hframe, hchannel]

theorem sendResponse_closed {channel : Channel} (hchannel : d.handler.channel = some channel)
    (hclosed : channel.fd < 0) (env : Env) (resp : Message) :
    sendResponse env resp d =
      .thrown (.notOpen channel.devicePath) (d.log (.write (d.frame resp))) := by
  have hframe : d.frame resp ≠ [] := d.handler.parser.encodeResponse_ne_nil _
  rw [sendResponse, ← frame, if_pos hframe, hchannel]
  dsimp only
  rw [Channel.write, if_pos hclosed]

theorem sendResponse_open {channel : Channel} (hchannel : d.handler.channel = some channel)
    (hopen : 0 ≤ channel.fd) (env : Env) (resp : Message) :
    sendResponse env resp d = match env.accepts d.device.writes (d.frame resp) with
      | none => .thrown .writeError { d.log (.write (d.frame resp)) with
          device := { d.device with writes := d.device.writes + 1 } }
      | some bytes => .ok { d.log (.write (d.frame resp)) with
          device := { writes := d.device.writes + 1, accepted := d.device.accepted ++ [bytes] }
          framesSent := d.framesSent + 1 } := by
  have hframe : d.frame resp ≠ [] := d.handler.parser.encodeResponse_ne_nil _
  have hfd : ¬ channel.fd < 0 := Int.not_lt.mpr hopen
  rw [sendResponse, ← frame, if_pos hframe, hchannel]
  dsimp only
  rw [Channel.write, if_neg hfd, log, Env.accepts]
  cases env.write d.device.writes (d.frame resp) <;> rfl

theorem OnLine.send (h : OnLine env mode resps d) (resp : Message) :
    OnLine env mode (resps ++ [resp]) (sendResponse env resp d).state ∧
      (sendResponse env resp d).state.sent = d.sent := by
  obtain ⟨channel, hchannel, hopen⟩ := h.channel
  have hframe : d.frame resp = lineFrame mode resp := frame_eq h.speaks resp
  have hwritten : (d.log (.write (lineFrame mode resp))).written =
      (resps ++ [resp]).map (lineFrame mode) := by
    rw [Daemon.written, log, List.filterMap_append, ← Daemon.written, h.written, List.map_append]
    rfl
  have hsent : (d.log (.write (lineFrame mode resp))).sent = d.sent := by
    rw [sent, log, List.filterMap_append]
    exact List.append_nil _
  have hlength : resps.length + 1 = (resps ++ [resp]).length := by
    rw [List.length_append, List.length_singleton]
  have hresults := Numbered.results_concat env.accepts (resps.map (lineFrame mode))
    (lineFrame mode resp)
  rw [List.length_map, ← h.accepted] at hresults
  rw [sendResponse_open hchannel hopen, hframe, h.writes]
  cases haccepts : env.accepts resps.length (lineFrame mode resp) with
  | none =>
    rw [haccepts, Option.toList_none, List.append_nil] at hresults
    refine ⟨⟨h.speaks, h.channel, hwritten, hlength, ?_, h.framesSent⟩, hsent⟩
    rw [List.map_append]
    exact hresults.symm
  | some bytes =>
    rw [haccepts, Option.toList_some] at hresults
    refine ⟨⟨h.speaks, h.channel, hwritten, hlength, ?_, ?_⟩, hsent⟩
    · rw [List.map_append]
      exact hresults.symm
    · change d.framesSent + 1 = UInt64.ofNat (d.device.accepted ++ [bytes]).length
      rw [h.framesSent, List.length_append, UInt64.ofNat_add]
      rfl

theorem OnLine.of_log (h : OnLine env mode resps d) (actions : List Action)
    (hchannel : d'.handler.channel = d.handler.channel)
    (hmode : d'.handler.parser.mode = d.handler.parser.mode) (hdevice : d'.device = d.device)
    (hframesSent : d'.framesSent = d.framesSent) (htrace : d'.trace = d.trace ++ actions)
    (hnone : actions.filterMap Action.written = []) : OnLine env mode resps d' := by
  refine ⟨hmode.trans h.speaks, hchannel ▸ h.channel, ?_, hdevice ▸ h.writes,
    hdevice ▸ h.accepted, ?_⟩
  · rw [← h.written, Daemon.written, htrace, List.filterMap_append, hnone, List.append_nil,
      ← Daemon.written]
  · rw [hframesSent, hdevice]
    exact h.framesSent

theorem sent_of_log (actions : List Action) (htrace : d'.trace = d.trace ++ actions) :
    d'.sent = d.sent ++ actions.filterMap Action.sent := by
  rw [sent, htrace, List.filterMap_append, ← sent]

theorem sendAnswer_onLine (serial : Nat) (resp : Message) (h : OnLine env mode d.sent d) :
    OnLine env mode (sendAnswer env serial resp d).state.sent
      (sendAnswer env serial resp d).state := by
  have hlogged : OnLine env mode d.sent (d.log (.answer serial resp)) :=
    h.of_log [.answer serial resp] rfl rfl rfl rfl rfl rfl
  obtain ⟨honLine, hsent⟩ := hlogged.send resp
  rw [sendAnswer, hsent, sent_of_log (d := d) [.answer serial resp] rfl]
  exact honLine

theorem deliver_onLine (serial : Nat) (reply : Reply) (h : OnLine env mode d.sent d) :
    OnLine env mode (deliver env serial reply d).state.sent (deliver env serial reply d).state := by
  revert h
  apply deliver_keeps fun d d' => OnLine env mode d.sent d → OnLine env mode d'.sent d'
  · exact id
  · intro d d' d'' hfirst hsecond h
    exact hsecond (hfirst h)
  · intro bus h
    have hsent : (d.arrived bus serial reply).sent = d.sent := by
      rw [sent_of_log (d := d) [.reply serial reply] rfl]
      exact List.append_nil _
    rw [hsent]
    exact h.of_log [.reply serial reply] rfl rfl rfl rfl rfl rfl
  · intro resp d h
    exact sendAnswer_onLine serial resp h

theorem forwardToIpmid_onLine (netFn lun cmd : UInt8) (data : List UInt8) (sessionId : UInt32)
    (h : OnLine env mode d.sent d) :
    OnLine env mode (forwardToIpmid env netFn lun cmd data sessionId d).state.sent
      (forwardToIpmid env netFn lun cmd data sessionId d).state := by
  have hkept : ∀ d' : Daemon, ∀ actions : List Action,
      d'.handler.channel = d.handler.channel → d'.handler.parser = d.handler.parser →
      d'.device = d.device → d'.framesSent = d.framesSent → d'.trace = d.trace ++ actions →
      actions.filterMap Action.written = [] → actions.filterMap Action.sent = [] →
      OnLine env mode d'.sent d' := by
    intro d' actions hchannel hparser hdevice hframesSent htrace hwritten hsent
    rw [sent_of_log _ htrace, hsent, List.append_nil]
    exact h.of_log actions hchannel (by rw [hparser]) hdevice hframesSent htrace hwritten
  rcases forwardToIpmid_cases env netFn lun cmd data sessionId d with
    ⟨-, hforward⟩ | ⟨bus, -, ⟨-, hforward⟩ | ⟨-, hforward⟩⟩
  · rw [hforward]
    exact hkept _ [.forward netFn lun cmd data sessionId] rfl rfl rfl rfl rfl rfl rfl
  · rw [hforward]
    exact hkept _ [.forward netFn lun cmd data sessionId] rfl rfl rfl rfl rfl rfl rfl
  · rw [hforward]
    exact hkept _ [.forward netFn lun cmd data sessionId, .called bus.calls.length] rfl rfl rfl rfl
      (List.append_assoc ..) rfl rfl

theorem processIncoming_onLine (msg : Message) (h : OnLine env mode d.sent d) :
    OnLine env mode (processIncoming env msg d).state.sent (processIncoming env msg d).state := by
  cases hexecute : d.table.executeCommand ⟨msg.netFn, msg.cmd⟩ msg.data with
  | some respData =>
    have hresponding : OnLine env mode d.sent (d.responding msg respData) :=
      h.of_log [.incoming msg, .respond (localResponse msg respData)] rfl rfl rfl rfl rfl rfl
    obtain ⟨honLine, hsent⟩ := hresponding.send (localResponse msg respData)
    rw [processIncoming_local env hexecute, hsent, sent_of_log (d := d)
      [.incoming msg, .respond (localResponse msg respData)] rfl]
    exact honLine
  | none =>
    have hsent : (d.received msg).sent = d.sent := by
      rw [sent_of_log (d := d) [.incoming msg] rfl]
      exact List.append_nil _
    have hreceived : OnLine env mode (d.received msg).sent (d.received msg) := by
      rw [hsent]
      exact h.of_log [.incoming msg] rfl rfl rfl rfl rfl rfl
    rw [processIncoming_forward env hexecute]
    exact forwardToIpmid_onLine _ _ _ _ _ hreceived

theorem onLine_run (env : Env) (mode : ProtocolMode) {channel : Channel} (hopen : 0 ≤ channel.fd)
    (channelName : String) (bus : Option Bus) (table : Table) (events : List Event) :
    OnLine env mode (Outcome.eachCaught (handle env) events
        { start mode (some channel) channelName bus with table }).sent
      (Outcome.eachCaught (handle env) events
        { start mode (some channel) channelName bus with table }) := by
  have hfresh := settled_fresh mode (some channel) channelName bus table
  have hstart : OnLine env mode [] { start mode (some channel) channelName bus with table } :=
    ⟨by cases mode <;> rfl, ⟨channel, rfl, hopen⟩, rfl, rfl, rfl, rfl⟩
  apply hfresh.run_keeps (P := fun d => OnLine env mode d.sent d) _ _ _ hstart
  · intro parser rxBuffer d hmode h
    exact h.of_log [] rfl (hmode.trans h.speaks.symm) rfl rfl (List.append_nil _).symm rfl
  · intro msg d h
    exact processIncoming_onLine msg h
  · intro serial reply d h
    exact deliver_onLine serial reply h

end Daemon

def Env.Whole (env : Env) : Prop :=
  ∀ count bytes written, env.write count bytes = some written → written = Fin.last bytes.length

def Env.delivered (env : Env) (mode : ProtocolMode) (resps : List Message) : List Message :=
  Numbered.results (fun count resp =>
    if (env.write count (lineFrame mode resp)).isSome then some resp else none) resps

theorem Env.Whole.accepted {env : Env} (h : env.Whole) (mode : ProtocolMode)
    (resps : List Message) : Numbered.results env.accepts (resps.map (lineFrame mode)) =
      (env.delivered mode resps).map (lineFrame mode) := by
  unfold delivered
  rw [Numbered.results_map, Numbered.map_results]
  congr 1
  funext count resp
  unfold accepts
  cases hwrite : env.write count (lineFrame mode resp) with
  | none => rfl
  | some written =>
    rw [h count _ written hwrite]
    simp

def Message.asRead (resp : Message) : Message where
  mode := some .basic
  rsSA := resp.rqSA
  netFn := resp.netFn % 64
  lun := resp.lun % 4
  rqSA := resp.rsSA
  seqNum := resp.seqNum % 64
  cmd := resp.cmd
  data := resp.completionCode :: resp.data
  rawFrame := Daemon.responsePayload resp

namespace Daemon

theorem parsePayload_responsePayload (resp : Message) :
    parsePayload .basic (responsePayload resp) = resp.asRead := by
  rw [parsePayload, parseBasicPayload_responsePayload]
  rfl

theorem line_read_basic {env : Env} {resps : List Message} {d : Daemon}
    (h : OnLine env .basic resps d) (hwhole : env.Whole) {seen : List UInt8}
    (hseen : seen <+: d.device.accepted.flatten) :
    let client := ({} : Basic.Parser).feedData seen
    (IParser.basic client).drain <+: (env.delivered .basic resps).map Message.asRead ∧
      client.stats.framesChecksumError = 0 ∧
      (seen = d.device.accepted.flatten →
        (IParser.basic client).drain = (env.delivered .basic resps).map Message.asRead) := by
  intro client
  set payloads := (env.delivered .basic resps).map responsePayload with hpayloads
  have hline : d.device.accepted.flatten = payloads.flatMap Basic.basicCode.encode := by
    have hframe : lineFrame .basic = Basic.basicCode.encode ∘ responsePayload := by
      funext resp
      exact Basic.encodeResponse_eq {} (responsePayload resp)
    rw [h.accepted, hwhole.accepted, hpayloads, List.flatMap_def, List.map_map, hframe]
  have hvalid : ∀ m ∈ payloads, Basic.validateChecksum m = true := by
    intro m hm
    obtain ⟨resp, -, rfl⟩ := List.mem_map.mp hm
    exact validateChecksum_responsePayload resp
  have hrun := Basic.basicCode.run_encodes payloads
  have hread := run_mono Basic.basicCode.step .outside hseen
  rw [hline, hrun] at hread
  set released := (run Basic.basicCode.step .outside seen).2 with hreleased
  have hvalid' : ∀ m ∈ released, Basic.validateChecksum m = true := fun m hm =>
    hvalid m (hread.subset hm)
  have hcompleted : client.completedMessages = released := by
    have hfed := Basic.Parser.completedMessages_feedData {} seen
    rw [show ({} : Basic.Parser).position = .outside from rfl, Basic.filterMap_keep,
      List.filter_eq_self.mpr hvalid'] at hfed
    exact hfed
  have hdrain : (IParser.basic client).drain = released.map (parsePayload .basic) := by
    rw [IParser.drain_eq, IParser.payloads, hcompleted, IParser.mode]
  have hall : payloads.map (parsePayload .basic) =
      (env.delivered .basic resps).map Message.asRead := by
    rw [hpayloads, List.map_map]
    apply List.map_congr_left
    intro resp _
    exact parsePayload_responsePayload resp
  rw [hdrain, ← hall]
  refine ⟨hread.map _, ?_, ?_⟩
  · have hnone : released.countP (fun m => !Basic.validateChecksum m) = 0 := by
      rw [List.countP_eq_zero]
      intro m hm
      rw [hvalid' m hm]
      decide
    have herror := (Basic.foldl_count released {}).2
    rw [hnone] at herror
    rw [Basic.Parser.stats_feedData]
    exact herror
  · intro heq
    rw [hreleased, heq, hline, hrun]

theorem fits_responsePayload (resp : Message) :
    Terminal.Fits (responsePayload resp) ↔ resp.data.length ≤ 72 := by
  unfold Terminal.Fits
  rw [responsePayload_length]
  omega

theorem line_read_terminal {env : Env} {resps : List Message} {d : Daemon}
    (h : OnLine env .terminal resps d) (hwhole : env.Whole) {seen : List UInt8}
    (hseen : seen <+: d.device.accepted.flatten) :
    let client := ({} : Terminal.Parser).feedData seen
    let delivered := env.delivered .terminal resps
    let fitting := delivered.filter fun resp => resp.data.length ≤ 72
    client.completed <+: fitting.map responsePayload ∧
      (seen = d.device.accepted.flatten →
        client.completed = fitting.map responsePayload ∧
          client.stats.framesError =
            UInt64.ofNat (delivered.countP fun resp => 72 < resp.data.length)) := by
  intro client delivered fitting
  have hline : d.device.accepted.flatten =
      (delivered.map responsePayload).flatMap ({} : Terminal.Parser).encodeResponse := by
    rw [h.accepted, hwhole.accepted, List.flatMap_def, List.map_map]
    rfl
  obtain ⟨fs, hrun, hpayloads, herrors⟩ :=
    Terminal.run_encodeResponses {} (delivered.map responsePayload)
  have hfitting : fs.filterMap Terminal.Frame.payload = fitting.map responsePayload := by
    rw [hpayloads, List.filter_map]
    congr 1
    apply List.filter_congr
    intro resp _
    exact decide_eq_decide.mpr (fits_responsePayload resp)
  have hlong : (fs.map Terminal.Frame.framesError).sum =
      delivered.countP fun resp => 72 < resp.data.length := by
    rw [herrors, List.countP_map]
    apply List.countP_congr
    intro resp _
    simp [fits_responsePayload]
  have hcompleted : client.completed =
      (run Terminal.step .outside seen).2.filterMap Terminal.Frame.payload :=
    Terminal.Parser.completed_feedData Terminal.Parser.valid_fresh seen
  have hstats : client.stats = (run Terminal.step .outside seen).2.foldl Terminal.Stats.count {} :=
    Terminal.Parser.stats_feedData Terminal.Parser.valid_fresh seen
  rw [hcompleted, hstats]
  constructor
  · have hread := run_mono Terminal.step .outside hseen
    rw [hline, hrun] at hread
    rw [← hfitting]
    exact hread.filterMap _
  · intro hall
    rw [hall, hline, hrun, hfitting, (Terminal.foldl_count fs {}).2.2, hlong, UInt64.zero_add]
    exact ⟨rfl, rfl⟩

/-- What the far side reads of a whole run: over any bytes received and replies delivered, in any
order, the responses whose write does not fail, one for each, in the order in which they were
sent, however little of the line it has read so far. -/
theorem basic_line_decodes (env : Env) (channel : Channel) (channelName : String)
    (bus : Option Bus) (table : Table) (events : List Event) (seen : List UInt8)
    (hwhole : env.Whole) (hopen : 0 ≤ channel.fd) :
    let d := Outcome.eachCaught (handle env) events
      { start .basic (some channel) channelName bus with table }
    let client := ({} : Basic.Parser).feedData seen
    seen <+: d.device.accepted.flatten →
      (IParser.basic client).drain <+: (env.delivered .basic d.sent).map Message.asRead ∧
      client.stats.framesChecksumError = 0 ∧
      (seen = d.device.accepted.flatten →
        (IParser.basic client).drain = (env.delivered .basic d.sent).map Message.asRead) := by
  intro d client hseen
  exact line_read_basic (onLine_run env .basic hopen channelName bus table events)
    hwhole hseen

theorem basic_line_decodes_both :
    let events : List Event :=
      [0xA0, 0x20, 0x18, 0xC8, 0x81, 0x04, 0x01, 0x7A, 0xA5,
        0xA0, 0x20, 0x18, 0xC8, 0x81, 0x04, 0x3B, 0x40, 0xA5].map .byte ++
      [.reply 0 (.response 0x07 0x00 0x01 0x00 [0xA5])]
    let d := Outcome.eachCaught (handle .reliable) events
      { start .basic (some ⟨"/dev/ttyAMA1", 3⟩) "serial0" (some {}) with table := sessionTable }
    let client := ({} : Basic.Parser).feedData d.device.accepted.flatten
    (IParser.basic client).drain.map (fun msg => (msg.cmd, msg.data)) =
      [(0x3B, [0x00, 0x04]), (0x01, [0x00, 0xA5])] := by
  intro events d client
  have hwhole : Env.reliable.Whole := by
    intro count bytes written hwrite
    exact (Option.some.inj hwrite).symm
  have hread := (basic_line_decodes .reliable ⟨"/dev/ttyAMA1", 3⟩ "serial0" (some {}) sessionTable
    events d.device.accepted.flatten hwhole (by decide) (List.prefix_refl _)).2.2 rfl
  rw [hread]
  decide +kernel

/-- In Terminal mode the far side also loses each response of more than 72 bytes of data. -/
theorem terminal_line_decodes (env : Env) (channel : Channel) (channelName : String)
    (bus : Option Bus) (table : Table) (events : List Event) (seen : List UInt8)
    (hwhole : env.Whole) (hopen : 0 ≤ channel.fd) :
    let d := Outcome.eachCaught (handle env) events
      { start .terminal (some channel) channelName bus with table }
    let client := ({} : Terminal.Parser).feedData seen
    let delivered := env.delivered .terminal d.sent
    let fitting := delivered.filter fun resp => resp.data.length ≤ 72
    seen <+: d.device.accepted.flatten →
      client.completed <+: fitting.map responsePayload ∧
      (seen = d.device.accepted.flatten →
        client.completed = fitting.map responsePayload ∧
          client.stats.framesError =
            UInt64.ofNat (delivered.countP fun resp => 72 < resp.data.length)) := by
  intro d client delivered fitting hseen
  exact line_read_terminal (onLine_run env .terminal hopen channelName bus table events)
    hwhole hseen

theorem terminal_line_decodes_long :
    let events : List Event :=
      [0x5B, 0x31, 0x38, 0x20, 0x30, 0x30, 0x20, 0x30, 0x31, 0x5D].map .byte ++
      [.reply 0 (.response 0x07 0x00 0x01 0x00 (List.replicate 73 0x00))]
    let d := Outcome.eachCaught (handle .reliable) events
      { start .terminal (some ⟨"/dev/ttyAMA1", 3⟩) "serial0" (some {}) with table := sessionTable }
    let client := ({} : Terminal.Parser).feedData d.device.accepted.flatten
    client.completed = [] ∧ client.stats.framesError = 1 := by
  intro events d client
  have hwhole : Env.reliable.Whole := by
    intro count bytes written hwrite
    exact (Option.some.inj hwrite).symm
  obtain ⟨hcompleted, herrors⟩ := (terminal_line_decodes .reliable ⟨"/dev/ttyAMA1", 3⟩ "serial0"
    (some {}) sessionTable events d.device.accepted.flatten hwhole (by decide)
    (List.prefix_refl _)).2 rfl
  rw [hcompleted, herrors]
  decide +kernel

end Daemon

end SerialIpmi
