import SerialIpmi.MessageHandler
import SerialIpmi.ParserStream

/-! What the handler dispatches. Each function gets one lemma with everything it
can do; the invariant of the received bytes is proved from these alone. -/
namespace SerialIpmi

open Decoding

theorem Channel.write_cases (env : Env) (channel : Channel) (bytes : List UInt8) (device : Device) :
    (∃ e device', channel.write env bytes device = (.error e, device') ∧
      device'.accepted = device.accepted) ∨
    ∃ written, env.write device.writes bytes = some written ∧
      channel.write env bytes device = (.ok written, {
        writes := device.writes + 1
        accepted := device.accepted ++ [bytes.take written] }) := by
  by_cases hfd : channel.fd < 0
  · exact Or.inl ⟨_, device, by rw [Channel.write, if_pos hfd], rfl⟩
  cases hwrite : env.write device.writes bytes with
  | none =>
    left
    exact ⟨_, { device with writes := device.writes + 1 }, by
      rw [Channel.write, if_neg hfd, hwrite], rfl⟩
  | some written =>
    right
    exact ⟨written, rfl, by rw [Channel.write, if_neg hfd, hwrite]⟩

theorem IParser.encodeResponse_ne_nil (p : IParser) (payload : List UInt8) :
    p.encodeResponse payload ≠ [] := by
  cases p <;> simp [encodeResponse, Terminal.Parser.encodeResponse, Basic.Parser.encodeResponse]

def Action.isDispatch : Action → Bool
  | .incoming _ | .respond _ | .forward .. => true
  | _ => false

namespace Daemon

def frame (d : Daemon) (resp : Message) : List UInt8 :=
  d.handler.parser.encodeResponse (responsePayload resp)

def busCall (d : Daemon) (netFn lun cmd : UInt8) (data : List UInt8) (sessionId : UInt32) : Call where
  method := { netFn, lun, cmd, data, channel := d.handler.channelName }
  callback := { netFn, lun, cmd, sessionId, seqNum := d.handler.currentMsg.seqNum }

theorem sendResponse_cases (env : Env) (resp : Message) (d : Daemon) :
    (d.handler.channel = none ∧ sendResponse env resp d = .ok d) ∨
    (∃ e device, device.accepted = d.device.accepted ∧
      sendResponse env resp d = .thrown e { d.log (.write (d.frame resp)) with device }) ∨
    ∃ written, env.write d.device.writes (d.frame resp) = some written ∧
      sendResponse env resp d = .ok { d.log (.write (d.frame resp)) with
        device := { writes := d.device.writes + 1
                    accepted := d.device.accepted ++ [(d.frame resp).take written] }
        framesSent := d.framesSent + 1 } := by
  have hframe : d.frame resp ≠ [] := d.handler.parser.encodeResponse_ne_nil _
  cases hchannel : d.handler.channel with
  | none =>
    left
    exact ⟨rfl, by rw [sendResponse, ← frame, if_pos hframe, hchannel]⟩
  | some channel =>
    right
    rcases channel.write_cases env (d.frame resp) d.device with
      ⟨e, device, hwrite, haccepted⟩ | ⟨written, hwritten, hwrite⟩
    · left
      refine ⟨e, device, haccepted, ?_⟩
      rw [sendResponse, ← frame, if_pos hframe, hchannel]
      simp only [log, hwrite]
    · right
      refine ⟨written, hwritten, ?_⟩
      rw [sendResponse, ← frame, if_pos hframe, hchannel]
      simp only [log, hwrite]

theorem forwardToIpmid_cases (env : Env) (netFn lun cmd : UInt8) (data : List UInt8)
    (sessionId : UInt32) (d : Daemon) :
    let d' := d.log (.forward netFn lun cmd data sessionId)
    (d.bus = none ∧ forwardToIpmid env netFn lun cmd data sessionId d = .ok d') ∨
    ∃ bus, d.bus = some bus ∧
      ((env.callAsync bus.attempts = false ∧
        forwardToIpmid env netFn lun cmd data sessionId d =
          .thrown .dbus { d' with bus := some { bus with attempts := bus.attempts + 1 } }) ∨
       (env.callAsync bus.attempts = true ∧
        forwardToIpmid env netFn lun cmd data sessionId d =
          .ok ({ d' with
            bus := some { bus with
              attempts := bus.attempts + 1
              calls := bus.calls ++ [d.busCall netFn lun cmd data sessionId] }
            handler.asyncSlot := some bus.calls.length }.log (.called bus.calls.length)))) := by
  cases hbus : d.bus with
  | none =>
    left
    exact ⟨rfl, by simp [forwardToIpmid, log, hbus]⟩
  | some bus =>
    refine Or.inr ⟨bus, rfl, ?_⟩
    cases hcall : env.callAsync bus.attempts with
    | false =>
      left
      exact ⟨rfl, by simp [forwardToIpmid, log, hbus, Bus.callAsync, hcall]⟩
    | true =>
      right
      exact ⟨rfl, by simp [forwardToIpmid, log, hbus, Bus.callAsync, hcall, busCall]⟩

def dispatchActions (t : Table) (msg : Message) : List Action :=
  [.incoming msg,
    match t.executeCommand ⟨msg.netFn, msg.cmd⟩ msg.data with
    | some respData => .respond (localResponse msg respData)
    | none => .forward msg.netFn msg.lun msg.cmd msg.data msg.sessionId]

/-- From `d` to `d'` exactly `actions` are dispatched. What the handler reads of
itself stays. -/
structure Dispatches (d : Daemon) (actions : List Action) (d' : Daemon) : Prop where
  table : d'.table = d.table
  channel : d'.handler.channel = d.handler.channel
  channelName : d'.handler.channelName = d.handler.channelName
  parser : d'.handler.parser = d.handler.parser
  rxBuffer : d'.handler.rxBuffer = d.handler.rxBuffer
  trace : d'.trace.filter Action.isDispatch = d.trace.filter Action.isDispatch ++ actions

namespace Dispatches

variable {d d' d'' : Daemon} {left right : List Action}

theorem refl (d : Daemon) : Dispatches d [] d :=
  ⟨rfl, rfl, rfl, rfl, rfl, (List.append_nil _).symm⟩

theorem trans (h : Dispatches d left d') (h' : Dispatches d' right d'') :
    Dispatches d (left ++ right) d'' where
  table := h'.table.trans h.table
  channel := h'.channel.trans h.channel
  channelName := h'.channelName.trans h.channelName
  parser := h'.parser.trans h.parser
  rxBuffer := h'.rxBuffer.trans h.rxBuffer
  trace := by rw [h'.trace, h.trace, List.append_assoc]

theorem of_log (actions : List Action) (htable : d'.table = d.table)
    (hchannel : d'.handler.channel = d.handler.channel)
    (hchannelName : d'.handler.channelName = d.handler.channelName)
    (hparser : d'.handler.parser = d.handler.parser)
    (hrxBuffer : d'.handler.rxBuffer = d.handler.rxBuffer)
    (htrace : d'.trace = d.trace ++ actions) :
    Dispatches d (actions.filter Action.isDispatch) d' :=
  ⟨htable, hchannel, hchannelName, hparser, hrxBuffer, by rw [htrace, List.filter_append]⟩

end Dispatches

theorem sendResponse_dispatches (env : Env) (resp : Message) (d : Daemon) :
    Dispatches d [] (sendResponse env resp d).state := by
  rcases sendResponse_cases env resp d with ⟨-, h⟩ | ⟨e, device, -, h⟩ | ⟨written, -, h⟩
  · rw [h]
    exact .refl d
  · rw [h]
    exact .of_log [.write (d.frame resp)] rfl rfl rfl rfl rfl rfl
  · rw [h]
    exact .of_log [.write (d.frame resp)] rfl rfl rfl rfl rfl rfl

theorem forwardToIpmid_dispatches (env : Env) (netFn lun cmd : UInt8) (data : List UInt8)
    (sessionId : UInt32) (d : Daemon) :
    Dispatches d [.forward netFn lun cmd data sessionId]
      (forwardToIpmid env netFn lun cmd data sessionId d).state := by
  rcases forwardToIpmid_cases env netFn lun cmd data sessionId d with
    ⟨-, h⟩ | ⟨bus, -, ⟨-, h⟩ | ⟨-, h⟩⟩
  · rw [h]
    exact .of_log [.forward netFn lun cmd data sessionId] rfl rfl rfl rfl rfl rfl
  · rw [h]
    exact .of_log [.forward netFn lun cmd data sessionId] rfl rfl rfl rfl rfl rfl
  · rw [h]
    exact .of_log [.forward netFn lun cmd data sessionId, .called bus.calls.length] rfl rfl rfl rfl
      rfl (List.append_assoc ..)

def received (d : Daemon) (msg : Message) : Daemon :=
  { d with handler.currentMsg := msg, trace := d.trace ++ [.incoming msg] }

def responding (d : Daemon) (msg : Message) (respData : List UInt8) : Daemon :=
  { d with
    handler.currentMsg := msg
    handler.outMessage := some (localResponse msg respData)
    trace := d.trace ++ [.incoming msg, .respond (localResponse msg respData)] }

theorem processIncoming_local (env : Env) {msg : Message} {d : Daemon} {respData : List UInt8}
    (h : d.table.executeCommand ⟨msg.netFn, msg.cmd⟩ msg.data = some respData) :
    processIncoming env msg d =
      sendResponse env (localResponse msg respData) (d.responding msg respData) := by
  simp [processIncoming, log, h, responding]

theorem processIncoming_forward (env : Env) {msg : Message} {d : Daemon}
    (h : d.table.executeCommand ⟨msg.netFn, msg.cmd⟩ msg.data = none) :
    processIncoming env msg d =
      forwardToIpmid env msg.netFn msg.lun msg.cmd msg.data msg.sessionId (d.received msg) := by
  simp only [processIncoming, log, h, received]

theorem processIncoming_dispatches (env : Env) (msg : Message) (d : Daemon) :
    Dispatches d (dispatchActions d.table msg) (processIncoming env msg d).state := by
  cases hexecute : d.table.executeCommand ⟨msg.netFn, msg.cmd⟩ msg.data with
  | some respData =>
    rw [processIncoming_local env hexecute, dispatchActions, hexecute]
    have hresponding : Dispatches d [.incoming msg, .respond (localResponse msg respData)]
        (d.responding msg respData) :=
      .of_log [.incoming msg, .respond (localResponse msg respData)] rfl rfl rfl rfl rfl rfl
    exact hresponding.trans (sendResponse_dispatches ..)
  | none =>
    rw [processIncoming_forward env hexecute, dispatchActions, hexecute]
    have hreceived : Dispatches d [.incoming msg] (d.received msg) :=
      .of_log [.incoming msg] rfl rfl rfl rfl rfl rfl
    exact hreceived.trans (forwardToIpmid_dispatches ..)

def arrived (d : Daemon) (bus : Bus) (serial : Nat) (reply : Reply) : Daemon :=
  { d with
    bus := some { bus with replied := bus.replied ++ [serial] }
    trace := d.trace ++ [.reply serial reply] }

def firstAnswer (c : Callback) : Reply → Option Message
  | .methodError => some c.methodErrorResponse
  | .unreadable => none
  | .response netFn lun cmd cc data => some (c.replyResponse netFn lun cmd cc data)

theorem replyCallback_cases (env : Env) (serial : Nat) (c : Callback) (reply : Reply) (d : Daemon) :
    (∃ resp d', firstAnswer c reply = some resp ∧ sendAnswer env serial resp d = .ok d' ∧
      replyCallback env serial c reply d = .ok d') ∨
    (∃ resp e d', firstAnswer c reply = some resp ∧ sendAnswer env serial resp d = .thrown e d' ∧
      replyCallback env serial c reply d = sendAnswer env serial c.exceptionResponse d') ∨
    (firstAnswer c reply = none ∧
      replyCallback env serial c reply d = sendAnswer env serial c.exceptionResponse d) := by
  have hsome : ∀ resp, tryAnswer env serial c reply d = sendAnswer env serial resp d →
      (∃ d', sendAnswer env serial resp d = .ok d' ∧
        replyCallback env serial c reply d = .ok d') ∨
      ∃ e d', sendAnswer env serial resp d = .thrown e d' ∧
        replyCallback env serial c reply d = sendAnswer env serial c.exceptionResponse d' := by
    intro resp htry
    unfold replyCallback
    rw [htry]
    cases sendAnswer env serial resp d with
    | ok d' => exact Or.inl ⟨d', rfl, rfl⟩
    | thrown e d' => exact Or.inr ⟨e, d', rfl, rfl⟩
  cases reply with
  | methodError =>
    rcases hsome c.methodErrorResponse rfl with ⟨d', hsend, hcallback⟩ | ⟨e, d', hsend, hcallback⟩
    · exact Or.inl ⟨_, d', rfl, hsend, hcallback⟩
    · exact Or.inr (Or.inl ⟨_, e, d', rfl, hsend, hcallback⟩)
  | unreadable => exact Or.inr (Or.inr ⟨rfl, rfl⟩)
  | response netFn lun cmd cc data =>
    rcases hsome (c.replyResponse netFn lun cmd cc data) rfl with
      ⟨d', hsend, hcallback⟩ | ⟨e, d', hsend, hcallback⟩
    · exact Or.inl ⟨_, d', rfl, hsend, hcallback⟩
    · exact Or.inr (Or.inl ⟨_, e, d', rfl, hsend, hcallback⟩)

theorem deliver_cases (env : Env) (serial : Nat) (reply : Reply) (d : Daemon) :
    ((∀ bus, d.bus = some bus → ¬ bus.Outstanding serial) ∧ deliver env serial reply d = .ok d) ∨
    ∃ bus, d.bus = some bus ∧ bus.Outstanding serial ∧
      ((d.handler.asyncSlot ≠ some serial ∧
        deliver env serial reply d = .ok (d.arrived bus serial reply)) ∨
       ∃ call, d.handler.asyncSlot = some serial ∧ bus.calls[serial]? = some call ∧
        deliver env serial reply d =
          replyCallback env serial call.callback reply (d.arrived bus serial reply)) := by
  cases hbus : d.bus with
  | none => exact Or.inl ⟨by simp, by rw [deliver, hbus]⟩
  | some bus =>
    by_cases houtstanding : bus.Outstanding serial
    · refine Or.inr ⟨bus, rfl, houtstanding, ?_⟩
      by_cases hslot : d.handler.asyncSlot = some serial
      · right
        have hcall := List.getElem?_eq_getElem houtstanding.1
        exact ⟨_, hslot, hcall, by simp [deliver, hbus, houtstanding, hslot, log, hcall, arrived]⟩
      · exact Or.inl ⟨hslot, by simp [deliver, hbus, houtstanding, hslot, log, arrived]⟩
    · left
      refine ⟨fun bus' h => ?_, by simp [deliver, hbus, houtstanding]⟩
      rw [← Option.some.inj h]
      exact houtstanding

theorem replyCallback_keeps (R : Daemon → Daemon → Prop) {env : Env} {serial : Nat}
    (htrans : ∀ {d d' d''}, R d d' → R d' d'' → R d d'')
    (hanswer : ∀ resp d, R d (sendAnswer env serial resp d).state) (c : Callback) (reply : Reply)
    (d : Daemon) : R d (replyCallback env serial c reply d).state := by
  rcases replyCallback_cases env serial c reply d with
    ⟨resp, d', -, hsend, h⟩ | ⟨resp, e, d', -, hsend, h⟩ | ⟨-, h⟩
  · have hfirst := hanswer resp d
    rw [hsend] at hfirst
    rw [h]
    exact hfirst
  · have hfirst := hanswer resp d
    rw [hsend] at hfirst
    rw [h]
    exact htrans hfirst (hanswer _ d')
  · rw [h]
    apply hanswer

theorem deliver_keeps (R : Daemon → Daemon → Prop) {env : Env} {serial : Nat} {reply : Reply}
    {d : Daemon} (hrefl : R d d) (htrans : ∀ {d d' d''}, R d d' → R d' d'' → R d d'')
    (harrived : ∀ bus, R d (d.arrived bus serial reply))
    (hanswer : ∀ resp d, R d (sendAnswer env serial resp d).state) :
    R d (deliver env serial reply d).state := by
  rcases deliver_cases env serial reply d with
    ⟨-, h⟩ | ⟨bus, -, -, ⟨-, h⟩ | ⟨call, -, -, h⟩⟩
  · rw [h]
    exact hrefl
  · rw [h]
    exact harrived bus
  · rw [h]
    apply htrans (harrived bus)
    exact replyCallback_keeps R htrans hanswer ..

theorem sendAnswer_dispatches (env : Env) (serial : Nat) (resp : Message) (d : Daemon) :
    Dispatches d [] (sendAnswer env serial resp d).state := by
  have hanswer : Dispatches d [] (d.log (.answer serial resp)) :=
    .of_log [.answer serial resp] rfl rfl rfl rfl rfl rfl
  exact hanswer.trans (sendResponse_dispatches ..)

theorem deliver_dispatches (env : Env) (serial : Nat) (reply : Reply) (d : Daemon) :
    Dispatches d [] (deliver env serial reply d).state := by
  apply deliver_keeps (fun d d' => Dispatches d [] d') (.refl d)
  · intro d d' d'' h h'
    exact h.trans h'
  · intro bus
    exact .of_log [.reply serial reply] rfl rfl rfl rfl rfl rfl
  · exact sendAnswer_dispatches env serial

def withInput (d : Daemon) (parser : IParser) (rxBuffer : List UInt8) : Daemon :=
  { d with handler.parser := parser, handler.rxBuffer := rxBuffer }

@[simp] theorem withInput_table (d : Daemon) (parser : IParser) (rxBuffer : List UInt8) :
    (d.withInput parser rxBuffer).table = d.table := rfl

@[simp] theorem withInput_trace (d : Daemon) (parser : IParser) (rxBuffer : List UInt8) :
    (d.withInput parser rxBuffer).trace = d.trace := rfl

/-- The daemon after the bytes `seen`, started as `d₀`. A byte that a throwing call left
in `rxBuffer` is one that the parser ignores where it stands. -/
structure Settled (mode : ProtocolMode) (d₀ : Daemon) (seen : List UInt8) (d : Daemon) : Prop where
  table : d.table = d₀.table
  channel : d.handler.channel = d₀.handler.channel
  channelName : d.handler.channelName = d₀.handler.channelName
  parser : d.handler.parser.Ready mode (streamPosition mode seen)
  rxBuffer : d.handler.rxBuffer = [] ∨ ∃ ch, d.handler.rxBuffer = [ch] ∧
    streamPosition mode seen = .between mode ∧
    (Position.between mode).step ch = (.between mode, [])
  trace : d.trace.filter Action.isDispatch =
    (streamMessages mode seen).flatMap (dispatchActions d₀.table)

theorem settled_fresh (mode : ProtocolMode) (channel : Option Channel) (channelName : String)
    (bus : Option Bus) (table : Table) :
    Settled mode { start mode channel channelName bus with table } []
      { start mode channel channelName bus with table } := by
  refine ⟨rfl, rfl, rfl, IParser.ready_createParser mode, Or.inl rfl, ?_⟩
  rw [streamMessages_nil]
  rfl

theorem settled_start (mode : ProtocolMode) (channel : Option Channel) (channelName : String)
    (bus : Option Bus) :
    Settled mode (start mode channel channelName bus) [] (start mode channel channelName bus) :=
  settled_fresh mode channel channelName bus sessionTable

section

variable {mode : ProtocolMode} {d₀ d : Daemon} {seen : List UInt8}

theorem Settled.run_rxBuffer (h : Settled mode d₀ seen d) (ch : UInt8) :
    run Position.step d.handler.parser.position (d.handler.rxBuffer ++ [ch]) =
      (streamPosition mode seen).step ch := by
  rw [h.parser.position]
  rcases h.rxBuffer with hempty | ⟨stale, hstale, hposition, hstep⟩
  · rw [hempty, List.nil_append, run_cons, run_nil, List.append_nil]
  · rw [hstale, run_append, run_cons, run_nil, run_cons, run_nil, hposition, hstep]
    simp

/-- One byte completes no message, or one that is dispatched by this call. In the second
case no byte was left over, and the byte is one that the parser would now ignore. -/
theorem Settled.processByte_cases (h : Settled mode d₀ seen d) (env : Env) (ch : UInt8) :
    (∃ parser : IParser, parser.Ready mode (streamPosition mode (seen ++ [ch])) ∧
      ((streamPosition mode seen).step ch).2 = [] ∧
      processByte env ch d = .ok (d.withInput parser [])) ∨
    ∃ (parser : IParser) (payload : List UInt8),
      parser.Ready mode (streamPosition mode (seen ++ [ch])) ∧
      ((streamPosition mode seen).step ch).2 = [payload] ∧
      streamPosition mode (seen ++ [ch]) = .between mode ∧
      (Position.between mode).step ch = (.between mode, []) ∧
      processByte env ch d = (processIncoming env (parsePayload mode payload)
        (d.withInput parser [ch])).andThen fun d => .ok (d.withInput d.handler.parser []) := by
  have hrun := h.run_rxBuffer ch
  have hmode := h.parser.mode
  set fed := d.handler.parser.feedData (d.handler.rxBuffer ++ [ch]) with hfed
  have hposition : fed.position = streamPosition mode (seen ++ [ch]) := by
    rw [hfed, IParser.position_feedData h.parser.valid, hrun, streamPosition_append]
  have hpayloads : fed.payloads = ((streamPosition mode seen).step ch).2 := by
    rw [hfed, IParser.payloads_feedData h.parser.valid, hrun, h.parser.payloads, List.nil_append]
  have hvalid : fed.Valid := IParser.valid_feedData h.parser.valid _
  have hfedMode : fed.mode = mode := by rw [hfed, IParser.mode_feedData, hmode]
  have hpositionMode : (streamPosition mode seen).mode = mode := by
    rw [← h.parser.position, IParser.position_mode, hmode]
  rcases step_cases (streamPosition mode seen) ch with hnone | ⟨payload, hinside, hstep, hignored⟩
  · left
    rw [hnone] at hpayloads
    refine ⟨fed, ⟨hvalid, hfedMode, hposition, hpayloads⟩, hnone, ?_⟩
    simp [processByte, tryParseMessages, ← hfed, IParser.pending_eq, hpayloads, processMessages,
      withInput]
  · right
    rw [hpositionMode] at hinside hstep hignored
    rw [hstep] at hpayloads
    obtain ⟨hmsg, hrest, hkept⟩ := IParser.getNextMessage_cons hpayloads
    have hrxBuffer : d.handler.rxBuffer = [] :=
      h.rxBuffer.resolve_right fun ⟨_, _, hbetween, _⟩ => hinside hbetween
    have hbetween : streamPosition mode (seen ++ [ch]) = .between mode := by
      rw [streamPosition_append, hstep]
    refine ⟨fed.getNextMessage.2, payload, ⟨IParser.valid_getNextMessage hvalid,
      by rw [IParser.mode_getNextMessage, hfedMode], hkept.trans hposition, hrest⟩,
      by rw [hstep], hbetween, hignored, ?_⟩
    rw [hrxBuffer, List.nil_append] at hfed
    simp [processByte, tryParseMessages, hrxBuffer, ← hfed, IParser.pending_eq, hpayloads,
      processMessages, IParser.hasCompleteMessage_eq, hmsg, hfedMode, withInput]

theorem Settled.processByte (h : Settled mode d₀ seen d) (env : Env) (ch : UInt8) :
    Settled mode d₀ (seen ++ [ch]) (processByte env ch d).state := by
  rcases h.processByte_cases env ch with
    ⟨parser, hready, hnone, hbyte⟩ | ⟨parser, payload, hready, hstep, hposition, hignored, hbyte⟩
  · rw [hbyte]
    refine ⟨h.table, h.channel, h.channelName, hready, Or.inl rfl, ?_⟩
    rw [streamMessages_append, hnone, List.map_nil, List.append_nil]
    exact h.trace
  · have hincoming := processIncoming_dispatches env (parsePayload mode payload)
      (d.withInput parser [ch])
    have htrace := hincoming.trace
    have htable := hincoming.table.trans h.table
    have hchannel := hincoming.channel.trans h.channel
    have hchannelName := hincoming.channelName.trans h.channelName
    have hparser := hincoming.parser
    have hrxBuffer := hincoming.rxBuffer
    rw [withInput_table, withInput_trace, h.trace, h.table] at htrace
    have hseen : (streamMessages mode (seen ++ [ch])).flatMap (dispatchActions d₀.table) =
        (streamMessages mode seen).flatMap (dispatchActions d₀.table) ++
          dispatchActions d₀.table (parsePayload mode payload) := by
      rw [streamMessages_append, hstep, List.flatMap_append]
      simp
    rw [hbyte]
    cases hresult : processIncoming env (parsePayload mode payload) (d.withInput parser [ch]) with
    | ok d' =>
      rw [hresult] at htrace htable hchannel hchannelName hparser
      exact ⟨htable, hchannel, hchannelName, hparser ▸ hready, Or.inl rfl,
        htrace.trans hseen.symm⟩
    | thrown e d' =>
      rw [hresult] at htrace htable hchannel hchannelName hparser hrxBuffer
      exact ⟨htable, hchannel, hchannelName, hparser ▸ hready,
        Or.inr ⟨ch, hrxBuffer, hposition, hignored⟩, htrace.trans hseen.symm⟩

theorem Settled.deliver (h : Settled mode d₀ seen d) (env : Env) (serial : Nat) (reply : Reply) :
    Settled mode d₀ seen (deliver env serial reply d).state := by
  have hdeliver := deliver_dispatches env serial reply d
  refine ⟨hdeliver.table.trans h.table, hdeliver.channel.trans h.channel,
    hdeliver.channelName.trans h.channelName, ?_, ?_, ?_⟩
  · rw [hdeliver.parser]
    exact h.parser
  · rw [hdeliver.rxBuffer]
    exact h.rxBuffer
  · rw [hdeliver.trace, List.append_nil]
    exact h.trace

end

end Daemon
end SerialIpmi
