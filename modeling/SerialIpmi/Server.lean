import SerialIpmi.Library.Refinement
import SerialIpmi.EventLoop

/-! The daemon as a server of messages. What it does beyond parsing follows from the decoded
messages and the replies, in the order in which they come. -/
namespace SerialIpmi

open Decoding

inductive ServerEvent where
  | request (msg : Message)
  | reply (serial : Nat) (reply : Reply)
  | busError

namespace Daemon

def serve (env : Env) : ServerEvent → Daemon → Outcome Failure Daemon
  | .request msg, d => processIncoming env msg d
  | .reply serial reply, d => deliver env serial reply d
  | .busError, d => .thrown .process d

/-- The messages that the bytes complete, between the replies. -/
def decodeEvents (mode : ProtocolMode) : Core Position Event ServerEvent
  | position, .byte ch =>
      let next := position.step ch
      (next.1, next.2.map fun payload => .request (parsePayload mode payload))
  | position, .reply serial reply => (position, [.reply serial reply])
  | position, .busError => (position, [.busError])

def forgetInput (mode : ProtocolMode) (d : Daemon) : Daemon :=
  d.withInput (createParser mode) []

variable {env : Env} {mode : ProtocolMode} {d₀ d : Daemon} {seen : List UInt8}

theorem sendResponse_withInput {parser : IParser} (hmode : parser.mode = d.handler.parser.mode)
    (env : Env) (rxBuffer : List UInt8) (resp : Message) :
    sendResponse env resp (d.withInput parser rxBuffer) =
      (sendResponse env resp d).map fun d => d.withInput parser rxBuffer := by
  have hencode : parser.encodeResponse (responsePayload resp) =
      d.handler.parser.encodeResponse (responsePayload resp) := by
    revert hmode
    cases parser <;> cases d.handler.parser <;> intro hmode <;> first | rfl | cases hmode
  obtain ⟨table, ⟨channel, parser', _, _, _, _, _⟩, device, bus, framesSent, trace⟩ := d
  unfold sendResponse withInput log
  dsimp only at hencode ⊢
  rw [hencode]
  split_ifs
  · cases channel with
    | none => rfl
    | some channel =>
      dsimp only
      rcases channel.write env (parser'.encodeResponse (responsePayload resp)) device with
        ⟨e | written, device'⟩ <;> rfl
  · rfl

theorem forwardToIpmid_withInput (env : Env) (parser : IParser) (rxBuffer : List UInt8)
    (netFn lun cmd : UInt8) (data : List UInt8) (sessionId : UInt32) (d : Daemon) :
    forwardToIpmid env netFn lun cmd data sessionId (d.withInput parser rxBuffer) =
      (forwardToIpmid env netFn lun cmd data sessionId d).map fun d =>
        d.withInput parser rxBuffer := by
  obtain ⟨table, handler, device, bus, framesSent, trace⟩ := d
  unfold forwardToIpmid withInput log
  dsimp only
  cases bus with
  | none => rfl
  | some bus =>
    dsimp only
    rcases bus.callAsync env _ with ⟨e | slot, bus'⟩ <;> rfl

theorem processIncoming_withInput {parser : IParser} (hmode : parser.mode = d.handler.parser.mode)
    (env : Env) (rxBuffer : List UInt8) (msg : Message) :
    processIncoming env msg (d.withInput parser rxBuffer) =
      (processIncoming env msg d).map fun d => d.withInput parser rxBuffer := by
  cases hexecute : d.table.executeCommand ⟨msg.netFn, msg.cmd⟩ msg.data with
  | some respData =>
    have hexecute' : (d.withInput parser rxBuffer).table.executeCommand ⟨msg.netFn, msg.cmd⟩
      msg.data = some respData := hexecute
    rw [processIncoming_local env hexecute, processIncoming_local env hexecute']
    exact sendResponse_withInput (d := d.responding msg respData) hmode env rxBuffer _
  | none =>
    have hexecute' : (d.withInput parser rxBuffer).table.executeCommand ⟨msg.netFn, msg.cmd⟩
      msg.data = none := hexecute
    rw [processIncoming_forward env hexecute, processIncoming_forward env hexecute']
    exact forwardToIpmid_withInput env parser rxBuffer _ _ _ _ _ (d.received msg)

theorem sendAnswer_withInput {parser : IParser} (hmode : parser.mode = d.handler.parser.mode)
    (env : Env) (rxBuffer : List UInt8) (serial : Nat) (resp : Message) :
    sendAnswer env serial resp (d.withInput parser rxBuffer) =
      (sendAnswer env serial resp d).map fun d => d.withInput parser rxBuffer :=
  sendResponse_withInput (d := d.log (.answer serial resp)) hmode env rxBuffer resp

theorem sendAnswer_mode (env : Env) (serial : Nat) (resp : Message) (d : Daemon) :
    (sendAnswer env serial resp d).state.handler.parser.mode = d.handler.parser.mode :=
  congrArg IParser.mode (sendAnswer_dispatches env serial resp d).parser

theorem tryAnswer_withInput {parser : IParser} (hmode : parser.mode = d.handler.parser.mode)
    (env : Env) (rxBuffer : List UInt8) (serial : Nat) (c : Callback) (reply : Reply) :
    tryAnswer env serial c reply (d.withInput parser rxBuffer) =
      (tryAnswer env serial c reply d).map fun d => d.withInput parser rxBuffer := by
  cases reply with
  | methodError => exact sendAnswer_withInput hmode env rxBuffer serial c.methodErrorResponse
  | unreadable => rfl
  | response netFn lun cmd cc data =>
    exact sendAnswer_withInput hmode env rxBuffer serial (c.replyResponse netFn lun cmd cc data)

theorem tryAnswer_mode (env : Env) (serial : Nat) (c : Callback) (reply : Reply) (d : Daemon) :
    (tryAnswer env serial c reply d).state.handler.parser.mode = d.handler.parser.mode := by
  cases reply with
  | methodError => exact sendAnswer_mode env serial c.methodErrorResponse d
  | unreadable => rfl
  | response netFn lun cmd cc data =>
    exact sendAnswer_mode env serial (c.replyResponse netFn lun cmd cc data) d

theorem replyCallback_withInput {parser : IParser} (hmode : parser.mode = d.handler.parser.mode)
    (env : Env) (rxBuffer : List UInt8) (serial : Nat) (c : Callback) (reply : Reply) :
    replyCallback env serial c reply (d.withInput parser rxBuffer) =
      (replyCallback env serial c reply d).map fun d => d.withInput parser rxBuffer := by
  have hmode' := tryAnswer_mode env serial c reply d
  unfold replyCallback
  rw [tryAnswer_withInput hmode]
  cases htry : tryAnswer env serial c reply d with
  | ok d' => rfl
  | thrown e d' =>
    rw [htry] at hmode'
    exact sendAnswer_withInput (hmode.trans hmode'.symm) env rxBuffer serial c.exceptionResponse

theorem deliver_withInput {parser : IParser} (hmode : parser.mode = d.handler.parser.mode)
    (env : Env) (rxBuffer : List UInt8) (serial : Nat) (reply : Reply) :
    deliver env serial reply (d.withInput parser rxBuffer) =
      (deliver env serial reply d).map fun d => d.withInput parser rxBuffer := by
  have hsame : (d.withInput parser rxBuffer).bus = d.bus := rfl
  unfold deliver
  rw [hsame]
  cases hbus : d.bus with
  | none => rfl
  | some bus =>
    dsimp only
    split_ifs with houtstanding hslot hslot' hslot'
    · cases bus.calls[serial]? with
      | none => rfl
      | some call =>
        exact replyCallback_withInput (d := d.arrived bus serial reply) hmode env rxBuffer serial
          call.callback reply
    · exact absurd hslot hslot'
    · exact absurd hslot' hslot
    · rfl
    · rfl

def Stands (mode : ProtocolMode) (d₀ : Daemon) (position : Position) (d : Daemon) : Prop :=
  ∃ seen, Settled mode d₀ seen d ∧ position = streamPosition mode seen

theorem stands_fresh (mode : ProtocolMode) (channel : Option Channel) (channelName : String)
    (bus : Option Bus) (table : Table) :
    Stands mode { start mode channel channelName bus with table } (.between mode)
      { start mode channel channelName bus with table } :=
  ⟨[], settled_fresh mode channel channelName bus table, rfl⟩

theorem each_singleton (call : ServerEvent → Daemon → Outcome Failure Daemon) (event : ServerEvent)
    (d : Daemon) : Outcome.each call [event] d = call event d := by
  rw [Outcome.each_cons]
  cases call event d <;> rfl

theorem handle_simulates (env : Env) (mode : ProtocolMode) (d₀ : Daemon) :
    Refinement.Simulates (Daemon.handle env) (serve env) (decodeEvents mode) (forgetInput mode)
      (Stands mode d₀) where
  one := by
    intro position event
    cases event with
    | reply serial reply => exact Nat.le_refl 1
    | busError => exact Nat.le_refl 1
    | byte ch =>
      change (List.map _ (position.step ch).2).length ≤ 1
      rw [List.length_map]
      rcases step_cases position ch with hnone | ⟨payload, -, hstep, -⟩
      · rw [hnone]
        exact Nat.zero_le 1
      · rw [hstep]
        exact Nat.le_refl 1
  keeps := by
    rintro position d event ⟨seen, hsettled, rfl⟩
    refine ⟨seen ++ event.input, hsettled.handle env event, ?_⟩
    cases event with
    | reply serial reply =>
      rw [Event.append_input_reply]
      rfl
    | busError =>
      rw [Event.append_input_busError]
      rfl
    | byte ch => exact (streamPosition_append mode seen ch).symm
  acts := by
    rintro position d event ⟨seen, hsettled, rfl⟩
    have hmode : (createParser mode).mode = d.handler.parser.mode := by
      rw [hsettled.parser.mode, (IParser.ready_createParser mode).mode]
    cases event with
    | reply serial reply =>
      change (deliver env serial reply d).map (forgetInput mode) =
        Outcome.each (serve env) [.reply serial reply] (d.forgetInput mode)
      rw [each_singleton]
      exact (deliver_withInput hmode env [] serial reply).symm
    | busError => rfl
    | byte ch =>
      change (processByte env ch d).map (forgetInput mode) =
        Outcome.each (serve env) (((streamPosition mode seen).step ch).2.map
          fun payload => .request (parsePayload mode payload)) (d.forgetInput mode)
      rcases hsettled.processByte_cases env ch with
        ⟨parser, -, hnone, hbyte⟩ | ⟨parser, payload, hready, hstep, -, -, hbyte⟩
      · rw [hbyte, hnone]
        rfl
      · have hparser : parser.mode = d.handler.parser.mode := by
          rw [hsettled.parser.mode, hready.mode]
        rw [hbyte, hstep, List.map_cons, List.map_nil, each_singleton, serve, forgetInput,
          processIncoming_withInput hmode, processIncoming_withInput hparser]
        cases processIncoming env (parsePayload mode payload) d <;> rfl

/-- The daemon refines a server of messages, over any bytes and replies in any order: apart from
the input buffers, the event loop leaves it as the server is after the messages of the byte
stream and the replies between them, and ends by the same exception; and so does a caller that
catches every exception and goes on. -/
theorem refines_server (env : Env) (mode : ProtocolMode) (channel : Option Channel)
    (channelName : String) (bus : Option Bus) (table : Table) (events : List Event) :
    let d₀ := { start mode channel channelName bus with table }
    let served := (Decoding.run (decodeEvents mode) (.between mode) events).2
    (Outcome.each (Daemon.handle env) events d₀).map (forgetInput mode) =
        Outcome.each (serve env) served d₀ ∧
      (Outcome.eachCaught (Daemon.handle env) events d₀).forgetInput mode =
        Outcome.eachCaught (serve env) served d₀ := by
  intro d₀ served
  have hsimulates := handle_simulates env mode d₀
  have hstands := stands_fresh mode channel channelName bus table
  exact ⟨hsimulates.each hstands events, hsimulates.eachCaught hstands events⟩

end Daemon

end SerialIpmi
