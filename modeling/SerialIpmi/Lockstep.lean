import SerialIpmi.Line
import SerialIpmi.Replies
import SerialIpmi.Server

/-! A client that waits for the answer to each request before it sends the next one, on a line
and a bus that do not fail. -/
namespace SerialIpmi

open Decoding

def Carries : ProtocolMode → List UInt8 → Prop
  | .terminal, payload => Terminal.Fits payload
  | .basic, payload => Basic.validateChecksum payload = true

instance : (mode : ProtocolMode) → (payload : List UInt8) → Decidable (Carries mode payload)
  | .terminal, payload => inferInstanceAs (Decidable (Terminal.Fits payload))
  | .basic, payload => inferInstanceAs (Decidable (Basic.validateChecksum payload = true))

theorem Carries.run {mode : ProtocolMode} {payload : List UInt8} (h : Carries mode payload) :
    Decoding.run Position.step (.between mode) ((createParser mode).encodeResponse payload) =
      (.between mode, [payload]) := by
  cases mode with
  | terminal =>
    have hfits : 1 ≤ payload.length ∧ payload.length ≤ 80 := h
    have hencode : (createParser .terminal).encodeResponse payload =
        ({} : Terminal.Parser).encodeResponse payload := rfl
    obtain ⟨frame, hrun, hpayload, -⟩ := Terminal.frames_encodeResponse {} payload
    rw [if_pos hfits] at hpayload
    rw [hencode, Position.between, run_terminal, hrun]
    simp [hpayload]
  | basic =>
    have hvalid : Basic.validateChecksum payload = true := h
    have hencode : (createParser .basic).encodeResponse payload =
        Basic.basicCode.encode payload := Basic.encodeResponse_eq {} payload
    have hrun := Basic.basicCode.run_encode payload []
    rw [List.append_nil, run_nil] at hrun
    rw [hencode, Position.between, run_basic, hrun]
    simp [Basic.keep, hvalid]

/-- Bytes that are one message for a parser between two frames, and what the bus replies in case
the message is forwarded. -/
structure Exchange (mode : ProtocolMode) where
  bytes : List UInt8
  payload : List UInt8
  reply : Reply
  reads : run Position.step (.between mode) bytes = (.between mode, [payload])

namespace Exchange

variable {mode : ProtocolMode}

def ofPayload (payload : List UInt8) (h : Carries mode payload) (reply : Reply) :
    Exchange mode where
  bytes := (createParser mode).encodeResponse payload
  payload := payload
  reply := reply
  reads := h.run

def request (e : Exchange mode) : Message := parsePayload mode e.payload

def isLocal (table : Table) (e : Exchange mode) : Bool :=
  (table.executeCommand ⟨e.request.netFn, e.request.cmd⟩ e.request.data).isSome

/-- The one message that the client should get. -/
def answer (table : Table) (e : Exchange mode) : Message :=
  match table.executeCommand ⟨e.request.netFn, e.request.cmd⟩ e.request.data with
  | some respData => Daemon.localResponse e.request respData
  | none => (expectedAnswer e.request e.reply).getD (errorAnswer e.request 0xFF)

/-- What reaches the daemon in the exchange when `calls` calls have been made before. -/
def events (table : Table) (calls : Nat) (e : Exchange mode) : List Event :=
  e.bytes.map .byte ++ if e.isLocal table then [] else [.reply calls e.reply]

def allEvents (table : Table) : Nat → List (Exchange mode) → List Event
  | _, [] => []
  | calls, e :: exchanges =>
      e.events table calls ++
        allEvents table (if e.isLocal table then calls else calls + 1) exchanges

def served (table : Table) (calls : Nat) (e : Exchange mode) : List ServerEvent :=
  .request e.request :: if e.isLocal table then [] else [.reply calls e.reply]

def allServed (table : Table) : Nat → List (Exchange mode) → List ServerEvent
  | _, [] => []
  | calls, e :: exchanges =>
      e.served table calls ++
        allServed table (if e.isLocal table then calls else calls + 1) exchanges

theorem decode_bytes (position : Position) (bytes : List UInt8) :
    run (Daemon.decodeEvents mode) position (bytes.map .byte) =
      ((run Position.step position bytes).1, (run Position.step position bytes).2.map fun payload =>
        .request (parsePayload mode payload)) := by
  induction bytes generalizing position with
  | nil => rfl
  | cons ch bytes ih =>
    rw [List.map_cons, run_cons, run_cons, List.map_append]
    unfold Daemon.decodeEvents at ih ⊢
    rw [ih]

theorem decode_events (table : Table) (calls : Nat) (e : Exchange mode) :
    run (Daemon.decodeEvents mode) (.between mode) (e.events table calls) =
      (.between mode, e.served table calls) := by
  unfold events served
  rw [run_append, decode_bytes, e.reads]
  split
  · rfl
  · rfl

theorem decode_allEvents (table : Table) (calls : Nat) (exchanges : List (Exchange mode)) :
    run (Daemon.decodeEvents mode) (.between mode) (allEvents table calls exchanges) =
      (.between mode, allServed table calls exchanges) := by
  induction exchanges generalizing calls with
  | nil => rfl
  | cons e exchanges ih =>
    unfold allEvents allServed
    rw [run_append, e.decode_events, ih]

end Exchange

structure Env.HealthyFrom (env : Env) (writes attempts : Nat) : Prop where
  write : ∀ count bytes, writes ≤ count → env.write count bytes = some (Fin.last bytes.length)
  callAsync : ∀ count, attempts ≤ count → env.callAsync count = true

theorem Env.HealthyFrom.mono {env : Env} {writes writes' attempts attempts' : Nat}
    (h : env.HealthyFrom writes attempts) (hwrites : writes ≤ writes')
    (hattempts : attempts ≤ attempts') : env.HealthyFrom writes' attempts' where
  write := fun count bytes hcount => h.write count bytes (hwrites.trans hcount)
  callAsync := fun count hcount => h.callAsync count (hattempts.trans hcount)

namespace Daemon

variable {env : Env} {mode : ProtocolMode} {table : Table} {d : Daemon}

/-- The channel is open, no reply has come before its call, and neither the port nor the bus fails
any more. -/
structure Idle (env : Env) (table : Table) (calls : Nat) (d : Daemon) : Prop where
  table : d.table = table
  channel : ∃ channel, d.handler.channel = some channel ∧ 0 ≤ channel.fd
  bus : ∃ bus, d.bus = some bus ∧ bus.calls.length = calls ∧
    (∀ serial ∈ bus.replied, serial < calls) ∧ env.HealthyFrom d.device.writes bus.attempts

theorem sendResponse_healthy {writes attempts : Nat} (henv : env.HealthyFrom writes attempts)
    (hwrites : writes ≤ d.device.writes) {channel : Channel}
    (hchannel : d.handler.channel = some channel) (hopen : 0 ≤ channel.fd) (resp : Message) :
    ∃ d', sendResponse env resp d = .ok d' ∧ d'.table = d.table ∧ d'.handler = d.handler ∧
      d'.bus = d.bus ∧ d.device.writes ≤ d'.device.writes ∧ d'.sent = d.sent := by
  have hsend := sendResponse_open hchannel hopen env resp
  unfold Env.accepts at hsend
  rw [henv.write _ _ hwrites] at hsend
  refine ⟨_, hsend, rfl, rfl, rfl, Nat.le_succ _, ?_⟩
  rw [sent, log, List.filterMap_append]
  exact List.append_nil _

theorem processIncoming_healthy_local {calls : Nat} (h : Idle env table calls d)
    {msg : Message} {respData : List UInt8}
    (hexecute : table.executeCommand ⟨msg.netFn, msg.cmd⟩ msg.data = some respData) :
    ∃ d', processIncoming env msg d = .ok d' ∧ Idle env table calls d' ∧
      d'.sent = d.sent ++ [localResponse msg respData] := by
  obtain ⟨channel, hchannel, hopen⟩ := h.channel
  obtain ⟨bus, hbus, hcalls, hreplied, henv⟩ := h.bus
  obtain ⟨d', hsend, htable, hhandler, hbus', hwrites, hsent⟩ := sendResponse_healthy henv
    (d := d.responding msg respData) (Nat.le_refl _) hchannel hopen (localResponse msg respData)
  refine ⟨d', ?_, ⟨htable.trans h.table, ⟨channel, ?_, hopen⟩, bus, hbus'.trans hbus, hcalls,
    hreplied, henv.mono hwrites (Nat.le_refl _)⟩, ?_⟩
  · rw [processIncoming_local env (h.table ▸ hexecute)]
    exact hsend
  · rw [hhandler]
    exact hchannel
  · rw [hsent, sent_of_log (d := d) [.incoming msg, .respond (localResponse msg respData)] rfl]
    rfl

theorem processIncoming_healthy_forward {bus : Bus} (hbus : d.bus = some bus)
    (henv : env.callAsync bus.attempts = true) {msg : Message}
    (hexecute : d.table.executeCommand ⟨msg.netFn, msg.cmd⟩ msg.data = none) :
    ∃ d' call, processIncoming env msg d = .ok d' ∧ call.callback = callbackOf msg ∧
      d'.table = d.table ∧
      d'.bus = some { bus with attempts := bus.attempts + 1, calls := bus.calls ++ [call] } ∧
      d'.handler.asyncSlot = some bus.calls.length ∧
      d'.handler.channel = d.handler.channel ∧ d'.device = d.device ∧ d'.sent = d.sent := by
  rw [processIncoming_forward env hexecute]
  rcases forwardToIpmid_cases env msg.netFn msg.lun msg.cmd msg.data msg.sessionId
    (d.received msg) with ⟨hnone, -⟩ | ⟨bus', hbus', ⟨hfails, -⟩ | ⟨-, hforward⟩⟩
  · rw [received, hbus] at hnone
    cases hnone
  · obtain rfl : bus = bus' := Option.some.inj (hbus.symm.trans hbus')
    rw [henv] at hfails
    cases hfails
  · obtain rfl : bus = bus' := Option.some.inj (hbus.symm.trans hbus')
    refine ⟨_, _, hforward, rfl, rfl, rfl, rfl, rfl, rfl, ?_⟩
    rw [sent_of_log (d := d) [.incoming msg,
      .forward msg.netFn msg.lun msg.cmd msg.data msg.sessionId, .called bus.calls.length]]
    · exact List.append_nil _
    · simp [log, received]

theorem sendAnswer_healthy {writes attempts : Nat} (henv : env.HealthyFrom writes attempts)
    (hwrites : writes ≤ d.device.writes) {channel : Channel}
    (hchannel : d.handler.channel = some channel) (hopen : 0 ≤ channel.fd) (serial : Nat)
    (resp : Message) :
    ∃ d', sendAnswer env serial resp d = .ok d' ∧ d'.table = d.table ∧ d'.handler = d.handler ∧
      d'.bus = d.bus ∧ d.device.writes ≤ d'.device.writes ∧ d'.sent = d.sent ++ [resp] := by
  obtain ⟨d', hsend, htable, hhandler, hbus, hmore, hsent⟩ := sendResponse_healthy henv
    (d := d.log (.answer serial resp)) hwrites hchannel hopen resp
  refine ⟨d', hsend, htable, hhandler, hbus, hmore, ?_⟩
  rw [hsent, sent_of_log (d := d) [.answer serial resp] rfl]
  rfl

theorem deliver_healthy {writes attempts : Nat} (henv : env.HealthyFrom writes attempts)
    (hwrites : writes ≤ d.device.writes) {bus : Bus} (hbus : d.bus = some bus)
    {channel : Channel} (hchannel : d.handler.channel = some channel) (hopen : 0 ≤ channel.fd)
    {serial : Nat} (houtstanding : bus.Outstanding serial)
    (hslot : d.handler.asyncSlot = some serial) {call : Call} {msg : Message}
    (hcall : bus.calls[serial]? = some call) (hcallback : call.callback = callbackOf msg)
    (reply : Reply) :
    ∃ d', deliver env serial reply d = .ok d' ∧ d'.table = d.table ∧ d'.handler = d.handler ∧
      d'.bus = some { bus with replied := bus.replied ++ [serial] } ∧
      d.device.writes ≤ d'.device.writes ∧
      d'.sent = d.sent ++ [(expectedAnswer msg reply).getD (errorAnswer msg 0xFF)] := by
  rcases deliver_cases env serial reply d with
    ⟨hnone, -⟩ | ⟨bus', hbus', -, ⟨hother, -⟩ | ⟨call', -, hcall', hdeliver⟩⟩
  · exact absurd houtstanding (hnone bus hbus)
  · exact absurd hslot hother
  obtain rfl : bus = bus' := Option.some.inj (hbus.symm.trans hbus')
  obtain rfl : call = call' := Option.some.inj (hcall.symm.trans hcall')
  have hanswer := sendAnswer_healthy henv (d := d.arrived bus serial reply) hwrites hchannel hopen
    serial
  have harrived : (d.arrived bus serial reply).sent = d.sent := by
    rw [sent_of_log (d := d) [.reply serial reply] rfl]
    exact List.append_nil _
  rw [hdeliver, hcallback]
  -- the first message goes out, so the callback does not send a second one
  rcases replyCallback_cases env serial (callbackOf msg) reply (d.arrived bus serial reply) with
    ⟨resp, d', hfirst, hsend, h⟩ | ⟨resp, e, d', hfirst, hsend, h⟩ | ⟨hfirst, h⟩
  · obtain ⟨d'', hok, htable, hhandler, hbus', hmore, hsent⟩ := hanswer resp
    obtain rfl : d'' = d' := Outcome.ok.inj (hok.symm.trans hsend)
    rw [firstAnswer_callbackOf] at hfirst
    refine ⟨d'', h, htable, hhandler, hbus', hmore, ?_⟩
    rw [hsent, harrived, hfirst]
    rfl
  · obtain ⟨d'', hok, -⟩ := hanswer resp
    rw [hok] at hsend
    cases hsend
  · obtain ⟨d', hok, htable, hhandler, hbus', hmore, hsent⟩ :=
      hanswer (callbackOf msg).exceptionResponse
    rw [firstAnswer_callbackOf] at hfirst
    refine ⟨d', h.trans hok, htable, hhandler, hbus', hmore, ?_⟩
    rw [hsent, harrived, hfirst]
    rfl

theorem Idle.exchange {calls : Nat} (h : Idle env table calls d) (e : Exchange mode) :
    ∃ d', Outcome.each (serve env) (e.served table calls) d = .ok d' ∧
      Idle env table (if e.isLocal table then calls else calls + 1) d' ∧
      d'.sent = d.sent ++ [e.answer table] := by
  unfold Exchange.served Exchange.isLocal Exchange.answer
  rw [Outcome.each_cons, serve]
  cases hexecute : table.executeCommand ⟨e.request.netFn, e.request.cmd⟩ e.request.data with
  | some respData =>
    obtain ⟨d', hincoming, hidle, hsent⟩ := processIncoming_healthy_local h hexecute
    refine ⟨d', ?_, hidle, hsent⟩
    rw [hincoming]
    rfl
  | none =>
    obtain ⟨channel, hchannel, hopen⟩ := h.channel
    obtain ⟨bus, hbus, hcalls, hreplied, henv⟩ := h.bus
    obtain ⟨d', call, hincoming, hcallback, htable, hbus', hslot, hchannel', hdevice, hsent⟩ :=
      processIncoming_healthy_forward hbus (henv.callAsync _ (Nat.le_refl _)) (h.table ▸ hexecute)
    have houtstanding : Bus.Outstanding { bus with
        attempts := bus.attempts + 1, calls := bus.calls ++ [call] } calls := by
      refine ⟨?_, fun hmem => Nat.lt_irrefl calls (hreplied calls hmem)⟩
      rw [List.length_append, hcalls]
      exact Nat.lt_succ_self calls
    have hlatest : (bus.calls ++ [call])[calls]? = some call := by
      rw [← hcalls, List.getElem?_concat_length]
    have hwrites : d.device.writes ≤ d'.device.writes := Nat.le_of_eq (by rw [hdevice])
    obtain ⟨d'', hdeliver, htable', hhandler, hbus'', hmore, hsent'⟩ := deliver_healthy henv
      hwrites hbus' (hchannel'.trans hchannel) hopen houtstanding
      (hslot.trans (congrArg some hcalls)) hlatest hcallback e.reply
    refine ⟨d'', ?_, ⟨?_, ⟨channel, ?_, hopen⟩, _, hbus'', ?_, ?_, ?_⟩, ?_⟩
    · rw [hincoming, Outcome.ok_andThen]
      change Outcome.each (serve env) [.reply calls e.reply] d' = _
      rw [each_singleton, serve, hdeliver]
    · rw [htable', htable, h.table]
    · rw [hhandler]
      exact hchannel'.trans hchannel
    · rw [List.length_append, hcalls]
      rfl
    · intro serial hserial
      rw [List.mem_append, List.mem_singleton] at hserial
      change serial < calls + 1
      rcases hserial with hold | rfl
      · exact Nat.lt_succ_of_lt (hreplied serial hold)
      · exact Nat.lt_succ_self serial
    · exact henv.mono (hwrites.trans hmore) (Nat.le_succ _)
    · rw [hsent', hsent]

theorem Idle.exchanges {calls : Nat} (h : Idle env table calls d)
    (exchanges : List (Exchange mode)) :
    ∃ d', Outcome.each (serve env) (Exchange.allServed table calls exchanges) d = .ok d' ∧
      d'.sent = d.sent ++ exchanges.map (Exchange.answer table) := by
  induction exchanges generalizing d calls with
  | nil => exact ⟨d, rfl, (List.append_nil _).symm⟩
  | cons e exchanges ih =>
    obtain ⟨d', heach, hidle, hsent⟩ := h.exchange e
    obtain ⟨d'', hrest, hsent'⟩ := ih hidle
    refine ⟨d'', ?_, ?_⟩
    · rw [Exchange.allServed, Outcome.each_append, heach, Outcome.ok_andThen, hrest]
    · rw [hsent', hsent, List.append_assoc]
      rfl

end Daemon

end SerialIpmi
