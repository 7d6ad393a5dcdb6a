import SerialIpmi.Library.Related
import SerialIpmi.Lockstep

/-! Two daemons side by side, whose clients make the same requests, each in its own mode, with its
own addresses and its own sequence numbers. Neither of these reaches what is done about a request. -/
namespace SerialIpmi

open Decoding Outcome

variable {S : UInt8 → UInt8 → Prop} {mode mode' : ProtocolMode}

/-- The messages say the same. Of the rest, the sequence numbers stand in the relation `S`; modes,
addresses and raw frames may differ. -/
structure Message.Agrees (S : UInt8 → UInt8 → Prop) (msg msg' : Message) : Prop where
  netFn : msg'.netFn = msg.netFn
  lun : msg'.lun = msg.lun
  cmd : msg'.cmd = msg.cmd
  data : msg'.data = msg.data
  sessionId : msg'.sessionId = msg.sessionId
  completionCode : msg'.completionCode = msg.completionCode
  seqNum : S msg.seqNum msg'.seqNum

structure Callback.Agrees (S : UInt8 → UInt8 → Prop) (c c' : Callback) : Prop where
  netFn : c'.netFn = c.netFn
  lun : c'.lun = c.lun
  cmd : c'.cmd = c.cmd
  sessionId : c'.sessionId = c.sessionId
  seqNum : S c.seqNum c'.seqNum

structure Call.Agrees (S : UInt8 → UInt8 → Prop) (call call' : Call) : Prop where
  method : call'.method = call.method
  callback : call.callback.Agrees S call'.callback

structure Bus.Agrees (S : UInt8 → UInt8 → Prop) (bus bus' : Bus) : Prop where
  attempts : bus'.attempts = bus.attempts
  calls : List.Forall₂ (Call.Agrees S) bus.calls bus'.calls
  replied : bus'.replied = bus.replied

theorem Bus.Agrees.outstanding {bus bus' : Bus} (h : bus.Agrees S bus') (serial : Nat) :
    bus'.Outstanding serial ↔ bus.Outstanding serial := by
  unfold Bus.Outstanding
  rw [h.replied, h.calls.length_eq]

inductive ServerEvent.Agrees (S : UInt8 → UInt8 → Prop) : ServerEvent → ServerEvent → Prop where
  | request {msg msg' : Message} (h : msg.Agrees S msg') : Agrees S (.request msg) (.request msg')
  | reply (serial : Nat) (reply : Reply) : Agrees S (.reply serial reply) (.reply serial reply)
  | busError : Agrees S .busError .busError

/-- What is written are the frames of messages that say the same, each in the mode of its daemon. -/
inductive Action.Agrees (S : UInt8 → UInt8 → Prop) (mode mode' : ProtocolMode) :
    Action → Action → Prop where
  | incoming {msg msg' : Message} (h : msg.Agrees S msg') :
      Agrees S mode mode' (.incoming msg) (.incoming msg')
  | respond {resp resp' : Message} (h : resp.Agrees S resp') :
      Agrees S mode mode' (.respond resp) (.respond resp')
  | forward (netFn lun cmd : UInt8) (data : List UInt8) (sessionId : UInt32) :
      Agrees S mode mode' (.forward netFn lun cmd data sessionId)
        (.forward netFn lun cmd data sessionId)
  | called (serial : Nat) : Agrees S mode mode' (.called serial) (.called serial)
  | reply (serial : Nat) (reply : Reply) :
      Agrees S mode mode' (.reply serial reply) (.reply serial reply)
  | answer (serial : Nat) {resp resp' : Message} (h : resp.Agrees S resp') :
      Agrees S mode mode' (.answer serial resp) (.answer serial resp')
  | write {resp resp' : Message} (h : resp.Agrees S resp') :
      Agrees S mode mode' (.write (lineFrame mode resp)) (.write (lineFrame mode' resp'))

structure Env.FailsAlike (env env' : Env) : Prop where
  write : ∀ count bytes bytes', (env'.write count bytes').isSome = (env.write count bytes).isSome
  callAsync : env'.callAsync = env.callAsync

theorem Env.FailsAlike.accepts {env env' : Env} (h : env.FailsAlike env') (count : Nat)
    (bytes bytes' : List UInt8) :
    (env'.accepts count bytes').isSome = (env.accepts count bytes).isSome := by
  rw [Env.isSome_accepts, Env.isSome_accepts]
  exact h.write count bytes bytes'

theorem Message.Agrees.localResponse {msg msg' : Message} (h : msg.Agrees S msg')
    (respData : List UInt8) :
    (Daemon.localResponse msg respData).Agrees S (Daemon.localResponse msg' respData) where
  netFn := congrArg (· ||| 0x01) h.netFn
  lun := h.lun
  cmd := h.cmd
  data := rfl
  sessionId := h.sessionId
  completionCode := rfl
  seqNum := h.seqNum

theorem Callback.Agrees.failureResponse {c c' : Callback} (h : c.Agrees S c')
    (completionCode : UInt8) :
    (c.failureResponse completionCode).Agrees S (c'.failureResponse completionCode) where
  netFn := congrArg (· ||| 0x01) h.netFn
  lun := h.lun
  cmd := h.cmd
  data := rfl
  sessionId := h.sessionId
  completionCode := rfl
  seqNum := h.seqNum

theorem Callback.Agrees.replyResponse {c c' : Callback} (h : c.Agrees S c')
    (netFn lun cmd cc : UInt8) (data : List UInt8) :
    (c.replyResponse netFn lun cmd cc data).Agrees S (c'.replyResponse netFn lun cmd cc data) where
  netFn := rfl
  lun := rfl
  cmd := rfl
  data := rfl
  sessionId := h.sessionId
  completionCode := rfl
  seqNum := h.seqNum

namespace Daemon

/-- Apart from modes, addresses, sequence numbers and what comes of them, the daemons have done and
hold the same. -/
structure SameConduct (S : UInt8 → UInt8 → Prop) (mode mode' : ProtocolMode) (d d' : Daemon) :
    Prop where
  table : d'.table = d.table
  channel : d'.handler.channel = d.handler.channel
  outMessage : Option.Rel (Message.Agrees S) d.handler.outMessage d'.handler.outMessage
  channelName : d'.handler.channelName = d.handler.channelName
  asyncSlot : d'.handler.asyncSlot = d.handler.asyncSlot
  writes : d'.device.writes = d.device.writes
  accepted : d'.device.accepted.length = d.device.accepted.length
  framesSent : d'.framesSent = d.framesSent
  bus : Option.Rel (Bus.Agrees S) d.bus d'.bus
  trace : List.Forall₂ (Action.Agrees S mode mode') d.trace d'.trace

structure Alike (S : UInt8 → UInt8 → Prop) (mode mode' : ProtocolMode) (d d' : Daemon) : Prop
    extends SameConduct S mode mode' d d' where
  speaks : d.handler.parser.mode = mode
  speaks' : d'.handler.parser.mode = mode'

variable {env env' : Env} {d d' : Daemon}

theorem Alike.log (h : Alike S mode mode' d d') {action action' : Action}
    (haction : action.Agrees S mode mode' action') :
    Alike S mode mode' (d.log action) (d'.log action') :=
  { h with trace := List.rel_append h.trace (.cons haction .nil) }

theorem Alike.bus_cases (h : Alike S mode mode' d d') :
    (d.bus = none ∧ d'.bus = none) ∨
    ∃ bus bus', d.bus = some bus ∧ d'.bus = some bus' ∧ bus.Agrees S bus' := by
  have hbus := h.bus
  generalize d.bus = b, d'.bus = b' at hbus ⊢
  cases hbus with
  | none => exact Or.inl ⟨rfl, rfl⟩
  | some hbus => exact Or.inr ⟨_, _, rfl, rfl, hbus⟩

theorem Alike.sendResponse (h : Alike S mode mode' d d') (henv : env.FailsAlike env')
    {resp resp' : Message} (hresp : resp.Agrees S resp') :
    Related (Alike S mode mode') (sendResponse env resp d) (sendResponse env' resp' d') := by
  have hlogged : Alike S mode mode' (d.log (.write (d.frame resp)))
      (d'.log (.write (d'.frame resp'))) := by
    rw [frame_eq h.speaks, frame_eq h.speaks']
    exact h.log (.write hresp)
  cases hchannel : d.handler.channel with
  | none =>
    rw [sendResponse_unconnected hchannel, sendResponse_unconnected (h.channel.trans hchannel)]
    exact .ok h
  | some channel =>
    have hchannel' : d'.handler.channel = some channel := h.channel.trans hchannel
    rcases Int.lt_or_le channel.fd 0 with hclosed | hopen
    · rw [sendResponse_closed hchannel hclosed, sendResponse_closed hchannel' hclosed]
      exact .thrown hlogged
    have haccepts := henv.accepts d.device.writes (d.frame resp) (d'.frame resp')
    rw [sendResponse_open hchannel hopen, sendResponse_open hchannel' hopen, h.writes]
    cases hfirst : env.accepts d.device.writes (d.frame resp) with
    | none =>
      rw [hfirst, Option.isSome_none, Option.isSome_eq_false_iff, Option.isNone_iff_eq_none]
        at haccepts
      rw [haccepts]
      exact .thrown { hlogged with writes := rfl }
    | some bytes =>
      rw [hfirst, Option.isSome_some] at haccepts
      obtain ⟨bytes', hsecond⟩ := Option.isSome_iff_exists.mp haccepts
      rw [hsecond]
      refine .ok { hlogged with writes := rfl, accepted := ?_, framesSent := ?_ }
      · change (d'.device.accepted ++ [bytes']).length = (d.device.accepted ++ [bytes]).length
        rw [List.length_append, List.length_append, h.accepted]
        rfl
      · exact congrArg (· + 1) h.framesSent

theorem forwardToIpmid_unconnected (hbus : d.bus = none) (env : Env) (netFn lun cmd : UInt8)
    (data : List UInt8) (sessionId : UInt32) :
    forwardToIpmid env netFn lun cmd data sessionId d =
      .ok (d.log (.forward netFn lun cmd data sessionId)) := by
  rcases forwardToIpmid_cases env netFn lun cmd data sessionId d with
    ⟨-, hforward⟩ | ⟨bus, hsome, -⟩
  · exact hforward
  · rw [hbus] at hsome
    cases hsome

theorem forwardToIpmid_connected {bus : Bus} (hbus : d.bus = some bus) (env : Env)
    (netFn lun cmd : UInt8) (data : List UInt8) (sessionId : UInt32) :
    forwardToIpmid env netFn lun cmd data sessionId d =
      if env.callAsync bus.attempts then
        .ok ({ d.log (.forward netFn lun cmd data sessionId) with
          bus := some { bus with
            attempts := bus.attempts + 1
            calls := bus.calls ++ [d.busCall netFn lun cmd data sessionId] }
          handler.asyncSlot := some bus.calls.length }.log (.called bus.calls.length))
      else .thrown .dbus { d.log (.forward netFn lun cmd data sessionId) with
        bus := some { bus with attempts := bus.attempts + 1 } } := by
  rcases forwardToIpmid_cases env netFn lun cmd data sessionId d with
    ⟨hnone, -⟩ | ⟨bus', hsome, hresult⟩
  · rw [hbus] at hnone
    cases hnone
  · obtain rfl := Option.some.inj (hsome.symm.trans hbus)
    rcases hresult with ⟨hfails, hforward⟩ | ⟨hreaches, hforward⟩
    · rw [hforward, hfails, if_neg Bool.false_ne_true]
    · rw [hforward, hreaches, if_pos rfl]

/-- Only here does the latest message matter, by its sequence number. -/
theorem Alike.forwardToIpmid (h : Alike S mode mode' d d') (henv : env.FailsAlike env')
    (hseqNum : S d.handler.currentMsg.seqNum d'.handler.currentMsg.seqNum)
    (netFn lun cmd : UInt8) (data : List UInt8) (sessionId : UInt32) :
    Related (Alike S mode mode') (forwardToIpmid env netFn lun cmd data sessionId d)
      (forwardToIpmid env' netFn lun cmd data sessionId d') := by
  have hlogged := h.log (.forward netFn lun cmd data sessionId)
  have hcall : (d.busCall netFn lun cmd data sessionId).Agrees S
      (d'.busCall netFn lun cmd data sessionId) :=
    ⟨by rw [busCall, busCall, h.channelName], rfl, rfl, rfl, rfl, hseqNum⟩
  rcases h.bus_cases with ⟨hnone, hnone'⟩ | ⟨bus, bus', hsome, hsome', hbus⟩
  · rw [forwardToIpmid_unconnected hnone, forwardToIpmid_unconnected hnone']
    exact .ok hlogged
  rw [forwardToIpmid_connected hsome, forwardToIpmid_connected hsome', henv.callAsync,
    hbus.attempts, ← hbus.calls.length_eq]
  split_ifs with hreaches
  · apply Related.ok
    apply Alike.log _ (.called _)
    exact { hlogged with
      asyncSlot := rfl
      bus := .some ⟨rfl, List.rel_append hbus.calls (.cons hcall .nil), hbus.replied⟩ }
  · exact .thrown { hlogged with bus := .some ⟨rfl, hbus.calls, hbus.replied⟩ }

theorem Alike.processIncoming (h : Alike S mode mode' d d') (henv : env.FailsAlike env')
    {msg msg' : Message} (hmsg : msg.Agrees S msg') :
    Related (Alike S mode mode') (processIncoming env msg d) (processIncoming env' msg' d') := by
  have hexecute : d'.table.executeCommand ⟨msg'.netFn, msg'.cmd⟩ msg'.data =
      d.table.executeCommand ⟨msg.netFn, msg.cmd⟩ msg.data := by
    rw [h.table, hmsg.netFn, hmsg.cmd, hmsg.data]
  cases hlocal : d.table.executeCommand ⟨msg.netFn, msg.cmd⟩ msg.data with
  | some respData =>
    rw [processIncoming_local env hlocal, processIncoming_local env' (hexecute.trans hlocal)]
    have hresp := hmsg.localResponse respData
    apply Alike.sendResponse _ henv hresp
    exact { h with
      outMessage := .some hresp
      trace := List.rel_append h.trace (.cons (.incoming hmsg) (.cons (.respond hresp) .nil)) }
  | none =>
    rw [processIncoming_forward env hlocal, processIncoming_forward env' (hexecute.trans hlocal),
      hmsg.netFn, hmsg.lun, hmsg.cmd, hmsg.data, hmsg.sessionId]
    apply Alike.forwardToIpmid _ henv hmsg.seqNum
    exact { h with trace := List.rel_append h.trace (.cons (.incoming hmsg) .nil) }

theorem Alike.sendAnswer (h : Alike S mode mode' d d') (henv : env.FailsAlike env') (serial : Nat)
    {resp resp' : Message} (hresp : resp.Agrees S resp') :
    Related (Alike S mode mode') (sendAnswer env serial resp d)
      (sendAnswer env' serial resp' d') :=
  (h.log (.answer serial hresp)).sendResponse henv hresp

theorem Alike.tryAnswer (h : Alike S mode mode' d d') (henv : env.FailsAlike env') (serial : Nat)
    {c c' : Callback} (hc : c.Agrees S c') (reply : Reply) :
    Related (Alike S mode mode') (tryAnswer env serial c reply d)
      (tryAnswer env' serial c' reply d') := by
  cases reply with
  | methodError => exact h.sendAnswer henv serial (hc.failureResponse 0xCC)
  | unreadable => exact .thrown h
  | response netFn lun cmd cc data =>
    exact h.sendAnswer henv serial (hc.replyResponse netFn lun cmd cc data)

theorem Alike.replyCallback (h : Alike S mode mode' d d') (henv : env.FailsAlike env')
    (serial : Nat) {c c' : Callback} (hc : c.Agrees S c') (reply : Reply) :
    Related (Alike S mode mode') (replyCallback env serial c reply d)
      (replyCallback env' serial c' reply d') := by
  have htry := h.tryAnswer henv serial hc reply
  unfold Daemon.replyCallback
  generalize Daemon.tryAnswer env serial c reply d = r at htry ⊢
  generalize Daemon.tryAnswer env' serial c' reply d' = r' at htry ⊢
  cases htry with
  | ok hok => exact .ok hok
  | thrown hthrown => exact hthrown.sendAnswer henv serial (hc.failureResponse 0xFF)

theorem Alike.deliver (h : Alike S mode mode' d d') (henv : env.FailsAlike env') (serial : Nat)
    (reply : Reply) :
    Related (Alike S mode mode') (deliver env serial reply d) (deliver env' serial reply d') := by
  unfold Daemon.deliver
  rcases h.bus_cases with ⟨hnone, hnone'⟩ | ⟨bus, bus', hsome, hsome', hbus⟩
  · rw [hnone, hnone']
    exact .ok h
  rw [hsome, hsome']
  dsimp only
  by_cases hout : bus.Outstanding serial
  · rw [if_pos hout, if_pos ((hbus.outstanding serial).mpr hout)]
    have harrived : Alike S mode mode' (d.arrived bus serial reply)
        (d'.arrived bus' serial reply) := { h with
      bus := .some ⟨hbus.attempts, hbus.calls, congrArg (· ++ [serial]) hbus.replied⟩
      trace := List.rel_append h.trace (.cons (.reply serial reply) .nil) }
    split_ifs with hslot hslot' hslot'
    · have hlength : serial < bus.calls.length := hout.1
      have hlength' : serial < bus'.calls.length := hbus.calls.length_eq ▸ hlength
      rw [List.getElem?_eq_getElem hlength, List.getElem?_eq_getElem hlength']
      exact harrived.replyCallback henv serial (hbus.calls.get hlength hlength').callback reply
    · exact absurd (h.asyncSlot.trans hslot) hslot'
    · exact absurd (h.asyncSlot.symm.trans hslot') hslot
    · exact .ok harrived
  · rw [if_neg hout, if_neg (mt (hbus.outstanding serial).mp hout)]
    exact .ok h

theorem Alike.serve (h : Alike S mode mode' d d') (henv : env.FailsAlike env')
    {event event' : ServerEvent} (hevent : event.Agrees S event') :
    Related (Alike S mode mode') (serve env event d) (serve env' event' d') := by
  cases hevent with
  | request hmsg => exact h.processIncoming henv hmsg
  | reply serial reply => exact h.deliver henv serial reply
  | busError => exact .thrown h

theorem Alike.each (h : Alike S mode mode' d d') (henv : env.FailsAlike env')
    {events events' : List ServerEvent}
    (hevents : List.Forall₂ (ServerEvent.Agrees S) events events') :
    Related (Alike S mode mode') (Outcome.each (Daemon.serve env) events d)
      (Outcome.each (Daemon.serve env') events' d') :=
  Related.each (fun _ _ _ _ hevent h => h.serve henv hevent) hevents h

theorem alike_fresh (channel : Option Channel) (channelName : String) {bus bus' : Option Bus}
    (hbus : Option.Rel (Bus.Agrees S) bus bus') (table : Table) :
    Alike S mode mode' { start mode channel channelName bus with table }
      { start mode' channel channelName bus' with table } where
  table := rfl
  channel := rfl
  outMessage := .none
  channelName := rfl
  asyncSlot := rfl
  writes := rfl
  accepted := rfl
  framesSent := rfl
  bus := hbus
  trace := .nil
  speaks := (IParser.ready_createParser mode).mode
  speaks' := (IParser.ready_createParser mode').mode

end Daemon

def EventLoop.received (mode : ProtocolMode) (polls : List Poll) : List ServerEvent :=
  (run (Daemon.decodeEvents mode) (.between mode) (polls.flatMap Poll.events)).2

/-- What the daemon does follows from what is requested and replied: two daemons whose lines carry
the same requests between the same replies, whatever their modes, the cuts and the noise of their
lines, the addresses and the sequence numbers, make the same calls on the bus, answer with the same
data and completion codes in the same order, and end by the same exception, if any. -/
theorem EventLoop.same_requests_same_conduct (S : UInt8 → UInt8 → Prop) {env env' : Env}
    (henv : env.FailsAlike env') (mode mode' : ProtocolMode) (channel : Option Channel)
    (channelName : String) {bus bus' : Option Bus} (hbus : Option.Rel (Bus.Agrees S) bus bus')
    (table : Table) (polls polls' : List Poll)
    (hreceived : List.Forall₂ (ServerEvent.Agrees S) (received mode polls) (received mode' polls')) :
    Related (fun loop loop' => loop.daemon.SameConduct S mode mode' loop'.daemon)
      (startEventLoop env polls
        { daemon := { Daemon.start mode channel channelName bus with table } })
      (startEventLoop env' polls'
        { daemon := { Daemon.start mode' channel channelName bus' with table } }) := by
  have hfresh : Daemon.Alike S mode mode' _ _ :=
    Daemon.alike_fresh channel channelName hbus table
  have hservers := hfresh.each henv hreceived
  have hleft := (Daemon.handle_simulates env mode _).each
    (Daemon.stands_fresh mode channel channelName bus table) (polls.flatMap Poll.events)
  have hright := (Daemon.handle_simulates env' mode' _).each
    (Daemon.stands_fresh mode' channel channelName bus' table) (polls'.flatMap Poll.events)
  have hdaemons := Related.of_map (hleft ▸ hright ▸ hservers)
  rw [startEventLoop_eq, startEventLoop_eq]
  exact hdaemons.map fun d d' h => { h.toSameConduct with }

theorem EventLoop.same_requests_same_conduct_modes :
    let deviceId : Exchange .basic :=
      .ofPayload [0x20, 0x18, 0xC8, 0x81, 0x04, 0x01, 0x7A] (by decide)
        (.response 0x07 0x00 0x01 0x00 [0xA5])
    let privilege : Exchange .basic :=
      .ofPayload [0x20, 0x18, 0xC8, 0x81, 0x08, 0x3B, 0x3C] (by decide) .unreadable
    let deviceId' : Exchange .terminal :=
      .ofPayload [0x18, 0x11, 0x01] (by decide) (.response 0x07 0x00 0x01 0x00 [0xA5])
    let privilege' : Exchange .terminal :=
      .ofPayload [0x18, 0x12, 0x3B] (by decide) .unreadable
    let polls : List Poll :=
      [.ready (some (.bytes deviceId.bytes (by decide))) (some (.reply 0 deviceId.reply)),
        .ready (some (.bytes privilege.bytes (by decide))) none]
    let polls' : List Poll :=
      [.ready (some (.bytes (deviceId'.bytes.take 4) (by decide))) none, .timeout,
        .ready (some (.bytes (deviceId'.bytes.drop 4) (by decide)))
          (some (.reply 0 deviceId'.reply)),
        .error, .ready (some (.bytes privilege'.bytes (by decide))) none]
    Related (fun loop loop' => loop.daemon.SameConduct (fun seqNum seqNum' =>
        seqNum' = seqNum + 0x10) .basic .terminal loop'.daemon)
      (startEventLoop .reliable polls { daemon :=
        { Daemon.start .basic (some ⟨"/dev/ttyAMA1", 3⟩) "serial0" (some {}) with
          table := sessionTable } })
      (startEventLoop .reliable polls' { daemon :=
        { Daemon.start .terminal (some ⟨"/dev/ttyAMA1", 3⟩) "serial0" (some {}) with
          table := sessionTable } }) := by
  intro deviceId privilege deviceId' privilege' polls polls'
  have hforward : deviceId.isLocal sessionTable = false := by decide
  have hlocal : privilege.isLocal sessionTable = true := by decide
  have hforward' : deviceId'.isLocal sessionTable = false := by decide
  have hlocal' : privilege'.isLocal sessionTable = true := by decide
  have hpolls : polls.flatMap Poll.events =
      Exchange.allEvents sessionTable 0 [deviceId, privilege] := by
    unfold Exchange.allEvents Exchange.allEvents Exchange.allEvents Exchange.events
    rw [hlocal, hforward]
    rfl
  have hpolls' : polls'.flatMap Poll.events =
      Exchange.allEvents sessionTable 0 [deviceId', privilege'] := by
    unfold Exchange.allEvents Exchange.allEvents Exchange.allEvents Exchange.events
    rw [hlocal', hforward']
    rfl
  have hreceived : List.Forall₂ (ServerEvent.Agrees fun seqNum seqNum' => seqNum' = seqNum + 0x10)
      (received .basic polls) (received .terminal polls') := by
    unfold received
    rw [hpolls, hpolls', Exchange.decode_allEvents, Exchange.decode_allEvents]
    unfold Exchange.allServed Exchange.allServed Exchange.allServed Exchange.served
    rw [hlocal, hforward, hlocal', hforward']
    exact .cons (.request ⟨rfl, rfl, rfl, rfl, rfl, rfl, by decide⟩) (.cons (.reply 0 _)
      (.cons (.request ⟨rfl, rfl, rfl, rfl, rfl, rfl, by decide⟩) .nil))
  exact same_requests_same_conduct _ ⟨fun _ _ _ => rfl, rfl⟩ .basic .terminal
    (some ⟨"/dev/ttyAMA1", 3⟩) "serial0" (.some ⟨rfl, .nil, rfl⟩) sessionTable polls polls' hreceived

end SerialIpmi
