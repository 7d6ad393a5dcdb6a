import SerialIpmi.MessageParsers
import SerialIpmi.CommandTable
import SerialIpmi.Bus

/-! The message handler: bytes in, decoded requests dispatched to the command
table or to the bus, responses out. -/
namespace SerialIpmi

structure Handler where
  channel : Option Channel
  parser : IParser
  rxBuffer : List UInt8 := []
  outMessage : Option Message := none
  currentMsg : Message := {}
  channelName : String
  asyncSlot : Option Nat := none
  deriving DecidableEq, Repr

/-- What an observer of the handler sees, in order. -/
inductive Action where
  | incoming (msg : Message)
  | respond (resp : Message)
  | forward (netFn lun cmd : UInt8) (data : List UInt8) (sessionId : UInt32)
  | called (serial : Nat)
  | reply (serial : Nat) (reply : Reply)
  | answer (serial : Nat) (resp : Message)
  | write (bytes : List UInt8)
  deriving DecidableEq, Repr

/-- The handler with everything it acts on. `trace` is kept for statements
only: no function reads it. -/
structure Daemon where
  table : Table
  handler : Handler
  device : Device := {}
  bus : Option Bus := some {}
  framesSent : UInt64 := 0
  trace : List Action := []

namespace Daemon

def log (d : Daemon) (action : Action) : Daemon :=
  { d with trace := d.trace ++ [action] }

def responsePayload (resp : Message) : List UInt8 :=
  let netfnLun := (resp.netFn <<< 2) ||| (resp.lun &&& 0x03)
  let seqLun := (resp.seqNum <<< 2) ||| (resp.lun &&& 0x03)
  let targetAddr := resp.rqSA
  let sourceAddr := resp.rsSA
  let csum1 := (~~~(targetAddr.toUInt32 + netfnLun.toUInt32) + 1).toUInt8
  let sum2 := resp.data.foldl (fun sum b => sum + b.toUInt16)
    (sourceAddr.toUInt16 + seqLun.toUInt16 + resp.cmd.toUInt16 + resp.completionCode.toUInt16)
  let csum2 := (~~~sum2.toUInt32 + 1).toUInt8
  [targetAddr, netfnLun, csum1, sourceAddr, seqLun, resp.cmd, resp.completionCode] ++
    resp.data ++ [csum2]

/-- The count that the channel returns is not looked at. -/
def sendResponse (env : Env) (resp : Message) (d : Daemon) : Outcome Failure Daemon :=
  let encoded := d.handler.parser.encodeResponse (responsePayload resp)
  if encoded ≠ [] then
    match d.handler.channel with
    | none => .ok d
    | some channel =>
        let d := d.log (.write encoded)
        match channel.write env encoded d.device with
        | (.error e, device) => .thrown e { d with device }
        | (.ok _, device) => .ok { d with device, framesSent := d.framesSent + 1 }
  else .ok d

def forwardToIpmid (env : Env) (netFn lun cmd : UInt8) (data : List UInt8) (sessionId : UInt32)
    (d : Daemon) : Outcome Failure Daemon :=
  let d := d.log (.forward netFn lun cmd data sessionId)
  match d.bus with
  | none => .ok d
  | some bus =>
      let method : MethodCall := { netFn, lun, cmd, data, channel := d.handler.channelName }
      let callback : Callback :=
        { netFn, lun, cmd, sessionId, seqNum := d.handler.currentMsg.seqNum }
      match bus.callAsync env ⟨method, callback⟩ with
      | (.error e, bus) => .thrown e { d with bus := some bus }
      | (.ok slot, bus) =>
          .ok ({ d with bus := some bus, handler.asyncSlot := some slot }.log (.called slot))

def localResponse (inMsg : Message) (respData : List UInt8) : Message where
  netFn := inMsg.netFn ||| 0x01
  lun := inMsg.lun
  seqNum := inMsg.seqNum
  cmd := inMsg.cmd
  completionCode := 0x00
  data := respData
  sessionId := inMsg.sessionId

def processIncoming (env : Env) (inMsg : Message) (d : Daemon) : Outcome Failure Daemon :=
  let d := { d with handler.currentMsg := inMsg }.log (.incoming inMsg)
  match d.table.executeCommand ⟨inMsg.netFn, inMsg.cmd⟩ inMsg.data with
  | some respData =>
      let resp := localResponse inMsg respData
      sendResponse env resp ({ d with handler.outMessage := some resp }.log (.respond resp))
  | none => forwardToIpmid env inMsg.netFn inMsg.lun inMsg.cmd inMsg.data inMsg.sessionId d

/-- The loop `while (parser_->hasCompleteMessage())`. Each round pops one message,
so as many rounds as messages wait are enough. -/
def processMessages (env : Env) : Nat → Daemon → Outcome Failure Daemon
  | 0, d => .ok d
  | rounds + 1, d =>
      if d.handler.parser.hasCompleteMessage then
        let (msg, parser) := d.handler.parser.getNextMessage
        (processIncoming env msg { d with handler.parser := parser }).andThen
          (processMessages env rounds)
      else .ok d

def tryParseMessages (env : Env) (d : Daemon) : Outcome Failure Daemon :=
  let d := { d with handler.parser := d.handler.parser.feedData d.handler.rxBuffer }
  (processMessages env d.handler.parser.pending d).andThen fun d =>
    .ok { d with handler.rxBuffer := [] }

def processByte (env : Env) (byte : UInt8) (d : Daemon) : Outcome Failure Daemon :=
  tryParseMessages env { d with handler.rxBuffer := d.handler.rxBuffer ++ [byte] }

def flushFrames (env : Env) (d : Daemon) : Outcome Failure Daemon :=
  if d.handler.rxBuffer ≠ [] then
    let d := { d with handler.parser := d.handler.parser.feedData d.handler.rxBuffer }
    (processMessages env d.handler.parser.pending d).andThen fun d =>
      .ok { d with handler.rxBuffer := [] }
  else .ok d

def getResponse (d : Daemon) : Option Message × Daemon :=
  match d.handler.outMessage with
  | some m => (some m, { d with handler.outMessage := none })
  | none => (none, d)

def setResponsePayload (payload : List UInt8) (d : Daemon) : Daemon :=
  let currentMsg := d.handler.currentMsg
  { d with handler.outMessage := some {
      netFn := currentMsg.netFn ||| 0x01
      lun := currentMsg.lun
      seqNum := currentMsg.seqNum
      cmd := currentMsg.cmd
      completionCode := 0x00
      data := payload } }

end Daemon

namespace Callback

def failureResponse (c : Callback) (completionCode : UInt8) : Message where
  netFn := c.netFn ||| 0x01
  lun := c.lun
  cmd := c.cmd
  completionCode := completionCode
  seqNum := c.seqNum
  sessionId := c.sessionId

def methodErrorResponse (c : Callback) : Message := c.failureResponse 0xCC

def exceptionResponse (c : Callback) : Message := c.failureResponse 0xFF

def replyResponse (c : Callback) (netFn lun cmd cc : UInt8) (data : List UInt8) : Message where
  netFn := netFn
  lun := lun
  seqNum := c.seqNum
  cmd := cmd
  completionCode := cc
  data := data
  sessionId := c.sessionId

end Callback

namespace Daemon

def sendAnswer (env : Env) (serial : Nat) (resp : Message) (d : Daemon) : Outcome Failure Daemon :=
  sendResponse env resp (d.log (.answer serial resp))

/-- The `try` block of the reply callback. -/
def tryAnswer (env : Env) (serial : Nat) (c : Callback) (reply : Reply) (d : Daemon) :
    Outcome Failure Daemon :=
  match reply with
  | .methodError => sendAnswer env serial c.methodErrorResponse d
  | .unreadable => .thrown .dbus d
  | .response netFn lun cmd cc data =>
      sendAnswer env serial (c.replyResponse netFn lun cmd cc data) d

/-- The reply callback: any exception of its `try` block is answered once more. -/
def replyCallback (env : Env) (serial : Nat) (c : Callback) (reply : Reply) (d : Daemon) :
    Outcome Failure Daemon :=
  match tryAnswer env serial c reply d with
  | .ok d => .ok d
  | .thrown _ d => sendAnswer env serial c.exceptionResponse d

/-- The bus delivers the reply of an outstanding call. It reaches the callback
only through the slot that the handler holds. -/
def deliver (env : Env) (serial : Nat) (reply : Reply) (d : Daemon) : Outcome Failure Daemon :=
  match d.bus with
  | none => .ok d
  | some bus =>
      if bus.Outstanding serial then
        let d := { d with bus := some { bus with replied := bus.replied ++ [serial] } }.log
          (.reply serial reply)
        if d.handler.asyncSlot = some serial then
          match bus.calls[serial]? with
          | some call => replyCallback env serial call.callback reply d
          | none => .ok d
        else .ok d
      else .ok d

def start (mode : ProtocolMode) (channel : Option Channel) (channelName : String)
    (bus : Option Bus) : Daemon where
  table := sessionTable
  handler := { channel, parser := createParser mode, channelName }
  bus := bus

end Daemon

end SerialIpmi
