import SerialIpmi.Basic.Parser
import SerialIpmi.Terminal.Parser

/-! Payload parsers, and the interface that hides which of the two protocol
modes a handler speaks. -/
namespace SerialIpmi

def parseTerminalPayload (payload : List UInt8) : Message :=
  let m : Message := { mode := some .terminal }
  if h : payload.length < 3 then m
  else
    let nfLun := payload[0]
    { m with
      netFn := nfLun >>> 2
      lun := nfLun &&& 0x03
      seqNum := payload[1]
      cmd := payload[2]
      data := if payload.length > 3 then payload.drop 3 else [] }

def parseBasicPayload (payload : List UInt8) : Message :=
  let m : Message := { mode := some .basic }
  if payload.length < 7 then m
  else
    { m with
      rsSA := payload[0]!
      netFn := payload[1]! >>> 2
      lun := payload[1]! &&& 0x03
      rqSA := payload[3]!
      seqNum := payload[4]! >>> 2
      cmd := payload[5]!
      data := if payload.length > 7 then (payload.drop 6).dropLast else [] }

inductive ProtocolMode where
  | terminal
  | basic
  deriving DecidableEq, Repr

inductive IParser where
  | terminal (parser : Terminal.Parser)
  | basic (parser : Basic.Parser)
  deriving DecidableEq, Repr

def createParser : ProtocolMode → IParser
  | .terminal => .terminal {}
  | .basic => .basic {}

namespace IParser

def mode : IParser → ProtocolMode
  | .terminal _ => .terminal
  | .basic _ => .basic

def feedData : IParser → List UInt8 → IParser
  | .terminal p, data => .terminal (p.feedData data)
  | .basic p, data => .basic (p.feedData data)

def hasCompleteMessage : IParser → Bool
  | .terminal p => p.hasCompleteMessage
  | .basic p => p.hasCompleteMessage

def pending : IParser → Nat
  | .terminal p => p.completed.length
  | .basic p => p.completedMessages.length

def getNextMessage : IParser → Message × IParser
  | .terminal p =>
      let (payload, p) := p.getNextMessagePayload
      ({ parseTerminalPayload payload with rawFrame := payload }, .terminal p)
  | .basic p =>
      let (msg, p) := p.getNextMessage
      (msg, .basic p)

def encodeResponse : IParser → List UInt8 → List UInt8
  | .terminal p, payload => p.encodeResponse payload
  | .basic p, payload => p.encodeResponse payload

def reset : IParser → IParser
  | .terminal p => .terminal p.reset
  | .basic p => .basic p.reset

end IParser

end SerialIpmi
