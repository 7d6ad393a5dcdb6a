import SerialIpmi.Basic.Checksum
import SerialIpmi.Message

/-! The Basic-mode parser: a four-state machine over single bytes, a queue of
accepted frames, and the encoder for responses. -/
namespace SerialIpmi.Basic

def bmcStart : UInt8 := 0xA0
def bmcStop : UInt8 := 0xA5
def bmcHandshake : UInt8 := 0xA6
def bmcEscape : UInt8 := 0xAA

inductive ParseState where
  | msgNone
  | msgInProgress
  | msgEscape
  | msgDone
  deriving DecidableEq, Repr

structure Stats where
  framesReceived : UInt64 := 0
  framesValid : UInt64 := 0
  framesChecksumError : UInt64 := 0
  framesError : UInt64 := 0
  handshakesSent : UInt64 := 0
  bytesReceived : UInt64 := 0
  bytesSent : UInt64 := 0
  deriving DecidableEq, Repr

/-- The default values are those of `reset`, so `{}` is a fresh parser. -/
structure Parser where
  stats : Stats := {}
  state : ParseState := .msgNone
  msgBuffer : List UInt8 := []
  completedMessages : List (List UInt8) := []
  deriving DecidableEq, Repr

namespace Parser

def reset (_ : Parser) : Parser := {}

def feed (p : Parser) (ch : UInt8) : Parser :=
  match p.state with
  | .msgNone =>
      if ch = bmcStart then { p with msgBuffer := [], state := .msgInProgress } else p
  | .msgInProgress =>
      if ch = bmcEscape then { p with state := .msgEscape }
      else if ch = bmcStop then
        let p :=
          if validateChecksum p.msgBuffer then
            { p with
              completedMessages := p.completedMessages ++ [p.msgBuffer]
              stats.framesReceived := p.stats.framesReceived + 1
              stats.framesValid := p.stats.framesValid + 1
              stats.bytesReceived := p.stats.bytesReceived + UInt64.ofNat p.msgBuffer.length }
          else
            { p with
              stats.framesReceived := p.stats.framesReceived + 1
              stats.framesChecksumError := p.stats.framesChecksumError + 1 }
        { p with msgBuffer := [], state := .msgDone }
      else if ch = bmcStart then { p with msgBuffer := [] }
      else { p with msgBuffer := p.msgBuffer ++ [ch] }
  | .msgEscape =>
      { p with msgBuffer := p.msgBuffer ++ [ch ^^^ 0x10], state := .msgInProgress }
  | .msgDone =>
      if ch = bmcStart then { p with msgBuffer := [], state := .msgInProgress }
      else { p with state := .msgNone }

def feedData (p : Parser) (data : List UInt8) : Parser :=
  data.foldl feed p

def hasCompleteMessage (p : Parser) : Bool :=
  !p.completedMessages.isEmpty

def getNextMessage (p : Parser) : Message × Parser :=
  let msg : Message := { mode := some .basic }
  match p.completedMessages with
  | [] => (msg, p)
  | raw :: completedMessages =>
      let p := { p with completedMessages }
      let msg := { msg with rawFrame := raw }
      if raw.length < 7 then (msg, p)
      else
        ({ msg with
            rsSA := raw[0]!
            netFn := raw[1]! >>> 2
            lun := raw[1]! &&& 0x03
            rqSA := raw[3]!
            seqNum := raw[4]! >>> 2
            cmd := raw[5]!
            data := if raw.length > 7 then (raw.drop 6).dropLast else [] }, p)

def encodeByte (byte : UInt8) : List UInt8 :=
  if byte = bmcStart ∨ byte = bmcStop ∨ byte = bmcHandshake ∨ byte = bmcEscape then
    [bmcEscape, byte ^^^ 0x10]
  else [byte]

def encodeResponse (_ : Parser) (payload : List UInt8) : List UInt8 :=
  bmcStart :: (payload.flatMap encodeByte ++ [bmcStop])

def encodeHandshake (_ : Parser) : List UInt8 :=
  [bmcHandshake]

end Parser

end SerialIpmi.Basic
