import SerialIpmi.Message

/-! The Terminal-mode parser: ASCII hex digits between brackets. Characters
are their ASCII codes, as in the byte streams that carry them. -/
namespace SerialIpmi.Terminal

def openBracket : UInt8 := 0x5B
def closeBracket : UInt8 := 0x5D
def carriageReturn : UInt8 := 0x0D
def lineFeed : UInt8 := 0x0A
def tab : UInt8 := 0x09
def space : UInt8 := 0x20

structure Stats where
  framesReceived : UInt64 := 0
  framesValid : UInt64 := 0
  framesError : UInt64 := 0
  bytesReceived : UInt64 := 0
  bytesSent : UInt64 := 0
  deriving DecidableEq, Repr

inductive ParseState where
  | idle
  | receivingHex
  | complete
  | error
  deriving DecidableEq, Repr

/-- The default values are those of `reset`, so `{}` is a fresh parser. -/
structure Parser where
  stats : Stats := {}
  state : ParseState := .idle
  hexBuffer : List UInt8 := []
  completed : List (List UInt8) := []
  deriving DecidableEq, Repr

def hexValue (c : UInt8) : UInt8 :=
  if 0x30 ≤ c ∧ c ≤ 0x39 then c - 0x30
  else if 0x61 ≤ c ∧ c ≤ 0x66 then c - 0x61 + 10
  else if 0x41 ≤ c ∧ c ≤ 0x46 then c - 0x41 + 10
  else 0xFF

def hexPairs : List UInt8 → List UInt8
  | c₁ :: c₂ :: rest =>
      let hi := hexValue c₁
      let lo := hexValue c₂
      if hi = 0xFF ∨ lo = 0xFF then []
      else ((hi <<< 4) ||| lo) :: hexPairs rest
  | _ => []

def hexStringToBytes (hex : List UInt8) : List UInt8 :=
  hexPairs (hex.filter fun c =>
    ¬ (c = space ∨ c = lineFeed ∨ c = carriageReturn ∨ c = tab))

def isHexDigit (ch : UInt8) : Bool :=
  (0x30 ≤ ch && ch ≤ 0x39) || (0x61 ≤ ch && ch ≤ 0x66) || (0x41 ≤ ch && ch ≤ 0x46)

namespace Parser

def reset (_ : Parser) : Parser := {}

def feed (p : Parser) (ch : UInt8) : Parser :=
  match p.state with
  | .idle =>
      if ch = openBracket then { p with hexBuffer := [], state := .receivingHex } else p
  | .receivingHex =>
      if ch = closeBracket then
        let bytes := hexStringToBytes p.hexBuffer
        let p :=
          if bytes ≠ [] then
            { p with
              completed := p.completed ++ [bytes]
              stats.framesReceived := p.stats.framesReceived + 1
              stats.bytesReceived := p.stats.bytesReceived + UInt64.ofNat bytes.length }
          else { p with stats.framesError := p.stats.framesError + 1 }
        { p with hexBuffer := [], state := .complete }
      else if ch = carriageReturn ∨ ch = lineFeed then
        let bytes := hexStringToBytes p.hexBuffer
        let p :=
          if bytes ≠ [] then
            { p with
              completed := p.completed ++ [bytes]
              stats.framesReceived := p.stats.framesReceived + 1
              stats.bytesReceived := p.stats.bytesReceived + UInt64.ofNat bytes.length }
          else if p.hexBuffer ≠ [] then
            { p with stats.framesError := p.stats.framesError + 1 }
          else p
        { p with hexBuffer := [], state := .complete }
      else if ch = space then p
      else if isHexDigit ch then
        let hexBuffer := p.hexBuffer ++ [ch]
        if hexBuffer.length > 160 then
          { p with
            state := .error
            hexBuffer := []
            stats.framesError := p.stats.framesError + 1 }
        else { p with hexBuffer }
      else
        { p with
          state := .error
          hexBuffer := []
          stats.framesError := p.stats.framesError + 1 }
  | .complete =>
      if ch = openBracket then { p with hexBuffer := [], state := .receivingHex }
      else { p with state := .idle }
  | .error => { p with state := .idle, hexBuffer := [] }

def feedData (p : Parser) (data : List UInt8) : Parser :=
  data.foldl feed p

def hasCompleteMessage (p : Parser) : Bool :=
  !p.completed.isEmpty

def getNextMessagePayload (p : Parser) : List UInt8 × Parser :=
  match p.completed with
  | [] => ([], p)
  | v :: completed => (v, { p with completed })

def hexDigit (nibble : UInt8) : UInt8 :=
  if nibble < 10 then nibble + 0x30 else nibble - 10 + 0x41

def hexByte (byte : UInt8) : List UInt8 :=
  [hexDigit (byte >>> 4), hexDigit (byte &&& 0x0F)]

def hexBytes : List UInt8 → List UInt8
  | [] => []
  | byte :: rest => hexByte byte ++ rest.flatMap fun byte => space :: hexByte byte

def encodeResponse (_ : Parser) (payload : List UInt8) : List UInt8 :=
  openBracket :: (hexBytes payload ++ [closeBracket, carriageReturn, lineFeed])

def encodeError (code : UInt8) : List UInt8 :=
  openBracket :: ([0x45, 0x52, 0x52, space] ++ hexByte code ++
    [closeBracket, carriageReturn, lineFeed])

end Parser

end SerialIpmi.Terminal
