/-! The message container shared by both protocol modes. -/
namespace SerialIpmi

inductive Mode where
  | terminal
  | basic
  deriving DecidableEq, Repr

/-- One IPMI request or response. The default constructor of the source leaves
`mode` uninitialised, which is `none` here. -/
structure Message where
  mode : Option Mode := none
  netFn : UInt8 := 0
  lun : UInt8 := 0
  seqNum : UInt8 := 0
  cmd : UInt8 := 0
  data : List UInt8 := []
  rsSA : UInt8 := 0x20
  rqSA : UInt8 := 0x81
  sessionId : UInt32 := 0
  completionCode : UInt8 := 0
  rawFrame : List UInt8 := []
  deriving DecidableEq, Repr

end SerialIpmi
