import SerialIpmi.Channel

/-! The message bus as the daemon uses it. A call gets a serial; its reply
callback runs when the reply arrives, provided the slot of the call is still
alive. Storing another slot in its place cancels the call. -/
namespace SerialIpmi

/-- The values that the reply callback captures when the call is made. -/
structure Callback where
  netFn : UInt8
  lun : UInt8
  cmd : UInt8
  sessionId : UInt32
  seqNum : UInt8
  deriving DecidableEq, Repr

structure MethodCall where
  service : String := "xyz.openbmc_project.Ipmi.Host"
  objectPath : String := "/xyz/openbmc_project/Ipmi"
  interface : String := "xyz.openbmc_project.Ipmi.Server"
  method : String := "execute"
  netFn : UInt8
  lun : UInt8
  cmd : UInt8
  data : List UInt8
  channel : String
  userId : UInt8 := 1
  deriving DecidableEq, Repr

structure Call where
  method : MethodCall
  callback : Callback
  deriving DecidableEq, Repr

/-- A reply as the callback sees it: a method error, a message that cannot be
read as the expected tuple, or that tuple. -/
inductive Reply where
  | methodError
  | unreadable
  | response (netFn lun cmd cc : UInt8) (data : List UInt8)
  deriving DecidableEq, Repr

/-- The serial of a call is its position in `calls`; `replied` holds the serials
whose reply has arrived. -/
structure Bus where
  attempts : Nat := 0
  calls : List Call := []
  replied : List Nat := []
  deriving DecidableEq, Repr

namespace Bus

def callAsync (env : Env) (call : Call) (bus : Bus) : Except Failure Nat × Bus :=
  if env.callAsync bus.attempts then
    (.ok bus.calls.length,
      { bus with attempts := bus.attempts + 1, calls := bus.calls ++ [call] })
  else (.error .dbus, { bus with attempts := bus.attempts + 1 })

def Outstanding (bus : Bus) (serial : Nat) : Prop :=
  serial < bus.calls.length ∧ serial ∉ bus.replied

instance (bus : Bus) (serial : Nat) : Decidable (bus.Outstanding serial) := by
  unfold Outstanding
  infer_instance

end Bus

end SerialIpmi
