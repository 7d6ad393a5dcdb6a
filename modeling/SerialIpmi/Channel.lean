import SerialIpmi.Library.Outcome

/-! The UART channel and the outside world it writes to. -/
namespace SerialIpmi

/-- What the operating system and the message bus decide. `write k bytes` is the
number of bytes that the `k`-th system call accepts, or a failure; `callAsync k`
says whether the `k`-th method call reaches the bus. -/
structure Env where
  write : Nat → (bytes : List UInt8) → Option (Fin (bytes.length + 1))
  callAsync : Nat → Bool

def Env.reliable : Env where
  write := fun _ bytes => some (Fin.last bytes.length)
  callAsync := fun _ => true

/-- The exceptions that the modelled calls can throw; `process` is that of a bus connection which
can no longer be processed. -/
inductive Failure where
  | notOpen (devicePath : String)
  | writeError
  | dbus
  | process
  deriving DecidableEq, Repr

/-- The far side of the file descriptor: how many system calls were made, and
what each successful one accepted. -/
structure Device where
  writes : Nat := 0
  accepted : List (List UInt8) := []
  deriving DecidableEq, Repr

structure Channel where
  devicePath : String
  fd : Int
  deriving DecidableEq, Repr

def Channel.write (env : Env) (channel : Channel) (bytes : List UInt8) (device : Device) :
    Except Failure Nat × Device :=
  if channel.fd < 0 then (.error (.notOpen channel.devicePath), device)
  else
    match env.write device.writes bytes with
    | none => (.error .writeError, { device with writes := device.writes + 1 })
    | some written =>
        (.ok written, {
          writes := device.writes + 1
          accepted := device.accepted ++ [bytes.take written] })

end SerialIpmi
