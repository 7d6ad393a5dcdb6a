import SerialIpmi.Library.AssocList

/-! The session manager: the stored sessions by id, a limit on their number, random ids
and clock readings from outside. -/
namespace SerialIpmi

/-- A reading of the steady clock, in nanoseconds. -/
abbrev TimePoint := Int

structure Session where
  id : UInt32
  isActive : Bool := false
  lastActive : TimePoint
  deriving DecidableEq, Repr

/-- What the distribution can return: it draws from 1 to the largest id. -/
abbrev Draw := { sid : UInt32 // sid ≠ 0 }

/-- The state of the generator is the count of its draws. -/
structure Manager where
  sessions : AList fun _ : UInt32 => Session := ∅
  rng : Nat := 0
  maxSessions : Nat := 1
  channelName : String := ""

namespace Manager

def managerInit (channelName : String) (m : Manager) : Manager :=
  { m with channelName, maxSessions := 1 }

def getSession (sessionId : UInt32) (m : Manager) : Option Session :=
  m.sessions.lookup sessionId

/-- The variables of the `do` loop in `createSession`. -/
structure Attempt where
  sid : UInt32 := 0
  attempts : Nat := 0
  rng : Nat
  deriving DecidableEq, Repr

/-- The `do` loop. Its bound on the attempts is also a bound on its rounds. -/
def drawId (dist : Nat → Draw) (m : Manager) : Nat → Attempt → Attempt
  | 0, loop => loop
  | rounds + 1, loop =>
      let loop : Attempt :=
        { sid := dist loop.rng, attempts := loop.attempts + 1, rng := loop.rng + 1 }
      if (m.getSession loop.sid).isSome ∧ loop.attempts < 100 then drawId dist m rounds loop
      else loop

/-- The session gets its time twice, when it is built and when it is activated; the second
reading stays. -/
def createSession (dist : Nat → Draw) (now : TimePoint) (m : Manager) : UInt32 × Manager :=
  if m.sessions.entries.length ≥ m.maxSessions then (0, m)
  else
    let loop := m.drawId dist 100 { rng := m.rng }
    let m := { m with rng := loop.rng }
    if loop.attempts ≥ 100 then (0, m)
    else
      let s : Session := { id := loop.sid, isActive := true, lastActive := now }
      (loop.sid, { m with sessions := m.sessions.insert loop.sid s })

def activateSession (sessionId : UInt32) (now : TimePoint) (m : Manager) : Bool × Manager :=
  match m.getSession sessionId with
  | none => (false, m)
  | some _ =>
      (true, { m with sessions := m.sessions.modify sessionId fun s =>
        { s with isActive := true, lastActive := now } })

/-- The entry stays in the table. -/
def closeSession (sessionId : UInt32) (m : Manager) : Bool × Manager :=
  match m.getSession sessionId with
  | none => (false, m)
  | some _ =>
      (true, { m with sessions := m.sessions.modify sessionId fun s => { s with isActive := false } })

/-- Whole seconds, rounded towards zero. -/
def elapsed (now lastActive : TimePoint) : Int := (now - lastActive).tdiv 1000000000

def checkTimeouts (timeoutSeconds : Int) (now : TimePoint) (m : Manager) : Manager :=
  { m with sessions := m.sessions.sweep fun s => elapsed now s.lastActive > timeoutSeconds }

def getActiveSessionCount (m : Manager) : Nat :=
  m.sessions.entries.countP fun kv => kv.2.isActive

end Manager

inductive SessionCall where
  | managerInit (channelName : String)
  | createSession (now : TimePoint)
  | activateSession (sessionId : UInt32) (now : TimePoint)
  | closeSession (sessionId : UInt32)
  | checkTimeouts (timeoutSeconds : Int) (now : TimePoint)
  deriving DecidableEq, Repr

namespace Manager

def perform (dist : Nat → Draw) (m : Manager) : SessionCall → Manager
  | .managerInit channelName => m.managerInit channelName
  | .createSession now => (m.createSession dist now).2
  | .activateSession sessionId now => (m.activateSession sessionId now).2
  | .closeSession sessionId => (m.closeSession sessionId).2
  | .checkTimeouts timeoutSeconds now => m.checkTimeouts timeoutSeconds now

def run (dist : Nat → Draw) (calls : List SessionCall) (m : Manager) : Manager :=
  calls.foldl (perform dist) m

end Manager

end SerialIpmi
