import Mathlib.Data.FinEnum
import Mathlib.Tactic.Tauto
import Mathlib.Tactic.SplitIfs

/-! The table of commands answered by the daemon itself, and the session
commands that `main` registers in it. -/
namespace SerialIpmi

structure CommandID where
  netFn : UInt8 := 0
  cmd : UInt8 := 0
  deriving DecidableEq, Repr

def CommandID.toKey (id : CommandID) : UInt32 :=
  (id.netFn.toUInt32 <<< 8) ||| id.cmd.toUInt32

/-- An entry maps request data to response data. The entries of the source also
receive the handler, and none of them uses it. -/
abbrev Entry := List UInt8 → List UInt8

structure Table where
  commands : UInt32 → Option Entry := fun _ => none

namespace Table

def registerCommand (t : Table) (id : CommandID) (entry : Entry) : Table where
  commands := fun key => if key = id.toKey then some entry else t.commands key

/-- A registered command counts as handled even when it returns no data. -/
def executeCommand (t : Table) (id : CommandID) (request : List UInt8) : Option (List UInt8) :=
  match t.commands id.toKey with
  | none => none
  | some entry => some (entry request)

end Table

def getChannelAuthCap (request : List UInt8) : List UInt8 :=
  let channel := if h : request.length ≥ 1 then request[0] else 0x0E
  [channel, 0x01, 0x0C, 0x00, 0x00, 0x00, 0x00, 0x00]

def sessionIdBytes (sid : UInt32) : List UInt8 :=
  [(sid &&& 0xFF).toUInt8, ((sid >>> 8) &&& 0xFF).toUInt8,
    ((sid >>> 16) &&& 0xFF).toUInt8, ((sid >>> 24) &&& 0xFF).toUInt8]

def getSessionChallenge (_request : List UInt8) : List UInt8 :=
  List.replicate 16 0x00 ++ sessionIdBytes 1

def activateSession (_request : List UInt8) : List UInt8 :=
  sessionIdBytes 1 ++ [0x01]

def setSessionPrivilegeLevel (_request : List UInt8) : List UInt8 :=
  [4]

def closeSession (_request : List UInt8) : List UInt8 :=
  []

def netFnApp : UInt8 := 0x06

def Table.registerSessionCommands (t : Table) : Table :=
  ((((t.registerCommand ⟨netFnApp, 0x38⟩ getChannelAuthCap).registerCommand
    ⟨netFnApp, 0x39⟩ getSessionChallenge).registerCommand
    ⟨netFnApp, 0x3A⟩ activateSession).registerCommand
    ⟨netFnApp, 0x3B⟩ setSessionPrivilegeLevel).registerCommand
    ⟨netFnApp, 0x3C⟩ closeSession

def sessionTable : Table := Table.registerSessionCommands {}

def Registered (id : CommandID) : Prop :=
  id.netFn = netFnApp ∧ 0x38 ≤ id.cmd ∧ id.cmd ≤ 0x3C

instance (id : CommandID) : Decidable (Registered id) := by
  unfold Registered
  infer_instance

theorem CommandID.toKey_toNat (id : CommandID) :
    id.toKey.toNat = 256 * id.netFn.toNat + id.cmd.toNat := by
  have hnetFn := id.netFn.toNat_lt
  have hcmd := id.cmd.toNat_lt
  unfold toKey
  rw [UInt32.toNat_or, UInt32.toNat_shiftLeft, UInt8.toNat_toUInt32, UInt8.toNat_toUInt32]
  simp only [UInt32.reduceToNat, Nat.reduceMod, Nat.shiftLeft_eq]
  rw [Nat.mod_eq_of_lt (by omega), Nat.mul_comm]
  exact (Nat.two_pow_add_eq_or_of_lt (i := 8) hcmd _).symm

theorem CommandID.toKey_inj {left right : CommandID} :
    left.toKey = right.toKey ↔ left = right := by
  refine ⟨fun h => ?_, fun h => h ▸ rfl⟩
  have hkey := congrArg UInt32.toNat h
  rw [left.toKey_toNat, right.toKey_toNat] at hkey
  have := left.cmd.toNat_lt
  have := right.cmd.toNat_lt
  obtain ⟨netFn, cmd⟩ := left
  obtain ⟨netFn', cmd'⟩ := right
  dsimp only at *
  rw [CommandID.mk.injEq, ← UInt8.toNat_inj, ← UInt8.toNat_inj]
  omega

theorem Table.executeCommand_registerCommand (t : Table) (id key : CommandID) (entry : Entry)
    (request : List UInt8) :
    (t.registerCommand key entry).executeCommand id request =
      if id = key then some (entry request) else t.executeCommand id request := by
  by_cases h : id = key <;> simp [executeCommand, registerCommand, CommandID.toKey_inj, h]

theorem sessionTable_executeCommand (id : CommandID) (request : List UInt8) :
    sessionTable.executeCommand id request =
      if id = ⟨netFnApp, 0x3C⟩ then some (closeSession request)
      else if id = ⟨netFnApp, 0x3B⟩ then some (setSessionPrivilegeLevel request)
      else if id = ⟨netFnApp, 0x3A⟩ then some (activateSession request)
      else if id = ⟨netFnApp, 0x39⟩ then some (getSessionChallenge request)
      else if id = ⟨netFnApp, 0x38⟩ then some (getChannelAuthCap request)
      else none := by
  simp only [sessionTable, Table.registerSessionCommands, Table.executeCommand_registerCommand]
  rfl

theorem registered_iff (id : CommandID) : Registered id ↔
    id = ⟨netFnApp, 0x3C⟩ ∨ id = ⟨netFnApp, 0x3B⟩ ∨ id = ⟨netFnApp, 0x3A⟩ ∨
      id = ⟨netFnApp, 0x39⟩ ∨ id = ⟨netFnApp, 0x38⟩ := by
  have hrange : ∀ cmd : UInt8, 0x38 ≤ cmd ∧ cmd ≤ 0x3C ↔
      cmd = 0x3C ∨ cmd = 0x3B ∨ cmd = 0x3A ∨ cmd = 0x39 ∨ cmd = 0x38 := by decide +kernel
  obtain ⟨netFn, cmd⟩ := id
  simp only [Registered, CommandID.mk.injEq, hrange, and_or_left]

theorem sessionTable_isSome (id : CommandID) (request : List UInt8) :
    (sessionTable.executeCommand id request).isSome ↔ Registered id := by
  rw [sessionTable_executeCommand, registered_iff]
  split_ifs <;> simp only [Option.isSome_some, Option.isSome_none, Bool.false_eq_true] <;> tauto

end SerialIpmi
