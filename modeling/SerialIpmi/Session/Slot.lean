import SerialIpmi.Library.Decoding
import SerialIpmi.Session.Runs
import SerialIpmi.Session.Timeouts

/-! What the session manager is for: one slot for a session. Nobody who calls it can tell the
table from the slot. -/
namespace SerialIpmi

open Decoding

inductive SessionRequest where
  | perform (call : SessionCall)
  | getSession (sessionId : UInt32)
  | getActiveSessionCount
  deriving DecidableEq, Repr

inductive SessionResult where
  | void
  | created (sessionId : UInt32)
  | found (success : Bool)
  | stored (session : Option Session)
  | active (count : Nat)
  deriving DecidableEq, Repr

def Manager.call (dist : Nat → Draw) (m : Manager) :
    SessionRequest → Manager × List SessionResult
  | .perform (.managerInit channelName) => (m.managerInit channelName, [.void])
  | .perform (.createSession now) =>
      let result := m.createSession dist now
      (result.2, [.created result.1])
  | .perform (.activateSession sessionId now) =>
      let result := m.activateSession sessionId now
      (result.2, [.found result.1])
  | .perform (.closeSession sessionId) =>
      let result := m.closeSession sessionId
      (result.2, [.found result.1])
  | .perform (.checkTimeouts timeoutSeconds now) =>
      (m.checkTimeoutsLoop timeoutSeconds now, [.void])
  | .getSession sessionId => (m, [.stored (m.getSession sessionId)])
  | .getActiveSessionCount => (m, [.active m.getActiveSessionCount])

/-- The slot, and how many sessions it has held so far. -/
structure Slot where
  session : Option Session := none
  created : Nat := 0
  deriving DecidableEq, Repr

namespace Slot

def getSession (sessionId : UInt32) (slot : Slot) : Option Session :=
  slot.session.filter fun s => s.id = sessionId

def modify (slot : Slot) (sessionId : UInt32) (f : Session → Session) : Slot :=
  { slot with session := slot.session.map fun s => if s.id = sessionId then f s else s }

/-- A session is created when the slot is free, under the next id that is drawn. -/
def createSession (dist : Nat → Draw) (now : TimePoint) (slot : Slot) : UInt32 × Slot :=
  match slot.session with
  | some _ => (0, slot)
  | none =>
      let sid := (dist slot.created).1
      (sid, { session := some { id := sid, isActive := true, lastActive := now },
              created := slot.created + 1 })

def activateSession (sessionId : UInt32) (now : TimePoint) (slot : Slot) : Bool × Slot :=
  ((slot.getSession sessionId).isSome,
    slot.modify sessionId fun s => { s with isActive := true, lastActive := now })

def closeSession (sessionId : UInt32) (slot : Slot) : Bool × Slot :=
  ((slot.getSession sessionId).isSome, slot.modify sessionId fun s => { s with isActive := false })

def checkTimeouts (timeoutSeconds : Int) (now : TimePoint) (slot : Slot) : Slot :=
  { slot with session := slot.session.filter fun s =>
    ¬ Manager.elapsed now s.lastActive > timeoutSeconds }

def getActiveSessionCount (slot : Slot) : Nat :=
  (slot.session.filter Session.isActive).toList.length

/-- The slot with the results of its calls. The name of the channel is nothing to it. -/
def call (dist : Nat → Draw) (slot : Slot) : SessionRequest → Slot × List SessionResult
  | .perform (.managerInit _) => (slot, [.void])
  | .perform (.createSession now) =>
      let result := slot.createSession dist now
      (result.2, [.created result.1])
  | .perform (.activateSession sessionId now) =>
      let result := slot.activateSession sessionId now
      (result.2, [.found result.1])
  | .perform (.closeSession sessionId) =>
      let result := slot.closeSession sessionId
      (result.2, [.found result.1])
  | .perform (.checkTimeouts timeoutSeconds now) =>
      (slot.checkTimeouts timeoutSeconds now, [.void])
  | .getSession sessionId => (slot, [.stored (slot.getSession sessionId)])
  | .getActiveSessionCount => (slot, [.active slot.getActiveSessionCount])

theorem modify_of_getSession_none {slot : Slot} {sessionId : UInt32}
    (h : slot.getSession sessionId = none) (f : Session → Session) :
    slot.modify sessionId f = slot := by
  obtain ⟨session, created⟩ := slot
  cases session with
  | none => rfl
  | some s =>
    have hid : s.id ≠ sessionId := by
      intro hid
      unfold getSession at h
      rw [Option.filter_some] at h
      simp [hid] at h
    simp [modify, hid]

end Slot

structure Manager.Holds (m : Manager) (slot : Slot) : Prop where
  limit : m.maxSessions = 1
  drawn : m.rng = slot.created
  entries : m.sessions.entries = slot.session.toList.map fun s => ⟨s.id, s⟩
  ids : ∀ s ∈ slot.session, s.id ≠ 0

namespace Manager

variable {m : Manager} {slot : Slot} {dist : Nat → Draw}

theorem holds_initial : Holds {} {} where
  limit := rfl
  drawn := rfl
  entries := rfl
  ids := by simp

theorem Holds.valid (h : m.Holds slot) : m.Valid where
  limit := h.limit
  size := by
    rw [h.entries, List.length_map]
    cases slot.session <;> simp
  ids := by
    intro kv hkv
    rw [h.entries, List.mem_map] at hkv
    obtain ⟨s, hs, rfl⟩ := hkv
    exact ⟨h.ids s (Option.mem_toList.mp hs), rfl⟩

theorem Holds.getSession (h : m.Holds slot) (sessionId : UInt32) :
    m.getSession sessionId = slot.getSession sessionId := by
  unfold Manager.getSession AList.lookup Slot.getSession
  rw [h.entries]
  cases slot.session with
  | none => rfl
  | some s =>
    rw [Option.filter_some]
    by_cases hid : s.id = sessionId
    · subst hid
      simp
    · have hother : sessionId ∉ List.keys [(⟨s.id, s⟩ : Sigma fun _ : UInt32 => Session)] := by
        simp [List.keys, Ne.symm hid]
      simpa [hid] using List.dlookup_eq_none.mpr hother

theorem Holds.getActiveSessionCount (h : m.Holds slot) :
    m.getActiveSessionCount = slot.getActiveSessionCount := by
  unfold Manager.getActiveSessionCount Slot.getActiveSessionCount
  rw [h.entries]
  cases slot.session with
  | none => rfl
  | some s =>
    rw [Option.filter_some]
    cases hactive : s.isActive <;> simp [hactive]

theorem Holds.modify (h : m.Holds slot) (sessionId : UInt32) {f : Session → Session}
    (hid : ∀ s, (f s).id = s.id) :
    Holds { m with sessions := m.sessions.modify sessionId f } (slot.modify sessionId f) := by
  refine ⟨h.limit, h.drawn, ?_, ?_⟩
  · change List.map _ m.sessions.entries = _
    rw [h.entries]
    unfold Slot.modify
    cases slot.session with
    | none => rfl
    | some s => by_cases hs : s.id = sessionId <;> simp [Sigma.map, hs, hid]
  · intro s hs
    obtain ⟨s', hs', rfl⟩ := Option.map_eq_some_iff.mp hs
    have hsame : (if s'.id = sessionId then f s' else s').id = s'.id := by
      split
      · exact hid s'
      · rfl
    rw [hsame]
    exact h.ids s' hs'

theorem Holds.createSession (h : m.Holds slot) (dist : Nat → Draw) (now : TimePoint) :
    (m.createSession dist now).2.Holds (slot.createSession dist now).2 ∧
      (m.createSession dist now).1 = (slot.createSession dist now).1 := by
  unfold Slot.createSession
  rcases createSession_cases h.valid dist now with ⟨hstored, hcreate⟩ | ⟨hempty, hcreate⟩
  · cases hslot : slot.session with
    | none =>
      rw [h.entries, hslot] at hstored
      exact absurd rfl hstored
    | some s =>
      rw [hcreate]
      exact ⟨h, rfl⟩
  · cases hslot : slot.session with
    | some s =>
      rw [h.entries, hslot] at hempty
      exact absurd hempty (List.cons_ne_nil _ _)
    | none =>
      rw [hcreate, h.drawn]
      refine ⟨⟨h.limit, rfl, entries_insert_of_empty hempty _ _, ?_⟩, rfl⟩
      intro s hs
      rw [← Option.some.inj hs]
      exact (dist slot.created).2

theorem Holds.activateSession (h : m.Holds slot) (sessionId : UInt32) (now : TimePoint) :
    (m.activateSession sessionId now).2.Holds (slot.activateSession sessionId now).2 ∧
      (m.activateSession sessionId now).1 = (slot.activateSession sessionId now).1 := by
  unfold Manager.activateSession Slot.activateSession
  rw [h.getSession]
  cases hstored : slot.getSession sessionId with
  | none =>
    rw [Slot.modify_of_getSession_none hstored]
    exact ⟨h, rfl⟩
  | some s =>
    refine ⟨h.modify sessionId ?_, rfl⟩
    intro s
    rfl

theorem Holds.closeSession (h : m.Holds slot) (sessionId : UInt32) :
    (m.closeSession sessionId).2.Holds (slot.closeSession sessionId).2 ∧
      (m.closeSession sessionId).1 = (slot.closeSession sessionId).1 := by
  unfold Manager.closeSession Slot.closeSession
  rw [h.getSession]
  cases hstored : slot.getSession sessionId with
  | none =>
    rw [Slot.modify_of_getSession_none hstored]
    exact ⟨h, rfl⟩
  | some s =>
    refine ⟨h.modify sessionId ?_, rfl⟩
    intro s
    rfl

theorem Holds.checkTimeouts (h : m.Holds slot) (timeoutSeconds : Int) (now : TimePoint) :
    (m.checkTimeouts timeoutSeconds now).Holds (slot.checkTimeouts timeoutSeconds now) := by
  refine ⟨h.limit, h.drawn, ?_, ?_⟩
  · change List.filter _ m.sessions.entries = _
    rw [h.entries]
    unfold Slot.checkTimeouts
    cases slot.session with
    | none => rfl
    | some s =>
      by_cases hidle : elapsed now s.lastActive > timeoutSeconds
      · simp [Option.filter_some, hidle]
      · simp [Option.filter_some, hidle, Int.not_lt.mp hidle]
  · intro s hs
    exact h.ids s (Option.mem_filter_iff.mp hs).1

theorem Holds.call (h : m.Holds slot) (dist : Nat → Draw) (request : SessionRequest) :
    (m.call dist request).1.Holds (slot.call dist request).1 ∧
      (m.call dist request).2 = (slot.call dist request).2 := by
  cases request with
  | getSession sessionId =>
    have hstored := h.getSession sessionId
    exact ⟨h, congrArg (fun s => [SessionResult.stored s]) hstored⟩
  | getActiveSessionCount =>
    have hactive := h.getActiveSessionCount
    exact ⟨h, congrArg (fun n => [SessionResult.active n]) hactive⟩
  | perform call =>
    cases call with
    | managerInit channelName => exact ⟨⟨rfl, h.drawn, h.entries, h.ids⟩, rfl⟩
    | createSession now =>
      obtain ⟨hnext, hsid⟩ := h.createSession dist now
      exact ⟨hnext, congrArg (fun sid => [SessionResult.created sid]) hsid⟩
    | activateSession sessionId now =>
      obtain ⟨hnext, hfound⟩ := h.activateSession sessionId now
      exact ⟨hnext, congrArg (fun success => [SessionResult.found success]) hfound⟩
    | closeSession sessionId =>
      obtain ⟨hnext, hfound⟩ := h.closeSession sessionId
      exact ⟨hnext, congrArg (fun success => [SessionResult.found success]) hfound⟩
    | checkTimeouts timeoutSeconds now =>
      unfold Manager.call Slot.call
      dsimp only
      rw [checkTimeoutsLoop_eq]
      exact ⟨h.checkTimeouts timeoutSeconds now, rfl⟩

def handedOut : SessionResult → Option UInt32
  | .created sessionId => if sessionId = 0 then none else some sessionId
  | _ => none

theorem handedOut_call (dist : Nat → Draw) (slot : Slot) (request : SessionRequest) :
    ((slot.call dist request).1.created = slot.created ∧
      (slot.call dist request).2.filterMap handedOut = []) ∨
    ((slot.call dist request).1.created = slot.created + 1 ∧
      (slot.call dist request).2.filterMap handedOut = [(dist slot.created).1]) := by
  cases request with
  | getSession sessionId => exact Or.inl ⟨rfl, rfl⟩
  | getActiveSessionCount => exact Or.inl ⟨rfl, rfl⟩
  | perform call =>
    cases call with
    | managerInit channelName => exact Or.inl ⟨rfl, rfl⟩
    | activateSession sessionId now => exact Or.inl ⟨rfl, rfl⟩
    | closeSession sessionId => exact Or.inl ⟨rfl, rfl⟩
    | checkTimeouts timeoutSeconds now => exact Or.inl ⟨rfl, rfl⟩
    | createSession now =>
      unfold Slot.call Slot.createSession
      cases slot.session with
      | some s => exact Or.inl ⟨rfl, rfl⟩
      | none =>
        have hnonzero : (dist slot.created).1 ≠ 0 := (dist slot.created).2
        right
        simp [handedOut, hnonzero]

theorem handedOut_run (dist : Nat → Draw) (requests : List SessionRequest) :
    (Decoding.run (Slot.call dist) {} requests).2.filterMap handedOut =
      (List.range (Decoding.run (Slot.call dist) {} requests).1.created).map fun i => (dist i).1 := by
  induction requests using List.reverseRecOn with
  | nil => rfl
  | append_singleton requests request ih =>
    rw [run_append, List.filterMap_append, ih, run_cons, run_nil, List.append_nil]
    rcases handedOut_call dist (Decoding.run (Slot.call dist) {} requests).1 request with
      ⟨hsame, hnone⟩ | ⟨hnext, hone⟩
    · rw [hsame, hnone, List.append_nil]
    · rw [hnext, hone, List.range_succ, List.map_append]
      rfl

/-- Over every history of calls the manager returns what the slot returns, and the ids that it
hands out are the successive draws of the generator, of which none is skipped or drawn twice. -/
theorem refines_slot (dist : Nat → Draw) (requests : List SessionRequest) :
    let slot := Decoding.run (Slot.call dist) {} requests
    let manager := Decoding.run (Manager.call dist) {} requests
    manager.2 = slot.2 ∧
      manager.2.filterMap handedOut = (List.range manager.1.rng).map fun i => (dist i).1 := by
  intro slot manager
  have hcall : ∀ (m : Manager) (slot : Slot) request, m.Holds slot →
      (m.call dist request).1.Holds (slot.call dist request).1 ∧
        (m.call dist request).2 = (slot.call dist request).2 := by
    intro m slot request h
    exact h.call dist request
  obtain ⟨hholds, hresults⟩ := run_simulation hcall holds_initial requests
  refine ⟨hresults, ?_⟩
  change (Decoding.run (Manager.call dist) {} requests).2.filterMap handedOut = _
  rw [hresults, handedOut_run, ← hholds.drawn]

end Manager

end SerialIpmi
