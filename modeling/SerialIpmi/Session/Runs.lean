import SerialIpmi.Session.Manager
import SerialIpmi.Library.Runs

/-! The session manager over whole histories of calls: at most one session is stored, and a
closed one keeps its place until it times out. -/
namespace SerialIpmi.Manager

variable {m : Manager} {dist : Nat → Draw}

structure Valid (m : Manager) : Prop where
  limit : m.maxSessions = 1
  size : m.sessions.entries.length ≤ 1
  ids : ∀ kv ∈ m.sessions.entries, kv.1 ≠ 0 ∧ kv.2.id = kv.1

theorem valid_initial : Valid {} where
  limit := rfl
  size := Nat.zero_le 1
  ids := by simp

theorem getSession_of_empty (h : m.sessions.entries = []) (sessionId : UInt32) :
    m.getSession sessionId = none := by
  unfold getSession AList.lookup
  rw [h]
  rfl

theorem entries_insert_of_empty (h : m.sessions.entries = []) (sessionId : UInt32) (s : Session) :
    (m.sessions.insert sessionId s).entries = [⟨sessionId, s⟩] := by
  have habsent : sessionId ∉ m.sessions := by
    rw [AList.mem_keys, AList.keys, h]
    exact List.not_mem_nil
  rw [AList.entries_insert_of_notMem habsent, h]

/-- The loop takes the first id that it draws if that one is not in use. -/
theorem drawId_fresh (loop : Attempt) (h : m.getSession (dist loop.rng) = none) (rounds : Nat) :
    m.drawId dist (rounds + 1) loop =
      { sid := dist loop.rng, attempts := loop.attempts + 1, rng := loop.rng + 1 } := by
  unfold drawId
  simp [h]

theorem activateSession_fst (sessionId : UInt32) (now : TimePoint) (m : Manager) :
    (m.activateSession sessionId now).1 = (m.getSession sessionId).isSome := by
  unfold activateSession
  cases m.getSession sessionId <;> rfl

theorem createSession_cases (hm : m.Valid) (dist : Nat → Draw) (now : TimePoint) :
    (m.sessions.entries ≠ [] ∧ m.createSession dist now = (0, m)) ∨
    (m.sessions.entries = [] ∧ m.createSession dist now = ((dist m.rng).1, { m with
      rng := m.rng + 1
      sessions := m.sessions.insert (dist m.rng).1
        { id := (dist m.rng).1, isActive := true, lastActive := now } })) := by
  by_cases hempty : m.sessions.entries = []
  · right
    have hdraw := drawId_fresh { rng := m.rng } (getSession_of_empty hempty (dist m.rng)) 99
    refine ⟨hempty, ?_⟩
    unfold createSession
    simp [hempty, hm.limit, hdraw]
  · left
    have hfull : 1 ≤ m.sessions.entries.length := List.length_pos_iff.mpr hempty
    refine ⟨hempty, ?_⟩
    unfold createSession
    rw [hm.limit, if_pos hfull]

theorem perform_cases (hm : m.Valid) (dist : Nat → Draw) (call : SessionCall) :
    (m.perform dist call).sessions = m.sessions ∨
    (∃ now, call = .createSession now ∧ m.sessions.entries = [] ∧
      (m.createSession dist now).1 = (dist m.rng).1 ∧
      (m.perform dist call).sessions = m.sessions.insert (dist m.rng).1
        { id := (dist m.rng).1, isActive := true, lastActive := now }) ∨
    (∃ sessionId now, call = .activateSession sessionId now ∧
      (m.getSession sessionId).isSome ∧
      (m.perform dist call).sessions = m.sessions.modify sessionId fun s =>
        { s with isActive := true, lastActive := now }) ∨
    (∃ sessionId, call = .closeSession sessionId ∧ (m.getSession sessionId).isSome ∧
      (m.perform dist call).sessions = m.sessions.modify sessionId fun s =>
        { s with isActive := false }) ∨
    ∃ timeoutSeconds now, call = .checkTimeouts timeoutSeconds now ∧
      (m.perform dist call).sessions =
        m.sessions.sweep fun s => elapsed now s.lastActive > timeoutSeconds := by
  cases call with
  | managerInit channelName => exact Or.inl rfl
  | createSession now =>
    rcases createSession_cases hm dist now with ⟨-, hcreate⟩ | ⟨hempty, hcreate⟩
    · left
      rw [perform, hcreate]
    · right; left
      refine ⟨now, rfl, hempty, by rw [hcreate], ?_⟩
      rw [perform, hcreate]
  | activateSession sessionId now =>
    cases hstored : m.getSession sessionId with
    | none => left; simp [perform, activateSession, hstored]
    | some s =>
      right; right; left
      refine ⟨sessionId, now, rfl, Option.isSome_of_eq_some hstored, ?_⟩
      simp [perform, activateSession, hstored]
  | closeSession sessionId =>
    cases hstored : m.getSession sessionId with
    | none => left; simp [perform, closeSession, hstored]
    | some s =>
      right; right; right; left
      refine ⟨sessionId, rfl, Option.isSome_of_eq_some hstored, ?_⟩
      simp [perform, closeSession, hstored]
  | checkTimeouts timeoutSeconds now =>
    right; right; right; right
    exact ⟨timeoutSeconds, now, rfl, rfl⟩

theorem perform_maxSessions (hm : m.Valid) (dist : Nat → Draw) (call : SessionCall) :
    (m.perform dist call).maxSessions = 1 := by
  cases call with
  | managerInit channelName => rfl
  | checkTimeouts timeoutSeconds now => exact hm.limit
  | createSession now =>
    rcases createSession_cases hm dist now with ⟨-, hcreate⟩ | ⟨-, hcreate⟩
    · rw [perform, hcreate]
      exact hm.limit
    · rw [perform, hcreate]
      exact hm.limit
  | activateSession sessionId now =>
    rw [perform, activateSession]
    cases m.getSession sessionId <;> exact hm.limit
  | closeSession sessionId =>
    rw [perform, closeSession]
    cases m.getSession sessionId <;> exact hm.limit

theorem Valid.of_modify {m' : Manager} {sessionId : UInt32} {f : Session → Session} (hm : m.Valid)
    (hlimit : m'.maxSessions = 1) (h : m'.sessions = m.sessions.modify sessionId f)
    (hid : ∀ s, (f s).id = s.id) : m'.Valid := by
  refine ⟨hlimit, ?_, ?_⟩
  · rw [h]
    unfold AList.modify
    rw [List.length_map]
    exact hm.size
  · intro kv hkv
    rw [h] at hkv
    obtain ⟨kv', hmem, rfl⟩ := List.mem_map.mp hkv
    have hkv' := hm.ids kv' hmem
    have hsame : (if kv'.1 = sessionId then f kv'.2 else kv'.2).id = kv'.2.id := by
      split
      · exact hid kv'.2
      · rfl
    exact ⟨hkv'.1, hsame.trans hkv'.2⟩

theorem Valid.perform (hm : m.Valid) (dist : Nat → Draw) (call : SessionCall) :
    (m.perform dist call).Valid := by
  have hlimit := perform_maxSessions hm dist call
  rcases perform_cases hm dist call with hsame | ⟨now, -, hempty, -, hcreated⟩ |
    ⟨sessionId, now, -, -, hactivated⟩ | ⟨sessionId, -, -, hclosed⟩ | ⟨timeout, now, -, hswept⟩
  · exact ⟨hlimit, hsame ▸ hm.size, hsame ▸ hm.ids⟩
  · refine ⟨hlimit, ?_, ?_⟩
    · rw [hcreated, entries_insert_of_empty hempty]
      exact Nat.le_refl 1
    · intro kv hkv
      rw [hcreated, entries_insert_of_empty hempty, List.mem_singleton] at hkv
      rw [hkv]
      exact ⟨(dist m.rng).2, rfl⟩
  · apply hm.of_modify hlimit hactivated
    intro s
    rfl
  · apply hm.of_modify hlimit hclosed
    intro s
    rfl
  · refine ⟨hlimit, ?_, ?_⟩
    · rw [hswept]
      unfold AList.sweep
      exact Nat.le_trans (List.length_filter_le _ _) hm.size
    · intro kv hkv
      rw [hswept] at hkv
      exact hm.ids kv (List.mem_of_mem_filter hkv)

theorem Valid.run (hm : m.Valid) (dist : Nat → Draw) (calls : List SessionCall) :
    (m.run dist calls).Valid := by
  unfold Manager.run
  apply List.foldlRecOn calls (Manager.perform dist) hm
  intro m hm call _
  exact hm.perform dist call

/-- In every reachable state the table holds at most one session, under its own id. Creating a
session fails exactly when one is stored, and then changes nothing; otherwise it stores an
active session under a new id, at the first attempt. -/
theorem store_invariant (dist : Nat → Draw) (calls : List SessionCall) (now : TimePoint) :
    let m := Manager.run dist calls {}
    let created := m.createSession dist now
    m.sessions.entries.length ≤ 1 ∧
      (∀ kv ∈ m.sessions.entries, kv.1 ≠ 0 ∧ kv.2.id = kv.1) ∧
      m.getActiveSessionCount ≤ m.sessions.entries.length ∧
      (created.1 = 0 ↔ m.sessions.entries ≠ []) ∧
      (created.1 = 0 → created.2 = m) ∧
      (created.1 ≠ 0 → m.getSession created.1 = none ∧
        ∃ s, created.2.getSession created.1 = some s ∧ s.isActive = true) ∧
      (m.sessions.entries.length < m.maxSessions →
        (m.drawId dist 100 { rng := m.rng }).attempts < 100) := by
  intro m created
  have hm : m.Valid := valid_initial.run dist calls
  have hcount : m.getActiveSessionCount ≤ m.sessions.entries.length := List.countP_le_length
  have hattempts : m.sessions.entries.length < m.maxSessions →
      (m.drawId dist 100 { rng := m.rng }).attempts < 100 := by
    intro hfree
    rw [hm.limit, Nat.lt_one_iff, List.length_eq_zero_iff] at hfree
    rw [drawId_fresh _ (getSession_of_empty hfree _) 99]
    exact Nat.one_lt_succ_succ 98
  refine ⟨hm.size, hm.ids, hcount, ?_⟩
  rcases createSession_cases hm dist now with ⟨hstored, hcreate⟩ | ⟨hempty, hcreate⟩
  · have hcreated : created = (0, m) := hcreate
    rw [hcreated]
    exact ⟨iff_of_true rfl hstored, fun _ => rfl, fun h => absurd rfl h, hattempts⟩
  · have hcreated : created = _ := hcreate
    have hnonzero : (dist m.rng).1 ≠ 0 := (dist m.rng).2
    rw [hcreated]
    refine ⟨iff_of_false hnonzero (not_not_intro hempty), fun h => absurd h hnonzero, ?_, hattempts⟩
    intro _
    exact ⟨getSession_of_empty hempty _, _, AList.lookup_insert _, rfl⟩

/-- A session can be created whenever the limit exceeds the number of active sessions. -/
def ReleasesSlots (dist : Nat → Draw) (m : Manager) : Prop :=
  ∀ now, m.getActiveSessionCount < m.maxSessions → (m.createSession dist now).1 ≠ 0

def Closes (m : Manager) : SessionCall → Prop
  | .closeSession sessionId => (m.getSession sessionId).isSome
  | _ => False

def AllActive (m : Manager) : Prop := ∀ kv ∈ m.sessions.entries, kv.2.isActive = true

theorem releasesSlots_iff (hm : m.Valid) (dist : Nat → Draw) :
    ReleasesSlots dist m ↔ AllActive m := by
  unfold ReleasesSlots AllActive
  rw [hm.limit]
  constructor
  · intro hreleases kv hkv
    by_contra hclosed
    have hnone : m.getActiveSessionCount = 0 := by
      obtain ⟨kv', hone⟩ : ∃ kv', m.sessions.entries = [kv'] := by
        apply List.length_eq_one_iff.mp
        exact Nat.le_antisymm hm.size (List.length_pos_of_mem hkv)
      rw [hone, List.mem_singleton] at hkv
      unfold getActiveSessionCount
      rw [hone, ← hkv]
      simp [hclosed]
    rcases createSession_cases hm dist 0 with ⟨-, hcreate⟩ | ⟨hempty, -⟩
    · apply hreleases 0 (by rw [hnone]; exact Nat.one_pos)
      rw [hcreate]
    · rw [hempty] at hkv
      exact List.not_mem_nil hkv
  · intro hactive now hcount
    rcases createSession_cases hm dist now with ⟨hstored, -⟩ | ⟨-, hcreate⟩
    · have hall : m.getActiveSessionCount = m.sessions.entries.length :=
        List.countP_eq_length.mpr hactive
      have := List.length_pos_iff.mpr hstored
      omega
    · rw [hcreate]
      exact (dist m.rng).2

theorem AllActive.perform {call : SessionCall} (hactive : m.AllActive) (hm : m.Valid)
    (hcall : ¬ Closes m call) : (m.perform dist call).AllActive := by
  unfold AllActive at hactive ⊢
  intro kv hkv
  rcases perform_cases hm dist call with hsame | ⟨now, -, hempty, -, hcreated⟩ |
    ⟨sessionId, now, -, -, hactivated⟩ | ⟨sessionId, rfl, hstored, -⟩ | ⟨timeout, now, -, hswept⟩
  · rw [hsame] at hkv
    exact hactive kv hkv
  · rw [hcreated, entries_insert_of_empty hempty, List.mem_singleton] at hkv
    rw [hkv]
  · rw [hactivated] at hkv
    obtain ⟨kv', hmem, rfl⟩ := List.mem_map.mp hkv
    change (if kv'.1 = sessionId then { kv'.2 with isActive := true, lastActive := now }
      else kv'.2).isActive = true
    split
    · rfl
    · exact hactive kv' hmem
  · exact absurd hstored hcall
  · rw [hswept] at hkv
    exact hactive kv (List.mem_of_mem_filter hkv)

theorem Closes.not_allActive {call : SessionCall} (hcall : Closes m call) :
    ¬ (m.perform dist call).AllActive := by
  unfold Closes at hcall
  split at hcall
  case h_2 => exact False.elim hcall
  case h_1 sessionId =>
    obtain ⟨s, hs⟩ := Option.isSome_iff_exists.mp hcall
    have hclosed : (m.perform dist (.closeSession sessionId)).getSession sessionId =
        some { s with isActive := false } := by
      unfold getSession at hs ⊢
      simp [Manager.perform, closeSession, getSession, hs, AList.lookup_modify]
    intro hactive
    exact Bool.false_ne_true (hactive ⟨sessionId, _⟩ (AList.mem_lookup_iff.mp hclosed))

/-- Along a run from the initial state, a session can be created in every state with a free
slot exactly when no call of the run closes a session that is stored. -/
theorem slots_released_iff (dist : Nat → Draw) (calls : List SessionCall) :
    (∀ done, done <+: calls → ReleasesSlots dist (Manager.run dist done {})) ↔
      Runs.Avoids (Manager.perform dist) Closes {} calls := by
  rw [← Runs.always_iff (P := fun m => m.Valid ∧ m.AllActive)]
  · apply forall₂_congr
    intro done _
    have hm : (Manager.run dist done {}).Valid := valid_initial.run dist done
    rw [releasesSlots_iff hm]
    exact ⟨fun h => ⟨hm, h⟩, fun h => h.2⟩
  · intro m call h hcall
    exact ⟨h.1.perform dist call, h.2.perform h.1 hcall⟩
  · intro m call hcall h
    exact hcall.not_allActive h.2
  · refine ⟨valid_initial, ?_⟩
    intro kv hkv
    simp at hkv

/-- A session is created and closed: no session is active, and none can be created. -/
theorem slot_kept_by_closed :
    ¬ ∀ (dist : Nat → Draw) (calls : List SessionCall),
      ReleasesSlots dist (Manager.run dist calls {}) := by
  intro h
  exact h (fun _ => ⟨1, by decide⟩) [.createSession 0, .closeSession 1] 0 (by decide) (by decide)

/-- The call returns this session as created, or activates it again. -/
def Reopens (dist : Nat → Draw) (sessionId : UInt32) (m : Manager) : SessionCall → Prop
  | .createSession now => (m.createSession dist now).1 = sessionId
  | .activateSession sid now => sid = sessionId ∧ (m.activateSession sid now).1 = true
  | _ => False

def Closed (sessionId : UInt32) (m : Manager) : Prop :=
  ∀ s, m.getSession sessionId = some s → s.isActive = false

theorem closeSession_closed (sessionId : UInt32) (m : Manager) :
    Closed sessionId (m.closeSession sessionId).2 := by
  intro s hs
  unfold closeSession at hs
  split at hs
  case h_1 hnone => simp [hnone] at hs
  case h_2 hstored =>
    unfold getSession at hs hstored
    rw [AList.lookup_modify, hstored] at hs
    simp at hs
    rw [← hs]

theorem Closed.perform {sessionId : UInt32} {call : SessionCall} (hclosed : Closed sessionId m)
    (hm : m.Valid) (hcall : ¬ Reopens dist sessionId m call) :
    Closed sessionId (m.perform dist call) := by
  intro s hs
  unfold Closed at hclosed
  unfold getSession at hclosed hs
  rcases perform_cases hm dist call with hsame | ⟨now, rfl, -, hcreate, hcreated⟩ |
    ⟨sid, now, rfl, hstored, hactivated⟩ | ⟨sid, -, -, hnow⟩ | ⟨timeout, now, -, hswept⟩
  · rw [hsame] at hs
    exact hclosed s hs
  · have hother : sessionId ≠ (dist m.rng).1 := by
      intro hsame
      exact hcall (hcreate.trans hsame.symm)
    rw [hcreated, AList.lookup_insert_ne hother] at hs
    exact hclosed s hs
  · have hother : sessionId ≠ sid := by
      intro hsame
      exact hcall ⟨hsame.symm, (activateSession_fst sid now m).trans hstored⟩
    rw [hactivated, AList.lookup_modify, Option.map_eq_some_iff] at hs
    obtain ⟨s', hs', rfl⟩ := hs
    rw [if_neg hother]
    exact hclosed s' hs'
  · rw [hnow, AList.lookup_modify, Option.map_eq_some_iff] at hs
    obtain ⟨s', hs', rfl⟩ := hs
    split
    · rfl
    · exact hclosed s' hs'
  · rw [hswept, AList.lookup_sweep, Option.filter_eq_some_iff] at hs
    exact hclosed s hs.1

/-- After a session was closed, whatever was called before, no call makes it active until one
returns it as created or activates it again. -/
theorem closed_stays_closed (dist : Nat → Draw) (before after : List SessionCall)
    (sessionId : UInt32) :
    let closed := ((Manager.run dist before {}).closeSession sessionId).2
    Runs.Avoids (Manager.perform dist) (Reopens dist sessionId) closed after →
      ∀ s, (Manager.run dist after closed).getSession sessionId = some s →
        s.isActive = false := by
  intro closed hafter
  have hm : closed.Valid := (valid_initial.run dist before).perform dist (.closeSession sessionId)
  have hkept := Runs.kept (P := fun m => m.Valid ∧ Closed sessionId m)
    (fun m call h hcall => ⟨h.1.perform dist call, h.2.perform h.1 hcall⟩)
    ⟨hm, closeSession_closed sessionId _⟩ hafter
  exact hkept.2

theorem closed_stays_closed_kept :
    let dist : Nat → Draw := fun _ => ⟨1, by decide⟩
    let closed := ((Manager.run dist [.createSession 0] {}).closeSession 1).2
    ∃ s, (Manager.run dist [.createSession 5, .checkTimeouts 60 9] closed).getSession 1 = some s ∧
      s.isActive = false := by
  intro dist closed
  have hafter : Runs.Avoids (Manager.perform dist) (Reopens dist 1) closed
      [.createSession 5, .checkTimeouts 60 9] := by
    rw [Runs.avoids_cons, Runs.avoids_cons]
    refine ⟨?_, not_false, Runs.avoids_nil⟩
    exact (by decide : (closed.createSession dist 5).1 ≠ 1)
  have hs : (Manager.run dist [.createSession 5, .checkTimeouts 60 9] closed).getSession 1 =
      some { id := 1, isActive := false, lastActive := 0 } := by decide
  exact ⟨_, hs, closed_stays_closed dist [.createSession 0] _ 1 hafter _ hs⟩

/-- A closed session becomes active again without being created again. -/
theorem closed_reactivated :
    let dist : Nat → Draw := fun _ => ⟨1, by decide⟩
    let closed := (Manager.run dist [.createSession 0] {}).closeSession 1
    closed.1 = true ∧ ∃ s, (Manager.run dist [.activateSession 1 5] closed.2).getSession 1 = some s ∧
      s.isActive = true := by
  intro dist closed
  refine ⟨by decide, { id := 1, isActive := true, lastActive := 5 }, by decide, rfl⟩

end SerialIpmi.Manager
