import SerialIpmi.Session.Manager

/-! The timeout check with its loop over a table from which it erases. -/
namespace SerialIpmi.Manager

/-- The loop of `checkTimeouts`, over the entries in the order in which the table holds them. -/
def checkTimeoutsLoop (timeoutSeconds : Int) (now : TimePoint) (m : Manager) : Manager :=
  { m with sessions := {
      entries := AList.eraseFrom (fun kv => elapsed now kv.2.lastActive > timeoutSeconds)
        m.sessions.entries 0
      nodupKeys := by
        rw [AList.eraseFrom_zero]
        exact m.sessions.nodupKeys.sublist List.filter_sublist } }

theorem checkTimeoutsLoop_eq (timeoutSeconds : Int) (now : TimePoint) (m : Manager) :
    m.checkTimeoutsLoop timeoutSeconds now = m.checkTimeouts timeoutSeconds now := by
  unfold checkTimeoutsLoop checkTimeouts
  congr 1
  apply AList.ext
  exact AList.eraseFrom_zero _ _

theorem elapsed_eq {now lastActive : TimePoint} (h : lastActive ≤ now) :
    elapsed now lastActive = (now - lastActive) / 1000000000 := by
  unfold elapsed
  apply Int.tdiv_eq_ediv_of_nonneg
  exact Int.sub_nonneg_of_le h

theorem getSession_checkTimeouts (timeoutSeconds : Int) (now : TimePoint) (m : Manager)
    (sessionId : UInt32) : (m.checkTimeouts timeoutSeconds now).getSession sessionId =
      (m.getSession sessionId).filter fun s => elapsed now s.lastActive ≤ timeoutSeconds := by
  unfold getSession checkTimeouts
  rw [AList.lookup_sweep]
  congr 1
  funext s
  rw [← decide_not, decide_eq_decide]
  exact Int.not_lt

/-- The check removes exactly the sessions that were idle for more whole seconds than the
timeout, whatever the order of the table, and leaves the others as they are. Two checks at
one instant remove what the one with the smaller timeout removes. -/
theorem timeouts_exact (m : Manager) (now : TimePoint) (timeoutSeconds t₁ t₂ : Int)
    (hnow : ∀ kv ∈ m.sessions.entries, kv.2.lastActive ≤ now) :
    (∀ sessionId, (m.checkTimeoutsLoop timeoutSeconds now).getSession sessionId =
      (m.getSession sessionId).filter fun s =>
        (now - s.lastActive) / 1000000000 ≤ timeoutSeconds) ∧
    (∀ m' : Manager, m'.sessions.entries.Perm m.sessions.entries → ∀ sessionId,
      (m'.checkTimeoutsLoop timeoutSeconds now).getSession sessionId =
        (m.checkTimeoutsLoop timeoutSeconds now).getSession sessionId) ∧
    ((m.checkTimeoutsLoop t₁ now).checkTimeoutsLoop t₂ now).sessions =
      (m.checkTimeoutsLoop (min t₁ t₂) now).sessions := by
  refine ⟨?_, ?_, ?_⟩
  · intro sessionId
    rw [checkTimeoutsLoop_eq, getSession_checkTimeouts]
    cases hstored : m.getSession sessionId with
    | none => rfl
    | some s =>
      have hidle := elapsed_eq (hnow ⟨sessionId, s⟩ (AList.mem_lookup_iff.mp hstored))
      simp only at hidle
      simp only [Option.filter_some, hidle]
  · intro m' horder sessionId
    have hsame : m'.getSession sessionId = m.getSession sessionId := AList.perm_lookup horder
    rw [checkTimeoutsLoop_eq, checkTimeoutsLoop_eq, getSession_checkTimeouts,
      getSession_checkTimeouts, hsame]
  · rw [checkTimeoutsLoop_eq, checkTimeoutsLoop_eq, checkTimeoutsLoop_eq]
    unfold checkTimeouts
    dsimp only
    rw [AList.sweep_sweep]
    congr 1
    funext s
    rw [← Bool.decide_or, decide_eq_decide]
    omega

theorem timeouts_exact_boundary :
    let kept : Session := { id := 1, isActive := false, lastActive := 100000000 }
    let m : Manager := { sessions := (AList.insert 2 { id := 2, isActive := true, lastActive := 0 }
      (AList.insert 1 kept ∅)) }
    (m.checkTimeoutsLoop 60 61000000000).getSession 1 = some kept ∧
      (m.checkTimeoutsLoop 60 61000000000).getSession 2 = none := by
  intro kept m
  have hexact := (timeouts_exact m 61000000000 60 60 60 (by decide)).1
  rw [hexact, hexact]
  exact ⟨by decide, by decide⟩

end SerialIpmi.Manager
