import SerialIpmi.Basic.Stream

/-! The accounts of the Basic-mode parser: counters, queue and popped frames agree after every
call, and a queued frame always has a header. -/
namespace SerialIpmi.Basic

open Decoding Framing

/-- The counters against the frames that were popped and those that wait, modulo 2^64. -/
structure Accounts (popped : List (List UInt8)) (p : Parser) : Prop where
  received : p.stats.framesReceived = p.stats.framesValid + p.stats.framesChecksumError
  valid : p.stats.framesValid = UInt64.ofNat (p.completedMessages.length + popped.length)
  bytes : p.stats.bytesReceived =
    UInt64.ofNat ((popped ++ p.completedMessages).map List.length).sum
  queued : ∀ m ∈ p.completedMessages, validateChecksum m = true
  buffer : p.state = .msgNone ∨ p.state = .msgDone → p.msgBuffer = []

theorem accounts_fresh : Accounts [] {} where
  received := rfl
  valid := rfl
  bytes := rfl
  queued := by simp
  buffer := fun _ => rfl

variable {popped : List (List UInt8)} {p : Parser}

theorem feed_buffer (h : p.state = .msgNone ∨ p.state = .msgDone → p.msgBuffer = []) (ch : UInt8) :
    (p.feed ch).state = .msgNone ∨ (p.feed ch).state = .msgDone → (p.feed ch).msgBuffer = [] := by
  obtain ⟨stats, state, msgBuffer, completedMessages⟩ := p
  cases state with
  | msgNone => by_cases hstart : ch = bmcStart <;> simp_all [Parser.feed]
  | msgDone => by_cases hstart : ch = bmcStart <;> simp_all [Parser.feed]
  | msgEscape => simp [Parser.feed]
  | msgInProgress =>
    by_cases hescape : ch = bmcEscape
    · simp [Parser.feed, hescape]
    by_cases hstop : ch = bmcStop
    · have hne : bmcStop ≠ bmcEscape := by decide
      simp [Parser.feed, hstop, hne]
    by_cases hstart : ch = bmcStart
    · have hne : bmcStart ≠ bmcEscape ∧ bmcStart ≠ bmcStop := by decide
      simp [Parser.feed, hstart, hne]
    · simp [Parser.feed, hescape, hstop, hstart]

theorem Accounts.feed (h : Accounts popped p) (ch : UInt8) : Accounts popped (p.feed ch) := by
  have hbuffer := feed_buffer h.buffer ch
  obtain ⟨-, hqueue, hstats⟩ := p.feed_spec ch
  rcases basicCode.step_cases p.position ch with hnone | ⟨frame, -, -, hstep⟩
  · rw [hnone, List.filterMap_nil, List.append_nil] at hqueue
    rw [hnone, List.foldl_nil] at hstats
    exact ⟨hstats ▸ h.received, by rw [hstats, hqueue]; exact h.valid,
      by rw [hstats, hqueue]; exact h.bytes, hqueue ▸ h.queued, hbuffer⟩
  · rw [hstep, filterMap_keep] at hqueue
    rw [hstep, List.foldl_cons, List.foldl_nil] at hstats
    cases hvalid : validateChecksum frame with
    | false =>
      have hsame : (p.feed ch).completedMessages = p.completedMessages := by
        rw [hqueue]
        simp [hvalid]
      have hcount : (p.feed ch).stats = { p.stats with
          framesReceived := p.stats.framesReceived + 1
          framesChecksumError := p.stats.framesChecksumError + 1 } := by
        rw [hstats]
        simp [Stats.count, hvalid]
      refine ⟨?_, ?_, ?_, hsame ▸ h.queued, hbuffer⟩
      · rw [hcount, ← UInt64.add_assoc, ← h.received]
      · rw [hcount, hsame]
        exact h.valid
      · rw [hcount, hsame]
        exact h.bytes
    | true =>
      have hpushed : (p.feed ch).completedMessages = p.completedMessages ++ [frame] := by
        rw [hqueue]
        simp [hvalid]
      have hcount : (p.feed ch).stats = { p.stats with
          framesReceived := p.stats.framesReceived + 1
          framesValid := p.stats.framesValid + 1
          bytesReceived := p.stats.bytesReceived + UInt64.ofNat frame.length } := by
        rw [hstats]
        simp [Stats.count, hvalid]
      refine ⟨?_, ?_, ?_, ?_, hbuffer⟩
      · rw [hcount, h.received, UInt64.add_assoc, UInt64.add_assoc, UInt64.add_comm 1]
      · rw [hcount, hpushed, List.length_append, List.length_singleton, Nat.add_right_comm,
          UInt64.ofNat_add, ← h.valid]
        rfl
      · rw [hcount, hpushed, ← List.append_assoc, List.map_append, List.sum_append,
          UInt64.ofNat_add, ← h.bytes]
        simp
      · intro m hm
        rw [hpushed, List.mem_append, List.mem_singleton] at hm
        rcases hm with hm | rfl
        · exact h.queued m hm
        · exact hvalid

theorem Accounts.feedData (h : Accounts popped p) (data : List UInt8) :
    Accounts popped (p.feedData data) := by
  unfold Parser.feedData
  apply List.foldlRecOn data Parser.feed h
  intro p hp ch _
  exact hp.feed ch

theorem Accounts.pop {raw : List UInt8} {rest : List (List UInt8)} (h : Accounts popped p)
    (hqueue : p.completedMessages = raw :: rest) :
    Accounts (popped ++ [raw]) p.getNextMessage.2 := by
  rw [Parser.getNextMessage_cons hqueue]
  refine ⟨h.received, ?_, ?_, ?_, h.buffer⟩
  · have hvalid := h.valid
    rw [hqueue, List.length_cons, Nat.add_right_comm] at hvalid
    rw [List.length_append, List.length_singleton, ← Nat.add_assoc]
    exact hvalid
  · have hbytes := h.bytes
    rw [hqueue] at hbytes
    rw [List.append_assoc]
    exact hbytes
  · intro m hm
    apply h.queued m
    rw [hqueue]
    exact List.mem_cons_of_mem raw hm

theorem Accounts.runOps (h : Accounts popped p) (ops : List (Op UInt8)) :
    Accounts (popped ++ (p.runOps ops).1.map Message.rawFrame) (p.runOps ops).2 := by
  induction ops generalizing popped p with
  | nil => simpa [Parser.runOps] using h
  | cons op ops ih =>
    cases op with
    | feed data => exact ih (h.feedData data)
    | pop =>
      cases hqueue : p.completedMessages with
      | nil =>
        have hsame : p.getNextMessage.2 = p := by
          unfold Parser.getNextMessage
          rw [hqueue]
        simpa [Parser.runOps, Parser.hasCompleteMessage, hqueue, hsame] using ih h
      | cons raw rest =>
        have hraw : p.getNextMessage.1.rawFrame = raw := by
          rw [Parser.getNextMessage_cons hqueue]
        simpa [Parser.runOps, Parser.hasCompleteMessage, hqueue, hraw] using ih (h.pop hqueue)

/-- After any sequence of calls on a fresh parser the accounts agree with the popped messages,
and the front of the queue is never shorter than a header. -/
theorem accounting (ops : List (Op UInt8)) :
    let popped := (({} : Parser).runOps ops).1
    let p := (({} : Parser).runOps ops).2
    p.stats.framesReceived = p.stats.framesValid + p.stats.framesChecksumError ∧
      p.stats.framesValid = UInt64.ofNat (p.completedMessages.length + popped.length) ∧
      p.stats.bytesReceived =
        UInt64.ofNat ((popped.map Message.rawFrame ++ p.completedMessages).map List.length).sum ∧
      (∀ m ∈ p.completedMessages, validateChecksum m = true) ∧
      (∀ raw rest, p.completedMessages = raw :: rest → ¬ raw.length < 7) ∧
      (p.state = .msgNone ∨ p.state = .msgDone → p.msgBuffer = []) := by
  intro popped p
  have h : Accounts (popped.map Message.rawFrame) p := accounts_fresh.runOps ops
  have hvalid := h.valid
  rw [List.length_map] at hvalid
  refine ⟨h.received, hvalid, h.bytes, h.queued, ?_, h.buffer⟩
  intro raw rest hqueue
  have hfront : raw ∈ p.completedMessages := by
    rw [hqueue]
    exact List.mem_cons_self
  have hlength := validateChecksum_length (h.queued raw hfront)
  omega

end SerialIpmi.Basic
