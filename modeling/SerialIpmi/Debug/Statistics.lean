import SerialIpmi.Library.MaxCell
import SerialIpmi.Library.AssocList
import Mathlib.Data.UInt
import Mathlib.Algebra.Order.BigOperators.Group.List
import Mathlib.Algebra.Order.Ring.Nat

/-! The run-time statistics. Several threads may record at once, so a call of `recordDbusCall`
runs as the atomic steps it is made of. -/
namespace SerialIpmi

structure CommandStat where
  count : UInt64 := 0
  errors : UInt64 := 0
  totalLatencyUs : UInt64 := 0
  maxLatencyUs : UInt64 := 0
  deriving DecidableEq, Repr

/-- How far a call of `recordDbusCall` is: nothing done, the call counted, its latency added,
`currentMax` loaded, returned. -/
inductive Progress where
  | called
  | counted
  | added
  | loop (currentMax : UInt64)
  | returned
  deriving DecidableEq, Repr

structure DbusCall where
  latencyUs : UInt64
  progress : Progress := .called
  deriving DecidableEq, Repr

/-- `earlierMaxLatencies` holds the values that `dbusCallMaxLatencyUs` had before, the latest of
them first; a relaxed load may return one of these. -/
structure Statistics where
  framesReceived : UInt64 := 0
  framesSent : UInt64 := 0
  frameErrors : UInt64 := 0
  dbusCallCount : UInt64 := 0
  dbusCallTotalLatencyUs : UInt64 := 0
  dbusCallMaxLatencyUs : UInt64 := 0
  earlierMaxLatencies : List UInt64 := []
  dbusCalls : List DbusCall := []
  commandStats : AList fun _ : UInt16 => CommandStat := ∅

/-- One atomic step of some thread. In `proceed` the call with that number takes its next step: a
load returns the value `age` changes ago, and a weak exchange may fail although nothing changed. -/
inductive Turn where
  | recordFrameReceived
  | recordFrameSent
  | recordFrameError (reason : String)
  | recordSessionEvent (event : String)
  | recordDbusCall (latencyUs : UInt64)
  | proceed (call : Nat) (age : Nat) (spurious : Bool)
  | recordCommandExecution (netFn cmd : UInt8) (latencyUs : UInt64) (completionCode : UInt8)

namespace Statistics

def maxLatency (s : Statistics) (age : Nat) : UInt64 :=
  (s.dbusCallMaxLatencyUs :: s.earlierMaxLatencies).getD age s.dbusCallMaxLatencyUs

def advance (s : Statistics) (i : Nat) (call : DbusCall) (progress : Progress) : Statistics :=
  { s with dbusCalls := s.dbusCalls.set i { call with progress } }

def proceed (s : Statistics) (i : Nat) (age : Nat) (spurious : Bool) : Statistics :=
  match s.dbusCalls[i]? with
  | none => s
  | some call =>
      match call.progress with
      | .called => { s.advance i call .counted with dbusCallCount := s.dbusCallCount + 1 }
      | .counted => { s.advance i call .added with
          dbusCallTotalLatencyUs := s.dbusCallTotalLatencyUs + call.latencyUs }
      | .added => s.advance i call (.loop (s.maxLatency age))
      | .loop currentMax =>
          if call.latencyUs > currentMax then
            if s.dbusCallMaxLatencyUs = currentMax ∧ spurious = false then
              { s.advance i call .returned with
                dbusCallMaxLatencyUs := call.latencyUs
                earlierMaxLatencies := s.dbusCallMaxLatencyUs :: s.earlierMaxLatencies }
            else s.advance i call (.loop (s.maxLatency age))
          else s.advance i call .returned
      | .returned => s

end Statistics

def CommandStat.record (latencyUs : UInt64) (completionCode : UInt8) (stat : CommandStat) :
    CommandStat where
  count := stat.count + 1
  errors := if completionCode ≠ 0x00 then stat.errors + 1 else stat.errors
  totalLatencyUs := stat.totalLatencyUs + latencyUs
  maxLatencyUs := if latencyUs > stat.maxLatencyUs then latencyUs else stat.maxLatencyUs

namespace Statistics

def commandKey (netFn cmd : UInt8) : UInt16 :=
  (netFn.toUInt16 <<< 8) ||| cmd.toUInt16

/-- The whole function runs under a mutex. -/
def recordCommandExecution (netFn cmd : UInt8) (latencyUs : UInt64) (completionCode : UInt8)
    (s : Statistics) : Statistics :=
  let key := commandKey netFn cmd
  let stat := (s.commandStats.lookup key).getD {}
  { s with commandStats := s.commandStats.insert key (stat.record latencyUs completionCode) }

def turn (s : Statistics) : Turn → Statistics
  | .recordFrameReceived => { s with framesReceived := s.framesReceived + 1 }
  | .recordFrameSent => { s with framesSent := s.framesSent + 1 }
  | .recordFrameError _ => { s with frameErrors := s.frameErrors + 1 }
  | .recordSessionEvent _ => s
  | .recordDbusCall latencyUs => { s with dbusCalls := s.dbusCalls ++ [{ latencyUs }] }
  | .proceed call age spurious => s.proceed call age spurious
  | .recordCommandExecution netFn cmd latencyUs completionCode =>
      s.recordCommandExecution netFn cmd latencyUs completionCode

/-- `reset` while nothing is being recorded. -/
def reset (_s : Statistics) : Statistics := {}

def run (turns : List Turn) (s : Statistics) : Statistics := turns.foldl turn s

/-- The numbers that `printSummary` writes to the log, each cut to 32 bits. -/
structure Summary where
  framesReceived : UInt32
  framesSent : UInt32
  frameErrors : UInt32
  dbusCalls : UInt32
  avgLatency : UInt32
  maxLatency : UInt32
  deriving DecidableEq, Repr

def printSummary (s : Statistics) : Summary where
  framesReceived := s.framesReceived.toUInt32
  framesSent := s.framesSent.toUInt32
  frameErrors := s.frameErrors.toUInt32
  dbusCalls := s.dbusCallCount.toUInt32
  avgLatency :=
    if s.dbusCallCount > 0 then (s.dbusCallTotalLatencyUs / s.dbusCallCount).toUInt32 else 0
  maxLatency := s.dbusCallMaxLatencyUs.toUInt32

end Statistics

def Turn.latency : Turn → Option UInt64
  | .recordDbusCall latencyUs => some latencyUs
  | _ => none

namespace Progress

def isCounted : Progress → Bool
  | .called => false
  | _ => true

def isAdded : Progress → Bool
  | .called | .counted => false
  | _ => true

def phase : Progress → MaxCell.Phase Nat
  | .called | .counted | .added => .start
  | .loop currentMax => .loop currentMax.toNat
  | .returned => .done

end Progress

namespace DbusCall

def counted (call : DbusCall) : UInt64 :=
  if call.progress.isCounted then 1 else 0

def added (call : DbusCall) : UInt64 :=
  if call.progress.isAdded then call.latencyUs else 0

end DbusCall

namespace Statistics

def cell (s : Statistics) : MaxCell.State Nat where
  newest := s.dbusCallMaxLatencyUs.toNat
  older := s.earlierMaxLatencies.map UInt64.toNat
  threads := s.dbusCalls.map fun call => ⟨call.latencyUs.toNat, call.progress.phase⟩

variable {s : Statistics} {i : Nat} {call : DbusCall}

theorem cell_thread (h : s.dbusCalls[i]? = some call) :
    s.cell.threads[i]? = some ⟨call.latencyUs.toNat, call.progress.phase⟩ := by
  rw [cell, List.getElem?_map, h]
  rfl

theorem cell_advance (progress : Progress) :
    (s.advance i call progress).cell = s.cell.goesOn i call.latencyUs.toNat progress.phase := by
  unfold cell MaxCell.State.goesOn advance
  rw [List.map_set]

theorem cell_same (h : s.dbusCalls[i]? = some call) {progress : Progress}
    (hphase : progress.phase = call.progress.phase) :
    (s.advance i call progress).cell = s.cell := by
  obtain ⟨hi, hget⟩ := List.getElem?_eq_some_iff.mp (cell_thread h)
  have hthreads : s.cell.threads.set i ⟨call.latencyUs.toNat, progress.phase⟩ = s.cell.threads := by
    rw [hphase, ← hget, List.set_getElem_self]
  rw [cell_advance, MaxCell.State.goesOn, hthreads]

theorem maxLatency_mem (s : Statistics) (age : Nat) :
    (s.maxLatency age).toNat ∈ s.cell.history := by
  have hmem : s.maxLatency age ∈ s.dbusCallMaxLatencyUs :: s.earlierMaxLatencies := by
    unfold maxLatency
    rw [List.getD_eq_getElem?_getD]
    cases h : (s.dbusCallMaxLatencyUs :: s.earlierMaxLatencies)[age]? with
    | none => exact List.mem_cons_self
    | some value => exact List.mem_of_getElem? h
  exact List.mem_map_of_mem hmem

def exchanged (s : Statistics) (i : Nat) (call : DbusCall) : Statistics :=
  { s.advance i call .returned with
    dbusCallMaxLatencyUs := call.latencyUs
    earlierMaxLatencies := s.dbusCallMaxLatencyUs :: s.earlierMaxLatencies }

theorem proceed_cases (s : Statistics) (i age : Nat) (spurious : Bool) :
    s.proceed i age spurious = s ∨ ∃ call, s.dbusCalls[i]? = some call ∧
      ((call.progress = .called ∧ s.proceed i age spurious =
          { s.advance i call .counted with dbusCallCount := s.dbusCallCount + 1 }) ∨
        (call.progress = .counted ∧ s.proceed i age spurious =
          { s.advance i call .added with
            dbusCallTotalLatencyUs := s.dbusCallTotalLatencyUs + call.latencyUs }) ∨
        (call.progress = .added ∧
          s.proceed i age spurious = s.advance i call (.loop (s.maxLatency age))) ∨
        ∃ currentMax, call.progress = .loop currentMax ∧
          ((call.latencyUs ≤ currentMax ∧ s.proceed i age spurious = s.advance i call .returned) ∨
            (currentMax < call.latencyUs ∧ s.dbusCallMaxLatencyUs = currentMax ∧
              s.proceed i age spurious = s.exchanged i call) ∨
            (currentMax < call.latencyUs ∧
              s.proceed i age spurious = s.advance i call (.loop (s.maxLatency age))))) := by
  unfold proceed
  cases hcall : s.dbusCalls[i]? with
  | none => exact Or.inl rfl
  | some call =>
    obtain ⟨latencyUs, progress⟩ := call
    cases progress with
    | called => exact Or.inr ⟨_, rfl, Or.inl ⟨rfl, rfl⟩⟩
    | counted => exact Or.inr ⟨_, rfl, Or.inr (Or.inl ⟨rfl, rfl⟩)⟩
    | added => exact Or.inr ⟨_, rfl, Or.inr (Or.inr (Or.inl ⟨rfl, rfl⟩))⟩
    | returned => exact Or.inl rfl
    | loop currentMax =>
      refine Or.inr ⟨_, rfl, Or.inr (Or.inr (Or.inr ⟨currentMax, rfl, ?_⟩))⟩
      by_cases hgreater : latencyUs > currentMax
      · by_cases hexchange : s.dbusCallMaxLatencyUs = currentMax ∧ spurious = false
        · exact Or.inr (Or.inl ⟨hgreater, hexchange.1, by simp [hgreater, hexchange, exchanged]⟩)
        · exact Or.inr (Or.inr ⟨hgreater, by simp [hgreater, hexchange]⟩)
      · exact Or.inl ⟨UInt64.not_lt.mp hgreater, by simp [hgreater]⟩

theorem turn_cell (s : Statistics) (t : Turn) :
    (s.turn t).cell = s.cell ∨ MaxCell.Step s.cell (s.turn t).cell := by
  cases t with
  | recordFrameReceived => exact Or.inl rfl
  | recordFrameSent => exact Or.inl rfl
  | recordFrameError reason => exact Or.inl rfl
  | recordSessionEvent event => exact Or.inl rfl
  | recordCommandExecution netFn cmd latencyUs completionCode => exact Or.inl rfl
  | recordDbusCall latencyUs =>
    right
    have hcell : (s.turn (.recordDbusCall latencyUs)).cell =
        { s.cell with threads := s.cell.threads ++ [⟨latencyUs.toNat, .start⟩] } := by
      unfold cell turn
      rw [List.map_append]
      rfl
    rw [hcell]
    exact .invoke s.cell latencyUs.toNat
  | proceed i age spurious =>
    change (s.proceed i age spurious).cell = _ ∨ MaxCell.Step _ (s.proceed i age spurious).cell
    rcases s.proceed_cases i age spurious with hnone | ⟨call, hcall, hcases⟩
    · exact Or.inl (congrArg cell hnone)
    · have hthread := cell_thread hcall
      rcases hcases with ⟨hprogress, h⟩ | ⟨hprogress, h⟩ | ⟨hprogress, h⟩ |
        ⟨currentMax, hprogress, ⟨hle, h⟩ | ⟨hlt, hnewest, h⟩ | ⟨hlt, h⟩⟩
      · left
        rw [h]
        exact cell_same hcall (by rw [hprogress]; rfl)
      · left
        rw [h]
        exact cell_same hcall (by rw [hprogress]; rfl)
      · right
        rw [hprogress] at hthread
        rw [h, cell_advance]
        exact .load hthread (s.maxLatency_mem age)
      · right
        rw [hprogress] at hthread
        rw [h, cell_advance]
        exact .skip hthread (UInt64.le_iff_toNat_le.mp hle)
      · right
        subst hnewest
        rw [hprogress] at hthread
        have hcell : (s.exchanged i call).cell =
            { s.cell.goesOn i call.latencyUs.toNat .done with
              newest := call.latencyUs.toNat, older := s.cell.history } := by
          unfold exchanged cell advance MaxCell.State.goesOn
          rw [List.map_set]
          rfl
        rw [h, hcell]
        exact .exchange hthread (UInt64.lt_iff_toNat_lt.mp hlt)
      · right
        rw [hprogress] at hthread
        rw [h, cell_advance]
        exact .fail hthread (UInt64.lt_iff_toNat_lt.mp hlt) (s.maxLatency_mem age)

theorem sum_advance (f : DbusCall → UInt64) (h : s.dbusCalls[i]? = some call)
    (progress : Progress) :
    ((s.advance i call progress).dbusCalls.map f).sum =
      (s.dbusCalls.map f).sum + (f { call with progress } - f call) := by
  obtain ⟨hi, hget⟩ := List.getElem?_eq_some_iff.mp h
  have hlength : i < (s.dbusCalls.map f).length := by
    rw [List.length_map]
    exact hi
  unfold advance
  rw [List.map_set, List.sum_set', dif_pos hlength, List.getElem_map, hget, sub_eq_neg_add]

/-- After `turns` the calls are those that were started, the counters hold what they have added,
and the maximum has been raised to the latencies of those that returned. -/
structure Accounted (turns : List Turn) (s : Statistics) : Prop where
  started : s.dbusCalls.map DbusCall.latencyUs = turns.filterMap Turn.latency
  count : s.dbusCallCount = (s.dbusCalls.map DbusCall.counted).sum
  total : s.dbusCallTotalLatencyUs = (s.dbusCalls.map DbusCall.added).sum
  raised : MaxCell.Raised 0 s.cell

variable {turns : List Turn}

theorem latencies_advance (h : s.dbusCalls[i]? = some call) (progress : Progress) :
    (s.advance i call progress).dbusCalls.map DbusCall.latencyUs =
      s.dbusCalls.map DbusCall.latencyUs := by
  obtain ⟨hi, hget⟩ := List.getElem?_eq_some_iff.mp h
  have hlength : i < (s.dbusCalls.map DbusCall.latencyUs).length := by
    rw [List.length_map]
    exact hi
  have hsame : call.latencyUs = (s.dbusCalls.map DbusCall.latencyUs)[i] := by
    rw [List.getElem_map, hget]
  unfold advance
  rw [List.map_set, hsame, List.set_getElem_self]

theorem proceed_counters (s : Statistics) (i age : Nat) (spurious : Bool)
    (hcount : s.dbusCallCount = (s.dbusCalls.map DbusCall.counted).sum)
    (htotal : s.dbusCallTotalLatencyUs = (s.dbusCalls.map DbusCall.added).sum) :
    let s' := s.proceed i age spurious
    s'.dbusCalls.map DbusCall.latencyUs = s.dbusCalls.map DbusCall.latencyUs ∧
      s'.dbusCallCount = (s'.dbusCalls.map DbusCall.counted).sum ∧
      s'.dbusCallTotalLatencyUs = (s'.dbusCalls.map DbusCall.added).sum := by
  intro s'
  have hs' : s' = s.proceed i age spurious := rfl
  rcases s.proceed_cases i age spurious with hnone | ⟨call, hcall, hcases⟩
  · rw [hs', hnone]
    exact ⟨rfl, hcount, htotal⟩
  · have hlatencies := latencies_advance hcall
    have hcounted := sum_advance DbusCall.counted hcall
    have hadded := sum_advance DbusCall.added hcall
    have hsame : ∀ progress : Progress, progress.isCounted = call.progress.isCounted →
        progress.isAdded = call.progress.isAdded →
        ((s.advance i call progress).dbusCalls.map DbusCall.latencyUs =
            s.dbusCalls.map DbusCall.latencyUs ∧
          s.dbusCallCount = ((s.advance i call progress).dbusCalls.map DbusCall.counted).sum ∧
          s.dbusCallTotalLatencyUs =
            ((s.advance i call progress).dbusCalls.map DbusCall.added).sum) := by
      intro progress hisCounted hisAdded
      refine ⟨hlatencies progress, ?_, ?_⟩
      · rw [hcounted, DbusCall.counted, DbusCall.counted, hisCounted, sub_self, add_zero, hcount]
      · rw [hadded, DbusCall.added, DbusCall.added, hisAdded, sub_self, add_zero, htotal]
    rcases hcases with ⟨hprogress, h⟩ | ⟨hprogress, h⟩ | ⟨hprogress, h⟩ |
      ⟨currentMax, hprogress, ⟨-, h⟩ | ⟨-, -, h⟩ | ⟨-, h⟩⟩
    · rw [hs', h]
      refine ⟨hlatencies .counted, ?_, ?_⟩
      · change s.dbusCallCount + 1 = ((s.advance i call .counted).dbusCalls.map _).sum
        rw [hcounted, hcount]
        simp [DbusCall.counted, hprogress, Progress.isCounted]
      · change s.dbusCallTotalLatencyUs = ((s.advance i call .counted).dbusCalls.map _).sum
        rw [hadded, htotal]
        simp [DbusCall.added, hprogress, Progress.isAdded]
    · rw [hs', h]
      refine ⟨hlatencies .added, ?_, ?_⟩
      · change s.dbusCallCount = ((s.advance i call .added).dbusCalls.map _).sum
        rw [hcounted, hcount]
        simp [DbusCall.counted, hprogress, Progress.isCounted]
      · change s.dbusCallTotalLatencyUs + call.latencyUs =
          ((s.advance i call .added).dbusCalls.map _).sum
        rw [hadded, htotal]
        simp [DbusCall.added, hprogress, Progress.isAdded]
    · rw [hs', h]
      exact hsame _ (by rw [hprogress]; rfl) (by rw [hprogress]; rfl)
    · rw [hs', h]
      exact hsame _ (by rw [hprogress]; rfl) (by rw [hprogress]; rfl)
    · rw [hs', h]
      exact hsame .returned (by rw [hprogress]; rfl) (by rw [hprogress]; rfl)
    · rw [hs', h]
      exact hsame _ (by rw [hprogress]; rfl) (by rw [hprogress]; rfl)

theorem Accounted.turn (h : Accounted turns s) (t : Turn) :
    Accounted (turns ++ [t]) (s.turn t) := by
  have hraised : MaxCell.Raised 0 (s.turn t).cell := by
    rcases turn_cell s t with hsame | hstep
    · rw [hsame]
      exact h.raised
    · exact h.raised.step hstep
  have hquiet : Turn.latency t = none →
      turns.filterMap Turn.latency = (turns ++ [t]).filterMap Turn.latency := by
    intro hnone
    rw [List.filterMap_append, List.filterMap_cons_none hnone, List.filterMap_nil, List.append_nil]
  cases t with
  | recordFrameReceived => exact ⟨h.started.trans (hquiet rfl), h.count, h.total, hraised⟩
  | recordFrameSent => exact ⟨h.started.trans (hquiet rfl), h.count, h.total, hraised⟩
  | recordFrameError reason => exact ⟨h.started.trans (hquiet rfl), h.count, h.total, hraised⟩
  | recordSessionEvent event => exact ⟨h.started.trans (hquiet rfl), h.count, h.total, hraised⟩
  | recordCommandExecution netFn cmd latencyUs completionCode =>
    exact ⟨h.started.trans (hquiet rfl), h.count, h.total, hraised⟩
  | recordDbusCall latencyUs =>
    refine ⟨?_, ?_, ?_, hraised⟩
    · change (s.dbusCalls ++ [({ latencyUs } : DbusCall)]).map _ = _
      rw [List.map_append, h.started, List.filterMap_append]
      rfl
    · change s.dbusCallCount = ((s.dbusCalls ++ [({ latencyUs } : DbusCall)]).map _).sum
      rw [List.map_append, List.sum_append, h.count]
      exact (add_zero _).symm
    · change s.dbusCallTotalLatencyUs = ((s.dbusCalls ++ [({ latencyUs } : DbusCall)]).map _).sum
      rw [List.map_append, List.sum_append, h.total]
      exact (add_zero _).symm
  | proceed i age spurious =>
    obtain ⟨hlatencies, hcount, htotal⟩ := s.proceed_counters i age spurious h.count h.total
    exact ⟨hlatencies.trans (h.started.trans (hquiet rfl)), hcount, htotal, hraised⟩

theorem accounted_run (s₀ : Statistics) (turns : List Turn) :
    Accounted turns (run turns s₀.reset) := by
  induction turns using List.reverseRecOn with
  | nil => exact ⟨rfl, rfl, rfl, .start 0⟩
  | append_singleton turns t ih =>
    unfold run
    rw [List.foldl_concat]
    exact ih.turn t

/-- Whatever the threads do between their atomic steps, however stale the values they load and
however often the weak exchange fails: each call is counted once and its latency added once, at
its own steps, and the maximum only grows, is one that some call has returned with (or the initial
0), and is never below the latency of a call that has returned. -/
theorem dbus_accounts (s₀ : Statistics) (turns : List Turn) :
    let s := run turns s₀.reset
    s.dbusCalls.map DbusCall.latencyUs = turns.filterMap Turn.latency ∧
    s.dbusCallCount = (s.dbusCalls.map DbusCall.counted).sum ∧
    s.dbusCallTotalLatencyUs = (s.dbusCalls.map DbusCall.added).sum ∧
    (s.dbusCallMaxLatencyUs :: s.earlierMaxLatencies).Pairwise (· > ·) ∧
    (∀ call ∈ s.dbusCalls, call.progress = .returned →
      call.latencyUs ≤ s.dbusCallMaxLatencyUs) ∧
    (s.dbusCallMaxLatencyUs = 0 ∨ ∃ call ∈ s.dbusCalls, call.progress = .returned ∧
      call.latencyUs = s.dbusCallMaxLatencyUs) := by
  intro s
  have h := accounted_run s₀ turns
  refine ⟨h.started, h.count, h.total, ?_, ?_, ?_⟩
  · have hordered : ((s.dbusCallMaxLatencyUs :: s.earlierMaxLatencies).map
      UInt64.toNat).Pairwise (· > ·) := h.raised.ordered
    exact (List.pairwise_map.mp hordered).imp fun hgreater => UInt64.lt_iff_toNat_lt.mpr hgreater
  · intro call hcall hreturned
    have hthread := List.mem_map_of_mem
      (f := fun call : DbusCall =>
        (⟨call.latencyUs.toNat, call.progress.phase⟩ : MaxCell.Thread Nat)) hcall
    exact UInt64.le_iff_toNat_le.mpr (h.raised.reached _ hthread (by rw [hreturned]; rfl))
  · rcases h.raised.source with hinitial | ⟨thread, hthread, hdone, hvalue⟩
    · exact Or.inl (UInt64.toNat_inj.mp hinitial)
    · right
      obtain ⟨call, hcall, rfl⟩ := List.mem_map.mp hthread
      refine ⟨call, hcall, ?_, UInt64.toNat_inj.mp hvalue⟩
      have hphase : call.progress.phase = .done := hdone
      cases hprogress : call.progress <;> rw [hprogress] at hphase <;> first | rfl | cases hphase

theorem sum_toNat {values : List UInt64} (h : (values.map UInt64.toNat).sum < 2 ^ 64) :
    values.sum.toNat = (values.map UInt64.toNat).sum := by
  induction values with
  | nil => rfl
  | cons value values ih =>
    rw [List.map_cons, List.sum_cons] at h
    have hrest := ih (by omega)
    rw [List.sum_cons, List.map_cons, List.sum_cons, UInt64.toNat_add, hrest]
    exact Nat.mod_eq_of_lt h

theorem Accounted.returned (h : Accounted turns s)
    (hreturned : ∀ call ∈ s.dbusCalls, call.progress = .returned)
    (hlength : (turns.filterMap Turn.latency).length < 2 ^ 64)
    (hsum : ((turns.filterMap Turn.latency).map UInt64.toNat).sum < 2 ^ 64) :
    s.dbusCallCount.toNat = (turns.filterMap Turn.latency).length ∧
      s.dbusCallTotalLatencyUs.toNat = ((turns.filterMap Turn.latency).map UInt64.toNat).sum := by
  rw [← h.started] at hlength hsum ⊢
  have hcounted : (s.dbusCalls.map DbusCall.counted).map UInt64.toNat =
      List.replicate s.dbusCalls.length 1 := by
    rw [List.map_map, List.eq_replicate_iff, List.length_map]
    refine ⟨rfl, ?_⟩
    intro count hcount
    obtain ⟨call, hcall, rfl⟩ := List.mem_map.mp hcount
    simp [DbusCall.counted, hreturned call hcall, Progress.isCounted]
  have hadded : s.dbusCalls.map DbusCall.added = s.dbusCalls.map DbusCall.latencyUs := by
    apply List.map_congr_left
    intro call hcall
    simp [DbusCall.added, hreturned call hcall, Progress.isAdded]
  have hnumber : ((s.dbusCalls.map DbusCall.counted).map UInt64.toNat).sum = s.dbusCalls.length := by
    rw [hcounted, List.sum_replicate, nsmul_eq_mul, Nat.mul_one]
    rfl
  rw [List.length_map] at hlength ⊢
  rw [h.count, h.total, hadded, sum_toNat (by rw [hnumber]; exact hlength), sum_toNat hsum, hnumber]
  exact ⟨rfl, rfl⟩

/-- When every call has returned and nothing can wrap around, the numbers that are printed are
exact, whatever the order in which the calls took their steps. So the average is not above the
maximum. -/
theorem summary_exact (s₀ : Statistics) (turns : List Turn)
    (hreturned : ∀ call ∈ (run turns s₀.reset).dbusCalls, call.progress = .returned)
    (hsome : turns.filterMap Turn.latency ≠ [])
    (hlength : (turns.filterMap Turn.latency).length < 2 ^ 32)
    (hsmall : ∀ latencyUs ∈ turns.filterMap Turn.latency, latencyUs.toNat < 2 ^ 32) :
    let latencies := (turns.filterMap Turn.latency).map UInt64.toNat
    let summary := (run turns s₀.reset).printSummary
    summary.dbusCalls.toNat = latencies.length ∧
    summary.avgLatency.toNat = latencies.sum / latencies.length ∧
    latencies.max? = some summary.maxLatency.toNat ∧
    summary.avgLatency ≤ summary.maxLatency := by
  intro latencies summary
  have h := accounted_run s₀ turns
  set s := run turns s₀.reset
  have hpositive : 0 < latencies.length := by
    rw [List.length_map]
    exact List.length_pos_iff.mpr hsome
  have hlatencies : latencies.length < 2 ^ 32 := by
    rw [List.length_map]
    exact hlength
  -- the cell holds the maximum, also of the latencies without the initial 0
  have hmax : latencies.max? = some s.dbusCallMaxLatencyUs.toNat := by
    have hdone : ∀ thread ∈ s.cell.threads, thread.phase = .done := by
      intro thread hthread
      obtain ⟨call, hcall, rfl⟩ := List.mem_map.mp hthread
      rw [hreturned call hcall]
      rfl
    have hvalues : s.cell.threads.map MaxCell.Thread.value = latencies := by
      change (s.dbusCalls.map _).map _ = (turns.filterMap Turn.latency).map UInt64.toNat
      rw [← h.started, List.map_map, List.map_map]
      rfl
    have hwith := h.raised.max_eq hdone
    rw [hvalues, List.max?_eq_some_iff] at hwith
    obtain ⟨hmem, hle⟩ := hwith
    have hbound : ∀ latency ∈ latencies, latency ≤ s.cell.newest :=
      fun latency hlatency => hle latency (List.mem_cons_of_mem _ hlatency)
    apply List.max?_eq_some_iff.mpr
    refine ⟨?_, hbound⟩
    rcases List.mem_cons.mp hmem with hzero | hmember
    · obtain ⟨first, hfirst⟩ := List.exists_mem_of_length_pos hpositive
      have hle := hbound first hfirst
      have hfirstZero : first = s.dbusCallMaxLatencyUs.toNat := by
        rw [hzero] at hle
        exact (Nat.le_zero.mp hle).trans hzero.symm
      rw [← hfirstZero]
      exact hfirst
    · exact hmember
  obtain ⟨hmem, hbound⟩ := List.max?_eq_some_iff.mp hmax
  have hmaxSmall : s.dbusCallMaxLatencyUs.toNat < 2 ^ 32 := by
    obtain ⟨latencyUs, hmember, hvalue⟩ := List.mem_map.mp hmem
    rw [← hvalue]
    exact hsmall latencyUs hmember
  have hsum : latencies.sum ≤ latencies.length * s.dbusCallMaxLatencyUs.toNat :=
    List.sum_le_card_nsmul latencies _ hbound
  obtain ⟨hcount, htotal⟩ := h.returned hreturned (by omega) (by
    apply hsum.trans_lt
    calc latencies.length * s.dbusCallMaxLatencyUs.toNat
      _ < 2 ^ 32 * 2 ^ 32 := Nat.mul_lt_mul_of_lt_of_le hlatencies hmaxSmall.le (by decide)
      _ = 2 ^ 64 := by decide)
  have haverage : latencies.sum / latencies.length ≤ s.dbusCallMaxLatencyUs.toNat :=
    Nat.div_le_of_le_mul hsum
  have hcountPos : s.dbusCallCount > 0 := by
    apply UInt64.lt_iff_toNat_lt.mpr
    rw [hcount, ← List.length_map (f := UInt64.toNat)]
    exact hpositive
  have hsummaryMax : summary.maxLatency.toNat = s.dbusCallMaxLatencyUs.toNat := by
    change s.dbusCallMaxLatencyUs.toUInt32.toNat = _
    rw [UInt64.toNat_toUInt32]
    exact Nat.mod_eq_of_lt hmaxSmall
  have hsummaryAverage : summary.avgLatency.toNat = latencies.sum / latencies.length := by
    change (if s.dbusCallCount > 0 then (s.dbusCallTotalLatencyUs / s.dbusCallCount).toUInt32
      else 0).toNat = _
    rw [if_pos hcountPos, UInt64.toNat_toUInt32, UInt64.toNat_div, hcount, htotal, List.length_map]
    rw [List.length_map] at haverage
    exact Nat.mod_eq_of_lt (haverage.trans_lt hmaxSmall)
  refine ⟨?_, hsummaryAverage, ?_, ?_⟩
  · change s.dbusCallCount.toUInt32.toNat = _
    rw [UInt64.toNat_toUInt32, hcount, List.length_map]
    exact Nat.mod_eq_of_lt hlength
  · rw [hsummaryMax]
    exact hmax
  · apply UInt32.le_iff_toNat_le.mpr
    rw [hsummaryAverage, hsummaryMax]
    exact haverage

/-- Two calls whose steps interleave: the first one fails once without a reason, once because the
second one was faster, and once more because it still sees the old maximum. -/
theorem summary_exact_interleaved :
    let turns : List Turn := [.recordDbusCall 9, .recordDbusCall 5, .proceed 1 0 false,
      .proceed 0 0 false, .proceed 0 0 false, .proceed 0 0 false, .proceed 1 0 false,
      .proceed 1 0 false, .proceed 0 0 true, .proceed 1 0 false, .proceed 0 1 false,
      .proceed 0 0 false, .proceed 0 0 false]
    ((run turns (reset {})).printSummary.avgLatency).toNat = 7 ∧
      (run turns (reset {})).printSummary.maxLatency.toNat = 9 := by
  intro turns
  have hsmall : ∀ latencyUs ∈ turns.filterMap Turn.latency, latencyUs.toNat < 2 ^ 32 := by
    change ∀ latencyUs ∈ ([9, 5] : List UInt64), latencyUs.toNat < 2 ^ 32
    simp
  have h := summary_exact {} turns (by decide) (by decide) (by decide) hsmall
  have hmax : some 9 = some (run turns (reset {})).printSummary.maxLatency.toNat := h.2.2.1
  exact ⟨h.2.1.trans (by decide), (Option.some.inj hmax).symm⟩

/-! ### The accounts of the commands -/

theorem commandKey_toNat (netFn cmd : UInt8) :
    (commandKey netFn cmd).toNat = 256 * netFn.toNat + cmd.toNat := by
  have hnetFn := netFn.toNat_lt
  have hcmd := cmd.toNat_lt
  unfold commandKey
  rw [UInt16.toNat_or, UInt16.toNat_shiftLeft, UInt8.toNat_toUInt16, UInt8.toNat_toUInt16]
  simp only [UInt16.reduceToNat, Nat.reduceMod, Nat.shiftLeft_eq]
  rw [Nat.mod_eq_of_lt (by omega), Nat.mul_comm]
  exact (Nat.two_pow_add_eq_or_of_lt (i := 8) hcmd _).symm

theorem commandKey_inj {netFn cmd netFn' cmd' : UInt8} :
    commandKey netFn cmd = commandKey netFn' cmd' ↔ netFn = netFn' ∧ cmd = cmd' := by
  constructor
  · intro h
    have hkey := congrArg UInt16.toNat h
    have hcmd := cmd.toNat_lt
    have hcmd' := cmd'.toNat_lt
    rw [commandKey_toNat, commandKey_toNat] at hkey
    exact ⟨UInt8.toNat_inj.mp (by omega), UInt8.toNat_inj.mp (by omega)⟩
  · rintro ⟨rfl, rfl⟩
    rfl

end Statistics

structure Execution where
  netFn : UInt8
  cmd : UInt8
  latencyUs : UInt64
  completionCode : UInt8
  deriving DecidableEq, Repr

def Turn.execution : Turn → Option Execution
  | .recordCommandExecution netFn cmd latencyUs completionCode =>
      some ⟨netFn, cmd, latencyUs, completionCode⟩
  | _ => none

namespace Statistics

theorem proceed_commandStats (s : Statistics) (i age : Nat) (spurious : Bool) :
    (s.proceed i age spurious).commandStats = s.commandStats := by
  rcases s.proceed_cases i age spurious with h | ⟨call, -, hcases⟩
  · rw [h]
  · rcases hcases with ⟨-, h⟩ | ⟨-, h⟩ | ⟨-, h⟩ | ⟨currentMax, -, ⟨-, h⟩ | ⟨-, -, h⟩ | ⟨-, h⟩⟩ <;>
      rw [h] <;> rfl

theorem commandStats_run (s₀ : Statistics) (turns : List Turn) :
    (run turns s₀.reset).commandStats =
      AList.tally (fun e : Execution => commandKey e.netFn e.cmd)
        (fun e stat => stat.record e.latencyUs e.completionCode) {}
        (turns.filterMap Turn.execution) ∅ := by
  induction turns using List.reverseRecOn with
  | nil => rfl
  | append_singleton turns t ih =>
    have hrun : run (turns ++ [t]) s₀.reset = (run turns s₀.reset).turn t := by
      unfold run
      rw [List.foldl_concat]
    have hquiet : Turn.execution t = none →
        ((run turns s₀.reset).turn t).commandStats = (run turns s₀.reset).commandStats →
        ((run turns s₀.reset).turn t).commandStats = AList.tally
          (fun e : Execution => commandKey e.netFn e.cmd)
          (fun e stat => stat.record e.latencyUs e.completionCode) {}
          ((turns ++ [t]).filterMap Turn.execution) ∅ := by
      intro hnone hsame
      rw [hsame, ih, List.filterMap_append, List.filterMap_cons_none hnone, List.filterMap_nil,
        List.append_nil]
    rw [hrun]
    cases t with
    | recordFrameReceived => exact hquiet rfl rfl
    | recordFrameSent => exact hquiet rfl rfl
    | recordFrameError reason => exact hquiet rfl rfl
    | recordSessionEvent event => exact hquiet rfl rfl
    | recordDbusCall latencyUs => exact hquiet rfl rfl
    | proceed i age spurious =>
      exact hquiet rfl (proceed_commandStats _ i age spurious)
    | recordCommandExecution netFn cmd latencyUs completionCode =>
      rw [List.filterMap_append, AList.tally_append, ← ih]
      rfl

structure Tallied (executions : List Execution) (stat : CommandStat) : Prop where
  count : stat.count = UInt64.ofNat executions.length
  errors : stat.errors = UInt64.ofNat (executions.countP (·.completionCode ≠ 0x00))
  total : stat.totalLatencyUs = (executions.map Execution.latencyUs).sum
  max : (0 :: executions.map fun e => e.latencyUs.toNat).max? = some stat.maxLatencyUs.toNat

theorem Tallied.record {executions : List Execution} {stat : CommandStat}
    (h : Tallied executions stat) (e : Execution) :
    Tallied (executions ++ [e]) (stat.record e.latencyUs e.completionCode) := by
  obtain ⟨hmem, hle⟩ := List.max?_eq_some_iff.mp h.max
  refine ⟨?_, ?_, ?_, ?_⟩
  · rw [List.length_append, UInt64.ofNat_add, ← h.count]
    rfl
  · rw [List.countP_append, UInt64.ofNat_add, ← h.errors, List.countP_singleton]
    unfold CommandStat.record
    by_cases hcode : e.completionCode = 0x00 <;> simp [hcode]
  · rw [List.map_append, List.sum_append, ← h.total]
    simp [CommandStat.record]
  · apply List.max?_eq_some_iff.mpr
    rw [List.map_append, ← List.cons_append]
    by_cases hgreater : e.latencyUs > stat.maxLatencyUs
    · have hlt := UInt64.lt_iff_toNat_lt.mp hgreater
      have hnew : (stat.record e.latencyUs e.completionCode).maxLatencyUs = e.latencyUs :=
        if_pos hgreater
      rw [hnew]
      refine ⟨List.mem_append_right _ (List.mem_singleton_self _), ?_⟩
      intro latency hlatency
      rcases List.mem_append.mp hlatency with hold | hlast
      · exact (hle latency hold).trans hlt.le
      · rw [List.map_singleton, List.mem_singleton] at hlast
        exact le_of_eq hlast
    · have hsame : (stat.record e.latencyUs e.completionCode).maxLatencyUs = stat.maxLatencyUs :=
        if_neg hgreater
      rw [hsame]
      refine ⟨List.mem_append_left _ hmem, ?_⟩
      intro latency hlatency
      rcases List.mem_append.mp hlatency with hold | hlast
      · exact hle latency hold
      · rw [List.map_singleton, List.mem_singleton] at hlast
        rw [hlast]
        exact UInt64.le_iff_toNat_le.mp (UInt64.not_lt.mp hgreater)

theorem tallied_foldl (executions : List Execution) :
    Tallied executions (executions.foldl (fun stat e => stat.record e.latencyUs e.completionCode)
      {}) := by
  induction executions using List.reverseRecOn with
  | nil => exact ⟨rfl, rfl, rfl, rfl⟩
  | append_singleton executions e ih =>
    rw [List.foldl_concat]
    exact ih.record e

/-- Every command that was executed has one account, which adds up the executions of that command
and of no other, whatever else was recorded in between. -/
theorem command_accounts (s₀ : Statistics) (turns : List Turn) (netFn cmd : UInt8) :
    let executions := (turns.filterMap Turn.execution).filter fun e => e.netFn = netFn ∧ e.cmd = cmd
    match (run turns s₀.reset).commandStats.lookup (commandKey netFn cmd) with
    | none => executions = []
    | some stat => executions ≠ [] ∧ Tallied executions stat := by
  intro executions
  have hkey : (turns.filterMap Turn.execution).filter
      (fun e => commandKey e.netFn e.cmd = commandKey netFn cmd) = executions := by
    apply List.filter_congr
    intro e _
    rw [decide_eq_decide]
    exact commandKey_inj
  rw [commandStats_run, AList.lookup_tally, hkey]
  by_cases hnone : executions = []
  · rw [if_pos hnone]
    exact hnone
  · rw [if_neg hnone]
    exact ⟨hnone, tallied_foldl executions⟩

end Statistics

end SerialIpmi
