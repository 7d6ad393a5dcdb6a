import SerialIpmi.Dispatch
import SerialIpmi.Library.Runs

/-! The stored response. A command answered locally leaves its response for `getResponse`; a
forwarded one leaves what was there before. -/
namespace SerialIpmi

inductive HandlerCall where
  | incoming (msg : Message)
  | getResponse

def HandlerCall.message : HandlerCall → Option Message
  | .incoming msg => some msg
  | .getResponse => none

def latest (calls : List HandlerCall) : Option Message :=
  (calls.filterMap HandlerCall.message).getLast?

structure ResponseTo (t : Table) (msg resp : Message) : Prop where
  executed : (t.executeCommand ⟨msg.netFn, msg.cmd⟩ msg.data).isSome
  netFn : resp.netFn = msg.netFn ||| 0x01
  lun : resp.lun = msg.lun
  seqNum : resp.seqNum = msg.seqNum
  cmd : resp.cmd = msg.cmd

namespace Daemon

/-- An exception of a call is the caller's business; its changes to the handler stay. -/
def act (env : Env) (d : Daemon) : HandlerCall → Daemon
  | .incoming msg => (processIncoming env msg d).state
  | .getResponse => (getResponse d).2

def afterCalls (env : Env) (calls : List HandlerCall) (d : Daemon) : Daemon :=
  calls.foldl (act env) d

/-- The call forwards a message while an earlier response is still stored. -/
def LeavesStale (d : Daemon) : HandlerCall → Prop
  | .incoming msg => d.table.executeCommand ⟨msg.netFn, msg.cmd⟩ msg.data = none ∧
      d.handler.outMessage ≠ none
  | .getResponse => False

/-- What is stored answers the message that was processed last. -/
def Fresh (d : Daemon) : Prop :=
  ∀ resp, d.handler.outMessage = some resp → ResponseTo d.table d.handler.currentMsg resp

theorem sendResponse_handler (env : Env) (resp : Message) (d : Daemon) :
    (sendResponse env resp d).state.handler = d.handler ∧
      (sendResponse env resp d).state.table = d.table := by
  rcases sendResponse_cases env resp d with ⟨-, h⟩ | ⟨e, device, -, h⟩ | ⟨written, -, h⟩
  · rw [h]
    exact ⟨rfl, rfl⟩
  · rw [h]
    exact ⟨rfl, rfl⟩
  · rw [h]
    exact ⟨rfl, rfl⟩

theorem forwardToIpmid_stored (env : Env) (netFn lun cmd : UInt8) (data : List UInt8)
    (sessionId : UInt32) (d : Daemon) :
    let d' := (forwardToIpmid env netFn lun cmd data sessionId d).state
    d'.handler.outMessage = d.handler.outMessage ∧ d'.handler.currentMsg = d.handler.currentMsg := by
  intro d'
  have hd' : d' = (forwardToIpmid env netFn lun cmd data sessionId d).state := rfl
  rcases forwardToIpmid_cases env netFn lun cmd data sessionId d with
    ⟨-, h⟩ | ⟨bus, -, ⟨-, h⟩ | ⟨-, h⟩⟩
  · rw [hd', h]
    exact ⟨rfl, rfl⟩
  · rw [hd', h]
    exact ⟨rfl, rfl⟩
  · rw [hd', h]
    exact ⟨rfl, rfl⟩

theorem processIncoming_stored (env : Env) (msg : Message) (d : Daemon) :
    let d' := (processIncoming env msg d).state
    d'.handler.currentMsg = msg ∧ d'.table = d.table ∧
      d'.handler.outMessage = match d.table.executeCommand ⟨msg.netFn, msg.cmd⟩ msg.data with
        | some respData => some (localResponse msg respData)
        | none => d.handler.outMessage := by
  intro d'
  have htable : d'.table = d.table := (processIncoming_dispatches env msg d).table
  have hd' : d' = (processIncoming env msg d).state := rfl
  cases hexecute : d.table.executeCommand ⟨msg.netFn, msg.cmd⟩ msg.data with
  | some respData =>
    have hsend := (sendResponse_handler env (localResponse msg respData)
      (d.responding msg respData)).1
    refine ⟨?_, htable, ?_⟩
    · rw [hd', processIncoming_local env hexecute, hsend]
      rfl
    · rw [hd', processIncoming_local env hexecute, hsend]
      rfl
  | none =>
    obtain ⟨hstored, hcurrent⟩ := forwardToIpmid_stored env msg.netFn msg.lun msg.cmd msg.data
      msg.sessionId (d.received msg)
    rw [← processIncoming_forward env hexecute] at hstored hcurrent
    exact ⟨hcurrent, htable, hstored⟩

theorem getResponse_eq (d : Daemon) : (getResponse d).1 = d.handler.outMessage ∧
    (getResponse d).2.handler.outMessage = none ∧ (getResponse d).2.table = d.table := by
  unfold getResponse
  cases h : d.handler.outMessage with
  | none => exact ⟨rfl, h, rfl⟩
  | some resp => exact ⟨rfl, rfl, rfl⟩

theorem act_table (env : Env) (d : Daemon) (call : HandlerCall) :
    (act env d call).table = d.table := by
  cases call with
  | incoming msg => exact (processIncoming_stored env msg d).2.1
  | getResponse => exact (getResponse_eq d).2.2

theorem act_fresh {d : Daemon} {call : HandlerCall} (env : Env) (hcall : ¬ LeavesStale d call) :
    Fresh (act env d call) := by
  cases call with
  | getResponse =>
    intro resp hresp
    rw [act, (getResponse_eq d).2.1] at hresp
    contradiction
  | incoming msg =>
    obtain ⟨hcurrent, htable, hstored⟩ := processIncoming_stored env msg d
    intro resp hresp
    unfold act at hresp ⊢
    rw [hcurrent, htable]
    rw [hstored] at hresp
    cases hexecute : d.table.executeCommand ⟨msg.netFn, msg.cmd⟩ msg.data with
    | some respData =>
      rw [hexecute] at hresp
      rw [← Option.some.inj hresp]
      exact ⟨Option.isSome_of_eq_some hexecute, rfl, rfl, rfl, rfl⟩
    | none =>
      rw [hexecute] at hresp
      have hempty : d.handler.outMessage = none := by
        by_contra hkept
        exact hcall ⟨hexecute, hkept⟩
      rw [hempty] at hresp
      contradiction

theorem LeavesStale.not_fresh {d : Daemon} {call : HandlerCall} (hcall : LeavesStale d call)
    (env : Env) : ¬ Fresh (Daemon.act env d call) := by
  cases call with
  | getResponse => exact hcall.elim
  | incoming msg =>
    obtain ⟨hexecute, hkept⟩ := hcall
    obtain ⟨resp, hresp⟩ := Option.ne_none_iff_exists'.mp hkept
    obtain ⟨hcurrent, htable, hstored⟩ := processIncoming_stored env msg d
    rw [hexecute] at hstored
    intro hfresh
    have hexecuted := (hfresh resp (hstored.trans hresp)).executed
    unfold Daemon.act at hexecuted
    rw [hcurrent, htable, hexecute] at hexecuted
    contradiction

theorem afterCalls_latest (env : Env) {d : Daemon} (hempty : d.handler.outMessage = none)
    (calls : List HandlerCall) :
    (afterCalls env calls d).table = d.table ∧
      ((afterCalls env calls d).handler.outMessage ≠ none →
        latest calls = some (afterCalls env calls d).handler.currentMsg) := by
  induction calls using List.reverseRecOn with
  | nil => exact ⟨rfl, fun hkept => absurd hempty hkept⟩
  | append_singleton calls call ih =>
    have hnext : afterCalls env (calls ++ [call]) d = act env (afterCalls env calls d) call := by
      unfold afterCalls
      rw [List.foldl_concat]
    rw [hnext]
    refine ⟨(act_table env _ call).trans ih.1, ?_⟩
    cases call with
    | incoming msg =>
      intro _
      rw [act, (processIncoming_stored env msg _).1, latest, List.filterMap_append]
      exact List.getLast?_concat
    | getResponse =>
      intro hkept
      exact absurd (getResponse_eq _).2.1 hkept

/-- In every state of a run from start-up `getResponse` returns nothing or the response to the
message processed last, a local command, exactly when no message is forwarded while the
response to an earlier one is stored. -/
theorem getResponse_fresh_iff (env : Env) (mode : ProtocolMode) (channel : Option Channel)
    (channelName : String) (bus : Option Bus) (table : Table) (calls : List HandlerCall) :
    let fresh : Daemon := { start mode channel channelName bus with table }
    (∀ done, done <+: calls → ∀ resp, (getResponse (afterCalls env done fresh)).1 = some resp →
      ∃ msg, latest done = some msg ∧ ResponseTo table msg resp) ↔
    Runs.Avoids (act env) LeavesStale fresh calls := by
  intro fresh
  rw [← Runs.always_iff (P := Fresh) (fun d call _ hcall => act_fresh env hcall)
    (fun d call hcall => hcall.not_fresh env) (by intro resp hresp; contradiction)]
  apply forall₂_congr
  intro done _
  obtain ⟨htable, hlatest⟩ := afterCalls_latest env (d := fresh) rfl done
  rw [(getResponse_eq _).1]
  apply forall₂_congr
  intro resp hresp
  have hlast := hlatest (by rw [hresp]; exact Option.some_ne_none resp)
  change _ ↔ ResponseTo (afterCalls env done fresh).table
    (afterCalls env done fresh).handler.currentMsg resp
  rw [hlast, htable]
  constructor
  · rintro ⟨msg, hmsg, hanswers⟩
    rw [Option.some.inj hmsg]
    exact hanswers
  · intro hanswers
    exact ⟨_, rfl, hanswers⟩

/-- A session command is answered, then Get Device ID is forwarded: `getResponse` returns the
response to the session command. -/
theorem stale_response :
    let calls : List HandlerCall :=
      [.incoming { netFn := 0x06, cmd := 0x3B, data := [0x04], seqNum := 0x01 },
        .incoming { netFn := 0x06, cmd := 0x01, seqNum := 0x02 }]
    let d := afterCalls .reliable calls (start .terminal none "serial0" (some {}))
    ∃ resp, (getResponse d).1 = some resp ∧ resp.cmd = 0x3B ∧ resp.seqNum = 0x01 ∧
      latest calls = some { netFn := 0x06, cmd := 0x01, seqNum := 0x02 } ∧
      ¬ ResponseTo sessionTable { netFn := 0x06, cmd := 0x01, seqNum := 0x02 } resp := by
  intro calls d
  refine ⟨localResponse { netFn := 0x06, cmd := 0x3B, data := [0x04], seqNum := 0x01 } [0x04],
    by decide +kernel, rfl, rfl, rfl, ?_⟩
  intro h
  have hcmd := h.cmd
  contradiction

end Daemon

end SerialIpmi
