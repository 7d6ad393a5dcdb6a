import SerialIpmi.Library.Numbered
import SerialIpmi.Replies

/-! The bus over whole runs: which calls a stream of bytes makes, and which of their replies are
answered. -/
namespace SerialIpmi

open Decoding

def callOf (channelName : String) (msg : Message) : Call where
  method := { netFn := msg.netFn, lun := msg.lun, cmd := msg.cmd, data := msg.data,
              channel := channelName }
  callback := Daemon.callbackOf msg

def forwarded (t : Table) (msgs : List Message) : List Message :=
  msgs.filter fun msg => (t.executeCommand ⟨msg.netFn, msg.cmd⟩ msg.data).isNone

/-- The messages whose call reaches the bus, the k-th message being the k-th attempt. -/
def Env.called (env : Env) (msgs : List Message) : List Message :=
  Numbered.results (fun count msg => if env.callAsync count then some msg else none) msgs

namespace Daemon

def attempts (d : Daemon) : Nat := d.bus.elim 0 Bus.attempts

def dispatched (d : Daemon) : List Message :=
  d.trace.filterMap Action.dispatched

structure SameCalls (d d' : Daemon) : Prop where
  table : d'.table = d.table
  channelName : d'.handler.channelName = d.handler.channelName
  dispatched : d'.dispatched = d.dispatched
  connected : d'.bus.isSome = d.bus.isSome
  attempts : d'.attempts = d.attempts
  calls : d'.calls = d.calls

theorem SameCalls.refl (d : Daemon) : SameCalls d d :=
  ⟨rfl, rfl, rfl, rfl, rfl, rfl⟩

theorem SameCalls.trans {d d' d'' : Daemon} (h : SameCalls d d') (h' : SameCalls d' d'') :
    SameCalls d d'' where
  table := h'.table.trans h.table
  channelName := h'.channelName.trans h.channelName
  dispatched := h'.dispatched.trans h.dispatched
  connected := h'.connected.trans h.connected
  attempts := h'.attempts.trans h.attempts
  calls := h'.calls.trans h.calls

theorem dispatched_of_log {d d' : Daemon} (actions : List Action)
    (htrace : d'.trace = d.trace ++ actions) :
    d'.dispatched = d.dispatched ++ actions.filterMap Action.dispatched := by
  rw [dispatched, htrace, List.filterMap_append, ← dispatched]

theorem sendResponse_sameCalls (env : Env) (resp : Message) (d : Daemon) :
    SameCalls d (sendResponse env resp d).state := by
  have hwrite : ∀ d' : Daemon, d'.trace = d.trace ++ [.write (d.frame resp)] →
      d'.dispatched = d.dispatched := by
    intro d' htrace
    rw [dispatched_of_log _ htrace]
    exact List.append_nil _
  rcases sendResponse_cases env resp d with ⟨-, h⟩ | ⟨e, device, -, h⟩ | ⟨written, -, h⟩
  · rw [h]
    exact .refl d
  · rw [h]
    exact ⟨rfl, rfl, hwrite _ rfl, rfl, rfl, rfl⟩
  · rw [h]
    exact ⟨rfl, rfl, hwrite _ rfl, rfl, rfl, rfl⟩

theorem sendAnswer_sameCalls (env : Env) (serial : Nat) (resp : Message) (d : Daemon) :
    SameCalls d (sendAnswer env serial resp d).state := by
  have hlogged : SameCalls d (d.log (.answer serial resp)) := by
    refine ⟨rfl, rfl, ?_, rfl, rfl, rfl⟩
    rw [dispatched_of_log (d := d) [.answer serial resp] rfl]
    exact List.append_nil _
  exact hlogged.trans (sendResponse_sameCalls env resp _)

theorem deliver_sameCalls (env : Env) (serial : Nat) (reply : Reply) (d : Daemon) :
    SameCalls d (deliver env serial reply d).state := by
  have harrived : ∀ bus, d.bus = some bus → SameCalls d (d.arrived bus serial reply) := by
    intro bus hbus
    refine ⟨rfl, rfl, ?_, ?_, ?_, ?_⟩
    · rw [dispatched_of_log (d := d) [.reply serial reply] rfl]
      exact List.append_nil _
    · simp [arrived, hbus]
    · simp [arrived, attempts, hbus]
    · simp [arrived, calls, hbus]
  rcases deliver_cases env serial reply d with
    ⟨-, h⟩ | ⟨bus, hbus, -, ⟨-, h⟩ | ⟨call, -, -, h⟩⟩
  · rw [h]
    exact .refl d
  · rw [h]
    exact harrived bus hbus
  · rw [h]
    apply (harrived bus hbus).trans
    apply replyCallback_keeps SameCalls
    · intro d d' d'' hfirst hsecond
      exact hfirst.trans hsecond
    · exact sendAnswer_sameCalls env serial

structure OnBus (env : Env) (channelName : String) (table : Table) (msgs : List Message)
    (d : Daemon) : Prop where
  table : d.table = table
  name : d.handler.channelName = channelName
  connected : d.bus.isSome
  attempts : d.attempts = msgs.length
  calls : d.calls = (env.called msgs).map (callOf channelName)

variable {env : Env} {channelName : String} {table : Table} {msgs : List Message} {d d' : Daemon}

theorem OnBus.of_sameCalls (h : OnBus env channelName table msgs d) (hsame : SameCalls d d') :
    OnBus env channelName table msgs d' where
  table := hsame.table.trans h.table
  name := hsame.channelName.trans h.name
  connected := hsame.connected ▸ h.connected
  attempts := hsame.attempts.trans h.attempts
  calls := hsame.calls.trans h.calls

theorem OnBus.forward (h : OnBus env channelName table msgs d) (msg : Message)
    (hcurrent : d.handler.currentMsg = msg) :
    OnBus env channelName table (msgs ++ [msg])
      (forwardToIpmid env msg.netFn msg.lun msg.cmd msg.data msg.sessionId d).state := by
  have hcalled := Numbered.results_concat
    (fun count msg => if env.callAsync count then some msg else none) msgs msg
  obtain ⟨bus, hbus⟩ := Option.isSome_iff_exists.mp h.connected
  have hattempts : bus.attempts = msgs.length := by
    have hattempts := h.attempts
    rwa [Daemon.attempts, hbus] at hattempts
  have hcalls : bus.calls = (env.called msgs).map (callOf channelName) := by
    have hcalls := h.calls
    rwa [Daemon.calls, hbus] at hcalls
  have hlength : bus.attempts + 1 = (msgs ++ [msg]).length := by
    rw [hattempts, List.length_append, List.length_singleton]
  have hcall : d.busCall msg.netFn msg.lun msg.cmd msg.data msg.sessionId =
      callOf channelName msg := by
    unfold busCall callOf callbackOf
    rw [h.name, hcurrent]
  rcases forwardToIpmid_cases env msg.netFn msg.lun msg.cmd msg.data msg.sessionId d with
    ⟨hnone, -⟩ | ⟨bus', hbus', ⟨hasync, hforward⟩ | ⟨hasync, hforward⟩⟩
  · rw [hbus] at hnone
    cases hnone
  · obtain rfl := Option.some.inj (hbus.symm.trans hbus')
    rw [hattempts] at hasync
    rw [hasync] at hcalled
    rw [hforward]
    refine ⟨h.table, h.name, rfl, hlength, ?_⟩
    rw [Env.called, hcalled, List.map_append, ← Env.called, ← hcalls]
    exact (List.append_nil _).symm
  · obtain rfl := Option.some.inj (hbus.symm.trans hbus')
    rw [hattempts] at hasync
    rw [hasync] at hcalled
    rw [hforward]
    refine ⟨h.table, h.name, rfl, hlength, ?_⟩
    rw [Env.called, hcalled, List.map_append, ← Env.called, ← hcalls]
    exact congrArg (fun call => bus.calls ++ [call]) hcall

theorem forwarded_local {msg : Message} {respData : List UInt8} (msgs : List Message)
    (h : table.executeCommand ⟨msg.netFn, msg.cmd⟩ msg.data = some respData) :
    forwarded table (msgs ++ [msg]) = forwarded table msgs := by
  unfold forwarded
  rw [List.filter_append, List.filter_cons_of_neg (by simp [h])]
  exact List.append_nil _

theorem forwarded_other {msg : Message} (msgs : List Message)
    (h : table.executeCommand ⟨msg.netFn, msg.cmd⟩ msg.data = none) :
    forwarded table (msgs ++ [msg]) = forwarded table msgs ++ [msg] := by
  unfold forwarded
  rw [List.filter_append, List.filter_cons_of_pos (by simp [h])]
  rfl

theorem processIncoming_dispatched (env : Env) (msg : Message) (d : Daemon) :
    (processIncoming env msg d).state.dispatched = d.dispatched ++ [msg] := by
  have hmsg := filterMap_dispatchActions d.table [msg]
  rw [List.flatMap_singleton] at hmsg
  rw [dispatched, ← filterMap_dispatched, (processIncoming_dispatches env msg d).trace,
    List.filterMap_append, filterMap_dispatched, hmsg, dispatched]

theorem processIncoming_onBus (msg : Message)
    (h : OnBus env channelName table (forwarded table d.dispatched) d) :
    OnBus env channelName table (forwarded table (processIncoming env msg d).state.dispatched)
      (processIncoming env msg d).state := by
  rw [processIncoming_dispatched]
  cases hexecute : table.executeCommand ⟨msg.netFn, msg.cmd⟩ msg.data with
  | some respData =>
    have hsame := sendResponse_sameCalls env (localResponse msg respData)
      (d.responding msg respData)
    have hresponding : OnBus env channelName table (forwarded table d.dispatched)
        (d.responding msg respData) := ⟨h.table, h.name, h.connected, h.attempts, h.calls⟩
    rw [forwarded_local _ hexecute, processIncoming_local env (by rw [h.table, hexecute])]
    exact hresponding.of_sameCalls hsame
  | none =>
    have hreceived : OnBus env channelName table (forwarded table d.dispatched) (d.received msg) :=
      ⟨h.table, h.name, h.connected, h.attempts, h.calls⟩
    rw [forwarded_other _ hexecute, processIncoming_forward env (by rw [h.table, hexecute])]
    exact hreceived.forward msg rfl

/-- The calls on the bus are those of the messages in the stream that no registered command
answers, in their order and with their arguments. Each message is one attempt, whatever else
happens, and those attempts that fail make no call. -/
theorem calls_of_stream (env : Env) (mode : ProtocolMode) (channel : Option Channel)
    (channelName : String) (table : Table) (events : List Event) :
    let d := Outcome.eachCaught (handle env) events
      { start mode channel channelName (some {}) with table }
    let msgs := forwarded table (streamMessages mode (events.flatMap Event.input))
    d.attempts = msgs.length ∧ d.calls = (env.called msgs).map (callOf channelName) := by
  intro d msgs
  have hfresh := settled_fresh mode channel channelName (some {}) table
  have hstart : OnBus env channelName table []
      { start mode channel channelName (some {}) with table } := ⟨rfl, rfl, rfl, rfl, rfl⟩
  have h : OnBus env channelName table (forwarded table d.dispatched) d := by
    apply hfresh.run_keeps
      (P := fun d => OnBus env channelName table (forwarded table d.dispatched) d) _ _ _ hstart
    · intro parser rxBuffer d _ h
      exact ⟨h.table, h.name, h.connected, h.attempts, h.calls⟩
    · intro msg d h
      exact processIncoming_onBus msg h
    · intro serial reply d h
      have hsame := deliver_sameCalls env serial reply d
      rw [hsame.dispatched]
      exact h.of_sameCalls hsame
  have hsettled := hfresh.run env events
  rw [List.nil_append] at hsettled
  have hmsgs : forwarded table d.dispatched = msgs := congrArg _ hsettled.dispatched
  rw [hmsgs] at h
  exact ⟨h.attempts, h.calls⟩

end Daemon

/-- A reply counts while its call is the latest one made; the state is the serial of that one. -/
def answerStep : Core (Option Nat) Action Nat
  | _, .called serial => (some serial, [])
  | latest, .reply serial _ => (latest, if latest = some serial then [serial] else [])
  | latest, _ => (latest, [])

def answerable (trace : List Action) : List Nat :=
  (run answerStep none trace).2

theorem run_answerStep_quiet {actions : List Action} (harrivals : arrivals actions = [])
    (hrequests : ∃ msg, (run requestStep (some msg) actions).2 = []) (latest : Option Nat) :
    run answerStep latest actions = (latest, []) := by
  induction actions with
  | nil => rfl
  | cons action actions ih =>
    obtain ⟨msg, hmsg⟩ := hrequests
    cases action with
    | reply serial reply => simp [arrivals] at harrivals
    | called serial => simp [run_cons, requestStep] at hmsg
    | incoming msg' => simp [run_cons, answerStep, ih harrivals ⟨msg', hmsg⟩]
    | respond resp => simp [run_cons, answerStep, ih harrivals ⟨msg, hmsg⟩]
    | forward netFn lun cmd data sessionId =>
      simp [run_cons, answerStep, ih harrivals ⟨msg, hmsg⟩]
    | answer serial resp => simp [run_cons, answerStep, ih harrivals ⟨msg, hmsg⟩]
    | write bytes => simp [run_cons, answerStep, ih harrivals ⟨msg, hmsg⟩]

/-- The callbacks have sent one group of messages for each of these serials, in this order, and
nothing else; and each group is what the request of its serial is owed. -/
def AnsweredInGroups (trace : List Action) : Prop :=
  ∃ groups : List (Nat × List Message),
    groups.map Prod.fst = answerable trace ∧
    answers trace = groups.flatMap (fun group => group.2.map fun resp => (group.1, resp)) ∧
    ∀ group ∈ groups, ∃ msg reply, (group.1, msg) ∈ requests trace ∧
      (group.1, reply) ∈ arrivals trace ∧ Owed msg reply group.2

namespace Daemon

structure Answered (d : Daemon) : Prop where
  slot : (run answerStep none d.trace).1 = d.handler.asyncSlot
  once : (answerable d.trace).Nodup
  arrived : ∀ serial ∈ answerable d.trace, serial ∈ d.replied
  groups : AnsweredInGroups d.trace

variable {d d' : Daemon}

theorem Sends.run_answerStep {sent : List (Nat × Message)} (h : Sends d sent d') :
    run answerStep none d'.trace = run answerStep none d.trace := by
  obtain ⟨actions, htrace, harrivals, -, hrequests⟩ := h.trace
  have hquiet := run_answerStep_quiet harrivals ⟨{}, hrequests (some {})⟩
  rw [htrace, run_append, hquiet, List.append_nil]

theorem Answered.of_sends (h : Answered d) (hsends : Sends d [] d') : Answered d' := by
  have hrun := hsends.run_answerStep
  have hanswerable : answerable d'.trace = answerable d.trace := congrArg Prod.snd hrun
  refine ⟨?_, ?_, ?_, ?_⟩
  · rw [hrun, hsends.asyncSlot]
    exact h.slot
  · rw [hanswerable]
    exact h.once
  · rw [hanswerable, hsends.replied]
    exact h.arrived
  · unfold AnsweredInGroups
    rw [hanswerable, hsends.answers_eq, hsends.requests_eq, hsends.arrivals_eq, List.append_nil]
    exact h.groups

theorem Answered.of_starts {msg : Message} (h : Answered d) (hstarts : Starts d msg d') :
    Answered d' := by
  have hrun : run answerStep none d'.trace = (some d.calls.length, answerable d.trace) := by
    rw [hstarts.trace, run_append]
    exact Prod.ext rfl (List.append_nil _)
  have hanswerable : answerable d'.trace = answerable d.trace := by
    rw [answerable, hrun]
  refine ⟨?_, ?_, ?_, ?_⟩
  · rw [hrun, hstarts.asyncSlot]
  · rw [hanswerable]
    exact h.once
  · rw [hanswerable, hstarts.replied]
    exact h.arrived
  · obtain ⟨groups, hserials, hanswers, howed⟩ := h.groups
    refine ⟨groups, hserials.trans hanswerable.symm, hstarts.answers_eq.trans hanswers, ?_⟩
    intro group hgroup
    obtain ⟨msg', reply, hmsg, hreply, hgroup⟩ := howed group hgroup
    refine ⟨msg', reply, ?_, ?_, hgroup⟩
    · rw [hstarts.trace, requests, run_append]
      exact List.mem_append_left _ hmsg
    · rw [hstarts.arrivals_eq]
      exact hreply

theorem deliver_trace (env : Env) (serial : Nat) (reply : Reply) (d : Daemon) :
    (¬ d.Outstanding serial ∧ (deliver env serial reply d).state = d) ∨
    (d.Outstanding serial ∧ run answerStep none (deliver env serial reply d).state.trace =
      ((run answerStep none d.trace).1, answerable d.trace ++
        if (run answerStep none d.trace).1 = some serial then [serial] else [])) := by
  have hrun : ∀ bus, run answerStep none (d.arrived bus serial reply).trace =
      ((run answerStep none d.trace).1, answerable d.trace ++
        if (run answerStep none d.trace).1 = some serial then [serial] else []) := by
    intro bus
    rw [arrived, run_append, run_cons, run_nil, List.append_nil]
    rfl
  rcases deliver_cases env serial reply d with
    ⟨hnot, h⟩ | ⟨bus, hbus, hlive, ⟨-, h⟩ | ⟨call, -, -, h⟩⟩
  · left
    refine ⟨fun hlive => ?_, by rw [h]; rfl⟩
    cases hbus : d.bus with
    | none => simp [Outstanding, calls, hbus] at hlive
    | some bus => exact hnot bus hbus ((outstanding_iff hbus serial).mp hlive)
  · right
    rw [h]
    exact ⟨(outstanding_iff hbus serial).mpr hlive, hrun bus⟩
  · right
    obtain ⟨sent, hsends, -⟩ :=
      replyCallback_sends env serial call.callback reply (d.arrived bus serial reply)
    rw [h]
    exact ⟨(outstanding_iff hbus serial).mpr hlive, hsends.run_answerStep.trans (hrun bus)⟩

theorem Answered.deliver (h : Answered d) (hd : Correlated d) (env : Env) (serial : Nat)
    (reply : Reply) : Answered (Daemon.deliver env serial reply d).state := by
  obtain ⟨-, -, hgroup⟩ := hd.deliver env serial reply
  rcases deliver_trace env serial reply d with ⟨hnot, hsame⟩ | ⟨hlive, hrun⟩
  · rw [hsame]
    exact h
  · obtain ⟨sent, harrives⟩ : ∃ sent, Arrives d serial reply sent
        (Daemon.deliver env serial reply d).state := by
      rcases deliver_arrives env serial reply d with
        ⟨hnot, -⟩ | ⟨-, -, harrives⟩ | ⟨-, -, call, sent, -, harrives, -⟩
      · exact absurd hlive hnot
      · exact ⟨[], harrives⟩
      · exact ⟨sent, harrives⟩
    rw [h.slot] at hrun
    have hslot : (run answerStep none (Daemon.deliver env serial reply d).state.trace).1 =
        (Daemon.deliver env serial reply d).state.handler.asyncSlot := by
      rw [hrun, harrives.asyncSlot]
    have hold : ∀ groups : List (Nat × List Message),
        (∀ group ∈ groups, ∃ msg reply, (group.1, msg) ∈ requests d.trace ∧
          (group.1, reply) ∈ arrivals d.trace ∧ Owed msg reply group.2) →
        ∀ group ∈ groups, ∃ msg reply',
          (group.1, msg) ∈ requests (Daemon.deliver env serial reply d).state.trace ∧
          (group.1, reply') ∈ arrivals (Daemon.deliver env serial reply d).state.trace ∧
          Owed msg reply' group.2 := by
      intro groups howed group hmem
      obtain ⟨msg, reply', hmsg, hreply, howed⟩ := howed group hmem
      rw [harrives.requests, harrives.arrivals]
      exact ⟨msg, reply', hmsg, List.mem_append_left _ hreply, howed⟩
    obtain ⟨groups, hserials, hanswers, howed⟩ := h.groups
    rcases hgroup with ⟨hlost, hsame⟩ | ⟨-, hlatest, msg, sent', hmsg, howed', hsent⟩
    · have hother : d.handler.asyncSlot ≠ some serial := fun hlatest => hlost ⟨hlive, hlatest⟩
      have hanswerable : answerable (Daemon.deliver env serial reply d).state.trace =
          answerable d.trace := by
        rw [answerable, hrun, if_neg hother, List.append_nil]
      refine ⟨hslot, ?_, ?_, groups, ?_, ?_, hold groups howed⟩
      · rw [hanswerable]
        exact h.once
      · rw [hanswerable, harrives.replied]
        intro serial' hserial'
        exact List.mem_append_left _ (h.arrived serial' hserial')
      · rw [hanswerable, hserials]
      · rw [hsame, hanswers]
    · have hanswerable : answerable (Daemon.deliver env serial reply d).state.trace =
          answerable d.trace ++ [serial] := by
        rw [answerable, hrun, if_pos hlatest]
      refine ⟨hslot, ?_, ?_, groups ++ [(serial, sent')], ?_, ?_, ?_⟩
      · rw [hanswerable]
        apply List.nodup_append.mpr
        refine ⟨h.once, List.nodup_singleton _, ?_⟩
        rintro serial' hserial' _ hlast rfl
        rw [List.mem_singleton] at hlast
        exact hlive.2 (hlast ▸ h.arrived _ hserial')
      · rw [hanswerable, harrives.replied]
        intro serial' hserial'
        rcases List.mem_append.mp hserial' with hbefore | hlast
        · exact List.mem_append_left _ (h.arrived serial' hbefore)
        · exact List.mem_append_right _ hlast
      · rw [hanswerable, List.map_append, hserials]
        rfl
      · rw [hsent, hanswers, List.flatMap_append, List.flatMap_singleton]
      · intro group hmem
        rcases List.mem_append.mp hmem with hbefore | hlast
        · exact hold groups howed group hbefore
        · rw [List.mem_singleton] at hlast
          rw [hlast, harrives.requests, harrives.arrivals]
          exact ⟨msg, reply, List.mem_of_getElem? hmsg, by simp, howed'⟩

end Daemon

end SerialIpmi
