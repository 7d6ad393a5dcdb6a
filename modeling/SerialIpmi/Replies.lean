import SerialIpmi.Responses

/-! Requests forwarded to the bus and their replies, in any order. The handler keeps
one slot, so what becomes of a reply depends on the calls made since its own. -/
namespace SerialIpmi

open Decoding

def arrivals (trace : List Action) : List (Nat × Reply) :=
  trace.filterMap fun action => match action with
    | .reply serial reply => some (serial, reply)
    | _ => none

def answers (trace : List Action) : List (Nat × Message) :=
  trace.filterMap fun action => match action with
    | .answer serial resp => some (serial, resp)
    | _ => none

/-- A call belongs to the message that came in last before it. -/
def requestStep : Core (Option Message) Action (Nat × Message)
  | _, .incoming msg => (some msg, [])
  | current, .called serial => (current, current.toList.map fun msg => (serial, msg))
  | current, _ => (current, [])

def requests (trace : List Action) : List (Nat × Message) :=
  (run requestStep none trace).2

namespace Daemon

def calls (d : Daemon) : List Call := d.bus.elim [] Bus.calls

def replied (d : Daemon) : List Nat := d.bus.elim [] Bus.replied

def Outstanding (d : Daemon) (serial : Nat) : Prop :=
  serial < d.calls.length ∧ serial ∉ d.replied

theorem outstanding_iff {d : Daemon} {bus : Bus} (h : d.bus = some bus) (serial : Nat) :
    d.Outstanding serial ↔ bus.Outstanding serial := by
  simp [Outstanding, Bus.Outstanding, calls, replied, h]

structure Sends (d : Daemon) (sent : List (Nat × Message)) (d' : Daemon) : Prop where
  calls : d'.calls = d.calls
  replied : d'.replied = d.replied
  asyncSlot : d'.handler.asyncSlot = d.handler.asyncSlot
  trace : ∃ actions, d'.trace = d.trace ++ actions ∧ arrivals actions = [] ∧
    answers actions = sent ∧ ∀ current, (run requestStep current actions).2 = []

namespace Sends

variable {d d' d'' : Daemon} {sent sent' : List (Nat × Message)}

theorem refl (d : Daemon) : Sends d [] d :=
  ⟨rfl, rfl, rfl, [], (List.append_nil _).symm, rfl, rfl, fun _ => rfl⟩

theorem trans (h : Sends d sent d') (h' : Sends d' sent' d'') : Sends d (sent ++ sent') d'' := by
  obtain ⟨actions, htrace, harrivals, hanswers, hrequests⟩ := h.trace
  obtain ⟨actions', htrace', harrivals', hanswers', hrequests'⟩ := h'.trace
  refine ⟨h'.calls.trans h.calls, h'.replied.trans h.replied, h'.asyncSlot.trans h.asyncSlot,
    actions ++ actions', ?_, ?_, ?_, fun current => ?_⟩
  · rw [htrace', htrace, List.append_assoc]
  · rw [arrivals, List.filterMap_append, ← arrivals, ← arrivals, harrivals, harrivals']
    rfl
  · rw [answers, List.filterMap_append, ← answers, ← answers, hanswers, hanswers']
  · rw [run_append, hrequests, hrequests']
    rfl

theorem arrivals_eq (h : Sends d sent d') : arrivals d'.trace = arrivals d.trace := by
  obtain ⟨actions, htrace, harrivals, -, -⟩ := h.trace
  rw [htrace, arrivals, List.filterMap_append, ← arrivals, ← arrivals, harrivals, List.append_nil]

theorem answers_eq (h : Sends d sent d') : answers d'.trace = answers d.trace ++ sent := by
  obtain ⟨actions, htrace, -, hanswers, -⟩ := h.trace
  rw [htrace, answers, List.filterMap_append, ← answers, ← answers, hanswers]

theorem requests_eq (h : Sends d sent d') : requests d'.trace = requests d.trace := by
  obtain ⟨actions, htrace, -, -, hrequests⟩ := h.trace
  rw [htrace, requests, run_append, hrequests, List.append_nil, requests]

end Sends

theorem sendResponse_sends (env : Env) (resp : Message) (d : Daemon) :
    Sends d [] (sendResponse env resp d).state := by
  rcases sendResponse_cases env resp d with ⟨-, h⟩ | ⟨e, device, -, h⟩ | ⟨written, -, h⟩
  · rw [h]
    exact .refl d
  · rw [h]
    exact ⟨rfl, rfl, rfl, [.write (d.frame resp)], rfl, rfl, rfl, fun _ => rfl⟩
  · rw [h]
    exact ⟨rfl, rfl, rfl, [.write (d.frame resp)], rfl, rfl, rfl, fun _ => rfl⟩

theorem sendAnswer_sends (env : Env) (serial : Nat) (resp : Message) (d : Daemon) :
    Sends d [(serial, resp)] (sendAnswer env serial resp d).state := by
  have hanswer : Sends d [(serial, resp)] (d.log (.answer serial resp)) :=
    ⟨rfl, rfl, rfl, [.answer serial resp], rfl, rfl, rfl, fun _ => rfl⟩
  exact hanswer.trans (sendResponse_sends ..)

theorem replyCallback_sends (env : Env) (serial : Nat) (c : Callback) (reply : Reply) (d : Daemon) :
    ∃ sent : List Message,
      Sends d (sent.map fun resp => (serial, resp)) (replyCallback env serial c reply d).state ∧
      match firstAnswer c reply with
      | some resp => sent = [resp] ∨ sent = [resp, c.exceptionResponse]
      | none => sent = [c.exceptionResponse] := by
  rcases replyCallback_cases env serial c reply d with
    ⟨resp, d', hfirst, hsend, h⟩ | ⟨resp, e, d', hfirst, hsend, h⟩ | ⟨hfirst, h⟩
  · have hsends := sendAnswer_sends env serial resp d
    rw [hsend] at hsends
    rw [h, hfirst]
    exact ⟨[resp], hsends, Or.inl rfl⟩
  · have hsends := sendAnswer_sends env serial resp d
    rw [hsend] at hsends
    rw [h, hfirst]
    exact ⟨[resp, c.exceptionResponse], hsends.trans (sendAnswer_sends ..), Or.inr rfl⟩
  · rw [h, hfirst]
    exact ⟨[c.exceptionResponse], sendAnswer_sends .., rfl⟩

theorem sendResponse_accepted (env : Env) (resp : Message) (d : Daemon) :
    match sendResponse env resp d with
    | .ok d' => d'.device.accepted.length ≤ d.device.accepted.length + 1
    | .thrown _ d' => d'.device.accepted = d.device.accepted := by
  rcases sendResponse_cases env resp d with ⟨-, h⟩ | ⟨e, device, haccepted, h⟩ | ⟨written, -, h⟩
  · rw [h]
    exact Nat.le_succ _
  · rw [h]
    exact haccepted
  · rw [h]
    simp

theorem replyCallback_accepted (env : Env) (serial : Nat) (c : Callback) (reply : Reply)
    (d : Daemon) : (replyCallback env serial c reply d).state.device.accepted.length ≤
      d.device.accepted.length + 1 := by
  have hlast : ∀ d : Daemon, (sendAnswer env serial c.exceptionResponse d).state.device.accepted.length
      ≤ d.device.accepted.length + 1 := by
    intro d
    have haccepted := sendResponse_accepted env c.exceptionResponse
      (d.log (.answer serial c.exceptionResponse))
    unfold sendAnswer
    cases hsend : sendResponse env c.exceptionResponse
        (d.log (.answer serial c.exceptionResponse)) with
    | ok d' =>
      rw [hsend] at haccepted
      exact haccepted
    | thrown e d' =>
      rw [hsend] at haccepted
      exact Nat.le_succ_of_le (Nat.le_of_eq (congrArg List.length haccepted))
  rcases replyCallback_cases env serial c reply d with
    ⟨resp, d', -, hsend, h⟩ | ⟨resp, e, d', -, hsend, h⟩ | ⟨-, h⟩
  · have haccepted := sendResponse_accepted env resp (d.log (.answer serial resp))
    rw [← sendAnswer, hsend] at haccepted
    rw [h]
    exact haccepted
  · have haccepted := sendResponse_accepted env resp (d.log (.answer serial resp))
    rw [← sendAnswer, hsend] at haccepted
    have hsame : d'.device.accepted = d.device.accepted := haccepted
    rw [h, ← hsame]
    exact hlast d'
  · rw [h]
    exact hlast d

def Calls (env : Env) (d : Daemon) (msg : Message) : Prop :=
  d.table.executeCommand ⟨msg.netFn, msg.cmd⟩ msg.data = none ∧
    ∃ bus, d.bus = some bus ∧ env.callAsync bus.attempts = true

def callbackOf (msg : Message) : Callback where
  netFn := msg.netFn
  lun := msg.lun
  cmd := msg.cmd
  sessionId := msg.sessionId
  seqNum := msg.seqNum

structure Starts (d : Daemon) (msg : Message) (d' : Daemon) : Prop where
  calls : ∃ call, call.callback = callbackOf msg ∧ d'.calls = d.calls ++ [call]
  replied : d'.replied = d.replied
  asyncSlot : d'.handler.asyncSlot = some d.calls.length
  trace : d'.trace = d.trace ++ [.incoming msg,
    .forward msg.netFn msg.lun msg.cmd msg.data msg.sessionId, .called d.calls.length]

theorem Starts.arrivals_eq {d d' : Daemon} {msg : Message} (h : Starts d msg d') :
    arrivals d'.trace = arrivals d.trace := by
  rw [h.trace, arrivals, List.filterMap_append, arrivals]
  exact List.append_nil _

theorem Starts.answers_eq {d d' : Daemon} {msg : Message} (h : Starts d msg d') :
    answers d'.trace = answers d.trace := by
  rw [h.trace, answers, List.filterMap_append, answers]
  exact List.append_nil _

theorem processIncoming_cases (env : Env) (msg : Message) (d : Daemon) :
    (¬ Calls env d msg ∧ Sends d [] (processIncoming env msg d).state) ∨
      (Calls env d msg ∧ Starts d msg (processIncoming env msg d).state) := by
  cases hexecute : d.table.executeCommand ⟨msg.netFn, msg.cmd⟩ msg.data with
  | some respData =>
    left
    have hresponding : Sends d [] (d.responding msg respData) :=
      ⟨rfl, rfl, rfl, [.incoming msg, .respond (localResponse msg respData)], rfl, rfl, rfl,
        fun _ => rfl⟩
    rw [processIncoming_local env hexecute]
    exact ⟨fun h => by simp [h.1] at hexecute, hresponding.trans (sendResponse_sends ..)⟩
  | none =>
    rw [processIncoming_forward env hexecute]
    rcases forwardToIpmid_cases env msg.netFn msg.lun msg.cmd msg.data msg.sessionId
      (d.received msg) with ⟨hbus, h⟩ | ⟨bus, hbus, ⟨hcall, h⟩ | ⟨hcall, h⟩⟩
    · left
      have hnone : d.bus = none := hbus
      refine ⟨fun hcalls => by simp [Calls, hnone] at hcalls, ?_⟩
      rw [h]
      exact ⟨rfl, rfl, rfl, [.incoming msg,
        .forward msg.netFn msg.lun msg.cmd msg.data msg.sessionId], List.append_assoc .., rfl, rfl,
        fun _ => rfl⟩
    · left
      have hsome : d.bus = some bus := hbus
      refine ⟨fun hcalls => by simp [Calls, hsome, hcall] at hcalls, ?_⟩
      rw [h]
      refine ⟨?_, ?_, rfl, [.incoming msg,
        .forward msg.netFn msg.lun msg.cmd msg.data msg.sessionId], List.append_assoc .., rfl, rfl,
        fun _ => rfl⟩
      · simp [calls, hsome]
      · simp [replied, hsome]
    · right
      have hsome : d.bus = some bus := hbus
      refine ⟨⟨hexecute, bus, hsome, hcall⟩, ?_⟩
      rw [h]
      refine ⟨⟨(d.received msg).busCall msg.netFn msg.lun msg.cmd msg.data msg.sessionId, rfl, ?_⟩,
        ?_, ?_, ?_⟩
      · simp [calls, hsome, log]
      · simp [replied, hsome, log]
      · simp [calls, hsome, log]
      · simp [calls, hsome, log, received]

structure Arrives (d : Daemon) (serial : Nat) (reply : Reply) (sent : List Message) (d' : Daemon) :
    Prop where
  calls : d'.calls = d.calls
  replied : d'.replied = d.replied ++ [serial]
  asyncSlot : d'.handler.asyncSlot = d.handler.asyncSlot
  arrivals : arrivals d'.trace = arrivals d.trace ++ [(serial, reply)]
  answers : answers d'.trace = answers d.trace ++ sent.map fun resp => (serial, resp)
  requests : requests d'.trace = requests d.trace
  accepted : d'.device.accepted.length ≤ d.device.accepted.length + 1

theorem Arrives.of_sends {d d' : Daemon} {bus : Bus} {serial : Nat} {reply : Reply}
    {sent : List Message} (hbus : d.bus = some bus)
    (h : Sends (d.arrived bus serial reply) (sent.map fun resp => (serial, resp)) d')
    (haccepted : d'.device.accepted.length ≤ d.device.accepted.length + 1) :
    Arrives d serial reply sent d' where
  calls := by rw [h.calls]; simp [Daemon.calls, arrived, hbus]
  replied := by rw [h.replied]; simp [Daemon.replied, arrived, hbus]
  asyncSlot := h.asyncSlot
  arrivals := by
    rw [h.arrivals_eq, SerialIpmi.arrivals, arrived, List.filterMap_append]
    rfl
  answers := by
    rw [h.answers_eq, SerialIpmi.answers, SerialIpmi.answers, arrived, List.filterMap_append]
    simp
  requests := by
    rw [h.requests_eq, SerialIpmi.requests, arrived, run_append, SerialIpmi.requests]
    exact List.append_nil _
  accepted := haccepted

theorem deliver_arrives (env : Env) (serial : Nat) (reply : Reply) (d : Daemon) :
    (¬ d.Outstanding serial ∧ (deliver env serial reply d).state = d) ∨
    (d.Outstanding serial ∧ d.handler.asyncSlot ≠ some serial ∧
      Arrives d serial reply [] (deliver env serial reply d).state) ∨
    (d.Outstanding serial ∧ d.handler.asyncSlot = some serial ∧
      ∃ call sent, d.calls[serial]? = some call ∧
        Arrives d serial reply sent (deliver env serial reply d).state ∧
        match firstAnswer call.callback reply with
        | some resp => sent = [resp] ∨ sent = [resp, call.callback.exceptionResponse]
        | none => sent = [call.callback.exceptionResponse]) := by
  rcases deliver_cases env serial reply d with
    ⟨hnot, h⟩ | ⟨bus, hbus, houtstanding, ⟨hslot, h⟩ | ⟨call, hslot, hcall, h⟩⟩
  · left
    refine ⟨fun hlive => ?_, by rw [h]; rfl⟩
    cases hbus : d.bus with
    | none => simp [Outstanding, calls, hbus] at hlive
    | some bus => exact hnot bus hbus ((outstanding_iff hbus serial).mp hlive)
  · refine Or.inr (Or.inl ⟨(outstanding_iff hbus serial).mpr houtstanding, hslot, ?_⟩)
    rw [h]
    exact .of_sends hbus (.refl _) (Nat.le_succ _)
  · refine Or.inr (Or.inr ⟨(outstanding_iff hbus serial).mpr houtstanding, hslot, ?_⟩)
    obtain ⟨sent, hsends, hsent⟩ :=
      replyCallback_sends env serial call.callback reply (d.arrived bus serial reply)
    refine ⟨call, sent, by simpa [calls, hbus] using hcall, ?_, hsent⟩
    rw [h]
    exact .of_sends hbus hsends (replyCallback_accepted ..)

end Daemon

def errorAnswer (msg : Message) (completionCode : UInt8) : Message where
  netFn := msg.netFn ||| 0x01
  lun := msg.lun
  seqNum := msg.seqNum
  cmd := msg.cmd
  completionCode := completionCode
  sessionId := msg.sessionId

def expectedAnswer (msg : Message) : Reply → Option Message
  | .methodError => some (errorAnswer msg 0xCC)
  | .unreadable => none
  | .response netFn lun cmd cc data => some {
      netFn := netFn
      lun := lun
      seqNum := msg.seqNum
      cmd := cmd
      completionCode := cc
      data := data
      sessionId := msg.sessionId }

/-- The messages sent for one reply: the expected one, and a report of failure where
there is none or where sending it has failed. -/
def Owed (msg : Message) (reply : Reply) (sent : List Message) : Prop :=
  match expectedAnswer msg reply with
  | some resp => sent = [resp] ∨ sent = [resp, errorAnswer msg 0xFF]
  | none => sent = [errorAnswer msg 0xFF]

theorem Owed.mem {msg resp : Message} {reply : Reply} {sent : List Message}
    (h : Owed msg reply sent) (hresp : resp ∈ sent) :
    expectedAnswer msg reply = some resp ∨ resp = errorAnswer msg 0xFF := by
  unfold Owed at h
  cases hexpected : expectedAnswer msg reply with
  | none =>
    rw [hexpected] at h
    right
    simpa [h] using hresp
  | some first =>
    rw [hexpected] at h
    rcases h with rfl | rfl
    · left
      rw [List.mem_singleton.mp hresp]
    · rcases List.mem_pair.mp hresp with rfl | rfl
      · exact Or.inl rfl
      · exact Or.inr rfl

theorem Owed.seqNum {msg resp : Message} {reply : Reply} {sent : List Message}
    (h : Owed msg reply sent) (hresp : resp ∈ sent) : resp.seqNum = msg.seqNum := by
  rcases h.mem hresp with hexpected | rfl
  · cases reply with
    | methodError => rw [← Option.some.inj hexpected]; rfl
    | unreadable => cases hexpected
    | response netFn lun cmd cc data => rw [← Option.some.inj hexpected]
  · rfl

namespace Daemon

theorem firstAnswer_callbackOf (msg : Message) (reply : Reply) :
    firstAnswer (callbackOf msg) reply = expectedAnswer msg reply := by
  cases reply <;> rfl

/-- The calls are those of the requests, in order, and each answer is one that its
request is owed. -/
structure Correlated (d : Daemon) : Prop where
  serials : (requests d.trace).map Prod.fst = List.range d.calls.length
  callbacks : d.calls.map Call.callback = (requests d.trace).map fun request => callbackOf request.2
  answers : ∀ answer ∈ answers d.trace, ∃ msg reply sent, (answer.1, msg) ∈ requests d.trace ∧
    (answer.1, reply) ∈ arrivals d.trace ∧ Owed msg reply sent ∧ answer.2 ∈ sent

theorem Correlated.request {d : Daemon} (h : Correlated d) {serial : Nat} {call : Call}
    (hcall : d.calls[serial]? = some call) :
    ∃ msg, (requests d.trace)[serial]? = some (serial, msg) ∧ call.callback = callbackOf msg := by
  have hcallback := congrArg (fun callbacks => callbacks[serial]?) h.callbacks
  have hserial := congrArg (fun serials => serials[serial]?) h.serials
  simp only [List.getElem?_map, hcall, Option.map_some] at hcallback hserial
  have hlength : serial < d.calls.length := (List.getElem?_eq_some_iff.mp hcall).1
  rw [List.getElem?_range hlength] at hserial
  obtain ⟨request, hrequest, hmsg⟩ := Option.map_eq_some_iff.mp hcallback.symm
  rw [hrequest, Option.map_some, Option.some.injEq] at hserial
  exact ⟨request.2, by rw [hrequest, ← hserial], hmsg.symm⟩

theorem Correlated.of_sends {d d' : Daemon} (h : Correlated d) (hsends : Sends d [] d') :
    Correlated d' where
  serials := by rw [hsends.requests_eq, hsends.calls, h.serials]
  callbacks := by rw [hsends.requests_eq, hsends.calls, h.callbacks]
  answers := by
    rw [hsends.requests_eq, hsends.answers_eq, hsends.arrivals_eq, List.append_nil]
    exact h.answers

theorem Correlated.of_starts {d d' : Daemon} {msg : Message} (h : Correlated d)
    (hstarts : Starts d msg d') : Correlated d' := by
  obtain ⟨call, hcallback, hcalls⟩ := hstarts.calls
  have hrequests : requests d'.trace = requests d.trace ++ [(d.calls.length, msg)] := by
    rw [hstarts.trace, requests, run_append, requests]
    rfl
  refine ⟨?_, ?_, ?_⟩
  · rw [hrequests, hcalls, List.map_append, h.serials, List.length_append, List.length_singleton,
      List.range_succ]
    rfl
  · rw [hrequests, hcalls, List.map_append, List.map_append, h.callbacks, List.map_singleton,
      List.map_singleton, hcallback]
  · rw [hrequests, hstarts.arrivals_eq, hstarts.answers_eq]
    intro answer hanswer
    obtain ⟨msg', reply, sent, hmsg, hreply, howed⟩ := h.answers answer hanswer
    exact ⟨msg', reply, sent, List.mem_append_left _ hmsg, hreply, howed⟩

theorem Correlated.of_arrives {d d' : Daemon} {serial : Nat} {reply : Reply} {sent : List Message}
    (h : Correlated d) (harrives : Arrives d serial reply sent d')
    (hsent : sent = [] ∨ ∃ msg, (serial, msg) ∈ requests d.trace ∧ Owed msg reply sent) :
    Correlated d' := by
  refine ⟨by rw [harrives.requests, harrives.calls, h.serials],
    by rw [harrives.requests, harrives.calls, h.callbacks], ?_⟩
  rw [harrives.requests, harrives.answers, harrives.arrivals]
  intro answer hanswer
  rcases List.mem_append.mp hanswer with hold | hnew
  · obtain ⟨msg', reply', sent', hmsg, hreply, howed⟩ := h.answers answer hold
    exact ⟨msg', reply', sent', hmsg, List.mem_append_left _ hreply, howed⟩
  · obtain ⟨resp, hresp, rfl⟩ := List.mem_map.mp hnew
    rcases hsent with rfl | ⟨msg, hmsg, howed⟩
    · simp at hresp
    · exact ⟨msg, reply, sent, hmsg, by simp, howed, hresp⟩

theorem Correlated.deliver {d : Daemon} (h : Correlated d) (env : Env) (serial : Nat)
    (reply : Reply) :
    let d' := (Daemon.deliver env serial reply d).state
    Correlated d' ∧ d'.device.accepted.length ≤ d.device.accepted.length + 1 ∧
      ((¬ (d.Outstanding serial ∧ d.handler.asyncSlot = some serial) ∧
          SerialIpmi.answers d'.trace = SerialIpmi.answers d.trace) ∨
        (d.Outstanding serial ∧ d.handler.asyncSlot = some serial ∧
          ∃ msg sent, (requests d.trace)[serial]? = some (serial, msg) ∧ Owed msg reply sent ∧
            SerialIpmi.answers d'.trace =
              SerialIpmi.answers d.trace ++ sent.map fun resp => (serial, resp))) := by
  intro d'
  rcases deliver_arrives env serial reply d with
    ⟨hnot, hsame⟩ | ⟨hlive, hslot, harrives⟩ | ⟨hlive, hslot, call, sent, hcall, harrives, hsent⟩
  · have hd' : d' = d := hsame
    rw [hd']
    exact ⟨h, Nat.le_succ _, Or.inl ⟨fun hboth => hnot hboth.1, rfl⟩⟩
  · refine ⟨h.of_arrives harrives (Or.inl rfl), harrives.accepted,
      Or.inl ⟨fun hboth => hslot hboth.2, ?_⟩⟩
    rw [harrives.answers]
    exact List.append_nil _
  · obtain ⟨msg, hmsg, hcallback⟩ := h.request hcall
    have howed : Owed msg reply sent := by
      rw [hcallback, firstAnswer_callbackOf] at hsent
      exact hsent
    exact ⟨h.of_arrives harrives (Or.inr ⟨msg, List.mem_of_getElem? hmsg, howed⟩), harrives.accepted,
      Or.inr ⟨hlive, hslot, msg, sent, hmsg, howed, harrives.answers⟩⟩

end Daemon

inductive Step where
  | incoming (msg : Message)
  | reply (serial : Nat) (reply : Reply)

namespace Daemon

def perform (env : Env) : Step → Daemon → Outcome Failure Daemon
  | .incoming msg, d => processIncoming env msg d
  | .reply serial reply, d => deliver env serial reply d

theorem correlated_start (mode : ProtocolMode) (channel : Option Channel) (channelName : String) :
    Correlated (start mode channel channelName (some {})) :=
  ⟨rfl, rfl, by simp [answers, start]⟩

theorem Correlated.perform {d : Daemon} (h : Correlated d) (env : Env) (step : Step) :
    Correlated (Daemon.perform env step d).state := by
  cases step with
  | incoming msg =>
    rcases processIncoming_cases env msg d with ⟨-, hsends⟩ | ⟨-, hstarts⟩
    · exact h.of_sends hsends
    · exact h.of_starts hstarts
  | reply serial reply => exact (h.deliver env serial reply).1

end Daemon

end SerialIpmi
