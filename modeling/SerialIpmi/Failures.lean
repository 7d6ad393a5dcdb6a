import SerialIpmi.Line

/-! What can end the event loop: the bus connection fails when it is to be processed, or else an
exception is the failure of the last thing that the daemon asked of the port or of the bus. No
received byte and no reply causes one by itself. -/
namespace SerialIpmi

namespace Daemon

variable {env : Env} {mode : ProtocolMode} {d₀ d d' : Daemon} {seen : List UInt8} {e : Failure}

/-- The last action of the daemon is one that fails in this way. No action of the daemon makes the
bus connection fail by itself. -/
def FailedLast (env : Env) (d : Daemon) : Failure → Prop
  | .notOpen path => ∃ channel bytes, d.handler.channel = some channel ∧ channel.fd < 0 ∧
      path = channel.devicePath ∧ d.trace.getLast? = some (.write bytes)
  | .writeError => ∃ count bytes, env.write count bytes = none ∧ d.device.writes = count + 1 ∧
      d.trace.getLast? = some (.write bytes)
  | .dbus => ∃ bus count msg, env.callAsync count = false ∧ d.bus = some bus ∧
      bus.attempts = count + 1 ∧ d.handler.currentMsg = msg ∧
      d.trace.getLast? = some (.forward msg.netFn msg.lun msg.cmd msg.data msg.sessionId)
  | .process => False

theorem sendResponse_failedLast {resp : Message} (h : sendResponse env resp d = .thrown e d') :
    FailedLast env d' e := by
  cases hchannel : d.handler.channel with
  | none =>
    rw [sendResponse_unconnected hchannel] at h
    cases h
  | some channel =>
    rcases Int.lt_or_le channel.fd 0 with hclosed | hopen
    · rw [sendResponse_closed hchannel hclosed] at h
      obtain ⟨rfl, rfl⟩ := Outcome.thrown.inj h
      exact ⟨channel, d.frame resp, hchannel, hclosed, rfl, List.getLast?_concat⟩
    · rw [sendResponse_open hchannel hopen] at h
      cases haccepts : env.accepts d.device.writes (d.frame resp) with
      | some bytes =>
        rw [haccepts] at h
        cases h
      | none =>
        rw [haccepts] at h
        obtain ⟨rfl, rfl⟩ := Outcome.thrown.inj h
        have hwrite := env.isSome_accepts d.device.writes (d.frame resp)
        rw [haccepts, eq_comm, Option.isSome_none, Option.isSome_eq_false_iff,
          Option.isNone_iff_eq_none] at hwrite
        exact ⟨_, d.frame resp, hwrite, rfl, List.getLast?_concat⟩

theorem processIncoming_failedLast {msg : Message} (h : processIncoming env msg d = .thrown e d') :
    FailedLast env d' e := by
  cases hexecute : d.table.executeCommand ⟨msg.netFn, msg.cmd⟩ msg.data with
  | some respData =>
    rw [processIncoming_local env hexecute] at h
    exact sendResponse_failedLast h
  | none =>
    rw [processIncoming_forward env hexecute] at h
    rcases forwardToIpmid_cases env msg.netFn msg.lun msg.cmd msg.data msg.sessionId
      (d.received msg) with ⟨-, hforward⟩ | ⟨bus, -, ⟨hfails, hforward⟩ | ⟨-, hforward⟩⟩
    · rw [hforward] at h
      cases h
    · rw [hforward] at h
      obtain ⟨rfl, rfl⟩ := Outcome.thrown.inj h
      exact ⟨_, bus.attempts, msg, hfails, rfl, rfl, rfl, List.getLast?_concat⟩
    · rw [hforward] at h
      cases h

theorem deliver_failedLast {serial : Nat} {reply : Reply}
    (h : deliver env serial reply d = .thrown e d') : FailedLast env d' e := by
  rcases deliver_cases env serial reply d with
    ⟨-, hdeliver⟩ | ⟨bus, -, -, ⟨-, hdeliver⟩ | ⟨call, -, -, hdeliver⟩⟩
  · rw [hdeliver] at h
    cases h
  · rw [hdeliver] at h
    cases h
  · rw [hdeliver] at h
    rcases replyCallback_cases env serial call.callback reply (d.arrived bus serial reply) with
      ⟨resp, s, -, -, hcallback⟩ | ⟨resp, e', s, -, -, hcallback⟩ | ⟨-, hcallback⟩
    · rw [hcallback] at h
      cases h
    · rw [hcallback] at h
      exact sendResponse_failedLast h
    · rw [hcallback] at h
      exact sendResponse_failedLast h

theorem Settled.handle_failedLast (h : Settled mode d₀ seen d) {event : Event}
    (hthrown : Daemon.handle env event d = .thrown e d') :
    (event = .busError ∧ e = .process ∧ d' = d) ∨ FailedLast env d' e := by
  cases event with
  | busError =>
    obtain ⟨rfl, rfl⟩ := Outcome.thrown.inj hthrown
    exact Or.inl ⟨rfl, rfl, rfl⟩
  | reply serial reply => exact Or.inr (deliver_failedLast hthrown)
  | byte ch =>
    right
    change Daemon.processByte env ch d = .thrown e d' at hthrown
    rcases h.processByte_cases env ch with
      ⟨parser, -, -, hbyte⟩ | ⟨parser, payload, -, -, -, -, hbyte⟩
    · rw [hbyte] at hthrown
      cases hthrown
    · rw [hbyte] at hthrown
      cases hincoming : processIncoming env (parsePayload mode payload) (d.withInput parser [ch]) with
      | ok s =>
        rw [hincoming] at hthrown
        cases hthrown
      | thrown e' s =>
        rw [hincoming] at hthrown
        obtain ⟨rfl, rfl⟩ := Outcome.thrown.inj hthrown
        exact processIncoming_failedLast hincoming

end Daemon

namespace EventLoop

/-- Whatever bytes, replies and poll results reach the loop, an exception that ends it is that of a
readable bus which could not be processed, and then the daemon is as all the events before have
left it, or it is the failure of the last write or call that the daemon made. -/
theorem exception_cause (env : Env) (mode : ProtocolMode) (channel : Option Channel)
    (channelName : String) (bus : Option Bus) (table : Table) (polls : List Poll) (e : Failure)
    (loop : EventLoop)
    (h : startEventLoop env polls
      { daemon := { Daemon.start mode channel channelName bus with table } } = .thrown e loop) :
    (e = .process ∧ ∃ done rest, polls.flatMap Poll.events = done ++ .busError :: rest ∧
      Outcome.each (Daemon.handle env) done
        { Daemon.start mode channel channelName bus with table } = .ok loop.daemon) ∨
    Daemon.FailedLast env loop.daemon e := by
  have hfresh := Daemon.settled_fresh mode channel channelName bus table
  rw [startEventLoop_eq] at h
  cases hrun : Outcome.each (Daemon.handle env) (polls.flatMap Poll.events)
      { Daemon.start mode channel channelName bus with table } with
  | ok daemon =>
    rw [hrun] at h
    cases h
  | thrown e' daemon =>
    rw [hrun] at h
    obtain ⟨rfl, rfl⟩ := Outcome.thrown.inj h
    obtain ⟨done, event, rest, middle, hevents, hdone, hcall⟩ := Outcome.each_thrown hrun
    have hsettled := hfresh.run env done
    rw [Outcome.eachCaught_of_ok hdone] at hsettled
    rcases hsettled.handle_failedLast hcall with ⟨rfl, rfl, rfl⟩ | hlast
    · exact Or.inl ⟨rfl, done, rest, hevents, hdone⟩
    · exact Or.inr hlast

theorem exception_cause_bus :
    let env : Env := { write := fun _ _ => none, callAsync := fun _ => false }
    let request : List UInt8 := [0xA0, 0x20, 0x18, 0xC8, 0x81, 0x04, 0x01, 0x7A, 0xA5]
    let polls : List Poll := [.ready (some (.bytes request (by decide))) none]
    ∃ e loop, startEventLoop env polls
        { daemon := { Daemon.start .basic none "serial0" (some {}) with table := sessionTable } } =
          .thrown e loop ∧
      ((e = .process ∧ ∃ done rest, polls.flatMap Poll.events = done ++ .busError :: rest ∧
        Outcome.each (Daemon.handle env) done
          { Daemon.start .basic none "serial0" (some {}) with table := sessionTable } =
            .ok loop.daemon) ∨
      Daemon.FailedLast env loop.daemon e) := by
  intro env request polls
  cases hloop : startEventLoop env polls
      { daemon := { Daemon.start .basic none "serial0" (some {}) with table := sessionTable } } with
  | ok loop =>
    have hthrows : (startEventLoop env polls { daemon :=
      { Daemon.start .basic none "serial0" (some {}) with table := sessionTable } }).isOk = false := by
      decide +kernel
    rw [hloop] at hthrows
    cases hthrows
  | thrown e loop =>
    exact ⟨e, loop, rfl, exception_cause env .basic none "serial0" (some {}) sessionTable polls e
      loop hloop⟩

-- the bus goes away while nothing else is to be done
example (env : Env) (d : Daemon) :
    startEventLoop env [.timeout, .ready none (some .error)] { daemon := d } =
      .thrown .process { daemon := d } := rfl

end EventLoop

end SerialIpmi
