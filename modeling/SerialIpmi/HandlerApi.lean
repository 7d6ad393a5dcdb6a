import SerialIpmi.Library.Mailbox
import SerialIpmi.Forwarding
import SerialIpmi.StoredResponse

/-! The handler under any client: its public functions and the replies of the bus, called in any
order, with exceptions caught. What is dispatched follows from the bytes, and what `getResponse`
returns follows from the calls: neither depends on the port or on the bus. -/
namespace SerialIpmi

open Decoding

namespace Daemon

def waiting (d : Daemon) : List Message :=
  d.handler.parser.payloads.map (parsePayload d.handler.parser.mode)

def popped (d : Daemon) : Daemon :=
  d.withInput d.handler.parser.getNextMessage.2 d.handler.rxBuffer

theorem popped_cons {d : Daemon} {payload : List UInt8} {rest : List (List UInt8)}
    (h : d.handler.parser.payloads = payload :: rest) :
    d.popped.handler.parser.payloads = rest ∧
      d.waiting = parsePayload d.handler.parser.mode payload :: d.popped.waiting := by
  obtain ⟨-, hrest, -⟩ := IParser.getNextMessage_cons h
  refine ⟨hrest, ?_⟩
  have hmode : d.popped.handler.parser.mode = d.handler.parser.mode := IParser.mode_getNextMessage _
  have hpopped : d.popped.handler.parser.payloads = rest := hrest
  rw [waiting, waiting, h, hmode, hpopped, List.map_cons]

theorem processMessages_cons (env : Env) {d : Daemon} {payload : List UInt8}
    {rest : List (List UInt8)} (h : d.handler.parser.payloads = payload :: rest) (rounds : Nat) :
    processMessages env (rounds + 1) d =
      (processIncoming env (parsePayload d.handler.parser.mode payload) d.popped).andThen
        (processMessages env rounds) := by
  have hcomplete : d.handler.parser.hasCompleteMessage = true := by
    rw [IParser.hasCompleteMessage_eq, h]
    rfl
  rw [processMessages, if_pos hcomplete, ← (IParser.getNextMessage_cons h).1]
  rfl

theorem processMessages_conserves (env : Env) (d : Daemon) :
    (∃ d', processMessages env d.handler.parser.pending d = .ok d' ∧ d'.waiting = [] ∧
      d'.dispatched = d.dispatched ++ d.waiting) ∨
    ∃ e d' done msg, processMessages env d.handler.parser.pending d = .thrown e d' ∧
      d.waiting = done ++ msg :: d'.waiting ∧ d'.dispatched = d.dispatched ++ done ++ [msg] ∧
      d'.handler.rxBuffer = d.handler.rxBuffer := by
  rw [IParser.pending_eq]
  induction hqueue : d.handler.parser.payloads generalizing d with
  | nil =>
    have hnone : d.waiting = [] := by rw [waiting, hqueue, List.map_nil]
    exact Or.inl ⟨d, rfl, hnone, by rw [hnone, List.append_nil]⟩
  | cons payload rest ih =>
    obtain ⟨hrest, hwaiting⟩ := popped_cons hqueue
    set msg := parsePayload d.handler.parser.mode payload
    have hdispatched := processIncoming_dispatched env msg d.popped
    have hincoming := processIncoming_dispatches env msg d.popped
    rw [List.length_cons, processMessages_cons env hqueue]
    cases hresult : processIncoming env msg d.popped with
    | thrown e d' =>
      rw [hresult] at hincoming hdispatched
      refine Or.inr ⟨e, d', [], msg, rfl, ?_, ?_, hincoming.rxBuffer⟩
      · have hparser : d'.handler.parser = d.popped.handler.parser := hincoming.parser
        rw [hwaiting, waiting, waiting, hparser]
        rfl
      · rw [List.append_nil]
        exact hdispatched
    | ok d' =>
      rw [hresult] at hincoming hdispatched
      have hparser : d'.handler.parser = d.popped.handler.parser := hincoming.parser
      have hsame : d'.waiting = d.popped.waiting := by rw [waiting, waiting, hparser]
      have hlog : d'.dispatched = d.dispatched ++ [msg] := hdispatched
      rw [Outcome.ok_andThen]
      rcases ih d' (by rw [hparser, hrest]) with
        ⟨last, hloop, hnone, hall⟩ | ⟨e, last, done, failed, hloop, hsplit, hall, hrxBuffer⟩
      · refine Or.inl ⟨last, hloop, hnone, ?_⟩
        rw [hall, hlog, hsame, hwaiting, List.append_assoc]
        rfl
      · refine Or.inr ⟨e, last, msg :: done, failed, hloop, ?_, ?_,
          hrxBuffer.trans hincoming.rxBuffer⟩
        · rw [hwaiting, ← hsame, hsplit]
          rfl
        · rw [hall, hlog]
          simp

/-- A handler whose parser was fed before, so that any number of messages may wait in it: the next
byte dispatches all of them and its own, or stops at one whose dispatch throws and leaves the rest
in the parser, none lost and none dispatched twice. -/
theorem loop_conserves (env : Env) (mode : ProtocolMode) (channel : Option Channel)
    (channelName : String) (bus : Option Bus) (table : Table) (fed : List UInt8) (byte : UInt8) :
    let fresh : Daemon := { start mode channel channelName bus with table }
    let d := fresh.withInput ((createParser mode).feedData fed) []
    let msgs := streamMessages mode (fed ++ [byte])
    (∃ d', processByte env byte d = .ok d' ∧ d'.dispatched = msgs ∧ d'.waiting = [] ∧
      d'.handler.rxBuffer = []) ∨
    ∃ e d' done msg, processByte env byte d = .thrown e d' ∧ msgs = done ++ msg :: d'.waiting ∧
      d'.dispatched = done ++ [msg] ∧ d'.handler.rxBuffer = [byte] := by
  intro fresh d msgs
  set parser := ((createParser mode).feedData fed).feedData [byte] with hparser
  have hready := IParser.ready_createParser mode
  have hvalid := IParser.valid_feedData hready.valid fed
  have hwaiting : (d.withInput parser [byte]).waiting = msgs := by
    have hmode : parser.mode = mode := by
      rw [hparser, IParser.mode_feedData, IParser.mode_feedData, hready.mode]
    change parser.payloads.map (parsePayload parser.mode) = _
    rw [hmode, hparser, IParser.payloads_feedData hvalid, IParser.payloads_feedData hready.valid,
      IParser.position_feedData hready.valid, hready.position, hready.payloads, List.nil_append]
    change _ = (streamPayloads mode (fed ++ [byte])).map (parsePayload mode)
    rw [← run_between, run_append]
  have hbyte : processByte env byte d = (processMessages env parser.pending
      (d.withInput parser [byte])).andThen fun d => .ok (d.withInput d.handler.parser []) := rfl
  rw [hbyte]
  rcases processMessages_conserves env (d.withInput parser [byte]) with
    ⟨d', hloop, hnone, hall⟩ | ⟨e, d', done, msg, hloop, hsplit, hall, hrxBuffer⟩
  · have hloop : processMessages env parser.pending (d.withInput parser [byte]) = .ok d' := hloop
    rw [hloop]
    rw [hwaiting] at hall
    exact Or.inl ⟨_, rfl, hall, hnone, rfl⟩
  · have hloop : processMessages env parser.pending (d.withInput parser [byte]) = .thrown e d' :=
      hloop
    rw [hloop]
    rw [hwaiting] at hsplit
    exact Or.inr ⟨e, d', done, msg, rfl, hsplit, hall, hrxBuffer⟩

end Daemon

/-- A call of a public function, or a reply that the bus delivers. -/
inductive ApiCall where
  | processByte (byte : UInt8)
  | flushFrames
  | sendResponse (resp : Message)
  | getResponse
  | setResponsePayload (payload : List UInt8)
  | reply (serial : Nat) (reply : Reply)

def ApiCall.input : ApiCall → List UInt8
  | .processByte byte => [byte]
  | .flushFrames | .sendResponse _ | .getResponse | .setResponsePayload _ | .reply .. => []

namespace Daemon

def invoke (env : Env) : ApiCall → Daemon → Outcome Failure Daemon
  | .processByte byte, d => processByte env byte d
  | .flushFrames, d => flushFrames env d
  | .sendResponse resp, d => sendResponse env resp d
  | .getResponse, d => .ok (getResponse d).2
  | .setResponsePayload payload, d => .ok (setResponsePayload payload d)
  | .reply serial reply, d => deliver env serial reply d

def returned : ApiCall → Daemon → List (Option Message)
  | .getResponse, d => [(getResponse d).1]
  | _, _ => []

def client (env : Env) : Core Daemon ApiCall (Option Message) :=
  fun d call => ((invoke env call d).state, returned call d)

theorem run_client (env : Env) (calls : List ApiCall) (d : Daemon) :
    (run (client env) d calls).1 = Outcome.eachCaught (invoke env) calls d := by
  induction calls generalizing d with
  | nil => rfl
  | cons call calls ih =>
    rw [run_cons]
    exact ih _

section

variable {mode : ProtocolMode} {d₀ d : Daemon} {seen : List UInt8}

theorem Settled.of_dispatches (h : Settled mode d₀ seen d) {d' : Daemon}
    (hdispatches : Dispatches d [] d') : Settled mode d₀ seen d' where
  table := hdispatches.table.trans h.table
  channel := hdispatches.channel.trans h.channel
  channelName := hdispatches.channelName.trans h.channelName
  parser := hdispatches.parser ▸ h.parser
  rxBuffer := hdispatches.rxBuffer ▸ h.rxBuffer
  trace := by rw [hdispatches.trace, List.append_nil, h.trace]

/-- The byte that a throwing call left behind is dropped by a flush: the parser ignores it where
it stands. -/
theorem Settled.flushFrames_eq (h : Settled mode d₀ seen d) (env : Env) :
    ∃ parser : IParser, parser.Ready mode (streamPosition mode seen) ∧
      flushFrames env d = .ok (d.withInput parser []) := by
  rcases h.rxBuffer with hempty | ⟨ch, hstale, hposition, hstep⟩
  · refine ⟨d.handler.parser, h.parser, ?_⟩
    rw [flushFrames_of_empty env hempty, withInput, ← hempty]
  · set fed := d.handler.parser.feedData [ch] with hfed
    have hrun : Decoding.run Position.step d.handler.parser.position [ch] = (.between mode, []) := by
      rw [h.parser.position, hposition, run_cons, run_nil, hstep]
      rfl
    have hpayloads : fed.payloads = [] := by
      rw [hfed, IParser.payloads_feedData h.parser.valid, hrun, h.parser.payloads]
      rfl
    refine ⟨fed, ⟨IParser.valid_feedData h.parser.valid _, ?_, ?_, hpayloads⟩, ?_⟩
    · rw [hfed, IParser.mode_feedData, h.parser.mode]
    · rw [hfed, IParser.position_feedData h.parser.valid, hrun, hposition]
    · simp [flushFrames, hstale, ← hfed, IParser.pending_eq, hpayloads, processMessages, withInput]

theorem Settled.flushFrames (h : Settled mode d₀ seen d) (env : Env) :
    Settled mode d₀ seen (flushFrames env d).state := by
  obtain ⟨parser, hready, hflush⟩ := h.flushFrames_eq env
  rw [hflush]
  exact ⟨h.table, h.channel, h.channelName, hready, Or.inl rfl, h.trace⟩

theorem getResponse_dispatches (d : Daemon) : Dispatches d [] (getResponse d).2 := by
  unfold getResponse
  cases d.handler.outMessage with
  | none => exact .refl d
  | some resp => exact .of_log [] rfl rfl rfl rfl rfl (List.append_nil _).symm

theorem Settled.invoke (h : Settled mode d₀ seen d) (env : Env) (call : ApiCall) :
    Settled mode d₀ (seen ++ call.input) (invoke env call d).state := by
  cases call with
  | processByte byte => exact h.processByte env byte
  | flushFrames =>
    rw [ApiCall.input, List.append_nil]
    exact h.flushFrames env
  | sendResponse resp =>
    rw [ApiCall.input, List.append_nil]
    exact h.of_dispatches (sendResponse_dispatches env resp d)
  | getResponse =>
    rw [ApiCall.input, List.append_nil]
    exact h.of_dispatches (getResponse_dispatches d)
  | setResponsePayload payload =>
    rw [ApiCall.input, List.append_nil]
    exact h.of_dispatches (.of_log [] rfl rfl rfl rfl rfl (List.append_nil _).symm)
  | reply serial reply =>
    rw [ApiCall.input, List.append_nil]
    exact h.deliver env serial reply

theorem Settled.calls (h : Settled mode d₀ seen d) (env : Env) (calls : List ApiCall) :
    Settled mode d₀ (seen ++ calls.flatMap ApiCall.input)
      (Outcome.eachCaught (Daemon.invoke env) calls d) := by
  apply Outcome.eachCaught_induction
    (motive := fun done d => Settled mode d₀ (seen ++ done.flatMap ApiCall.input) d)
  · rw [List.flatMap_nil, List.append_nil]
    exact h
  · intro done call d hd
    rw [List.flatMap_append, List.flatMap_singleton, ← List.append_assoc]
    exact hd.invoke env call

end

/-- However a client mixes the calls, and whatever of them throw, each message of the bytes is
dispatched once and in order; and a flush never throws, dispatches or writes anything: it drops
the one byte that a throwing call may have left behind, and all that is not the input of the parser
stays as it was. -/
theorem client_dispatches (env : Env) (mode : ProtocolMode) (channel : Option Channel)
    (channelName : String) (bus : Option Bus) (table : Table) (calls : List ApiCall) :
    let d := (run (client env) { start mode channel channelName bus with table } calls).1
    d.dispatched = streamMessages mode (calls.flatMap ApiCall.input) ∧
    d.handler.rxBuffer.length ≤ 1 ∧
    ∃ d', flushFrames env d = .ok d' ∧ d'.handler.rxBuffer = [] ∧ d'.trace = d.trace ∧
      d'.device = d.device ∧ d'.bus = d.bus ∧
      d'.handler.parser.position = d.handler.parser.position ∧
      d' = d.withInput d'.handler.parser [] := by
  intro d
  have hd : d = Outcome.eachCaught (invoke env) calls
      { start mode channel channelName bus with table } := run_client env calls _
  have h := (settled_fresh mode channel channelName bus table).calls env calls
  rw [← hd, List.nil_append] at h
  obtain ⟨parser, hready, hflush⟩ := h.flushFrames_eq env
  have hwaiting : d.handler.rxBuffer.length ≤ 1 := by
    rcases h.rxBuffer with hempty | ⟨ch, hstale, -, -⟩
    · rw [hempty]
      exact Nat.zero_le 1
    · rw [hstale]
      exact Nat.le_refl 1
  exact ⟨h.dispatched, hwaiting, d.withInput parser [], hflush, rfl, rfl, rfl, rfl,
    hready.position.trans h.parser.position.symm, rfl⟩

def payloadResponse (currentMsg : Message) (payload : List UInt8) : Message where
  netFn := currentMsg.netFn ||| 0x01
  lun := currentMsg.lun
  seqNum := currentMsg.seqNum
  cmd := currentMsg.cmd
  completionCode := 0x00
  data := payload

end Daemon

def storedFor (t : Table) (msg : Message) : List (Mailbox.Op Message) :=
  match t.executeCommand ⟨msg.netFn, msg.cmd⟩ msg.data with
  | some respData => [.put (Daemon.localResponse msg respData)]
  | none => []

/-- The calls as a client of a mailbox would see them. The state is where the stream of bytes
stands and the message that came in last. -/
def mailboxOps (mode : ProtocolMode) (t : Table) :
    Core (Position × Message) ApiCall (Mailbox.Op Message)
  | (position, current), .processByte byte =>
      let msgs := (position.step byte).2.map (parsePayload mode)
      (((position.step byte).1, msgs.getLast?.getD current), msgs.flatMap (storedFor t))
  | (position, current), .getResponse => ((position, current), [.take])
  | (position, current), .setResponsePayload payload =>
      ((position, current), [.put (Daemon.payloadResponse current payload)])
  | (position, current), _ => ((position, current), [])

namespace Daemon

structure Holds (mode : ProtocolMode) (d₀ d : Daemon)
    (s : (Position × Message) × Option Message) : Prop where
  settled : ∃ seen, Settled mode d₀ seen d ∧ s.1.1 = streamPosition mode seen
  current : s.1.2 = d.handler.currentMsg
  stored : s.2 = d.handler.outMessage

def SameMessages (d d' : Daemon) : Prop :=
  d'.handler.currentMsg = d.handler.currentMsg ∧ d'.handler.outMessage = d.handler.outMessage

theorem sendResponse_sameMessages (env : Env) (resp : Message) (d : Daemon) :
    SameMessages d (sendResponse env resp d).state := by
  unfold SameMessages
  rw [(sendResponse_handler env resp d).1]
  exact ⟨rfl, rfl⟩

theorem deliver_sameMessages (env : Env) (serial : Nat) (reply : Reply) (d : Daemon) :
    SameMessages d (deliver env serial reply d).state := by
  apply deliver_keeps SameMessages ⟨rfl, rfl⟩
  · intro d d' d'' h h'
    exact ⟨h'.1.trans h.1, h'.2.trans h.2⟩
  · intro bus
    exact ⟨rfl, rfl⟩
  · intro resp d
    exact sendResponse_sameMessages env resp (d.log (.answer serial resp))

section

variable {mode : ProtocolMode} {d₀ d d' : Daemon} {position : Position}
  {current : Message} {stored : Option Message}

theorem Holds.of_same (h : Holds mode d₀ d ((position, current), stored))
    (hsettled : ∀ {seen}, Settled mode d₀ seen d → Settled mode d₀ seen d')
    (hsame : SameMessages d d') : Holds mode d₀ d' ((position, current), stored) := by
  obtain ⟨seen, hseen, hposition⟩ := h.settled
  exact ⟨⟨seen, hsettled hseen, hposition⟩, h.current.trans hsame.1.symm,
    h.stored.trans hsame.2.symm⟩

theorem processIncoming_holds (env : Env) (msg : Message) (d : Daemon) :
    (processIncoming env msg d).state.handler.currentMsg = msg ∧
      (run Mailbox.step d.handler.outMessage (storedFor d.table msg)).1 =
        (processIncoming env msg d).state.handler.outMessage := by
  obtain ⟨hcurrent, -, hstored⟩ := processIncoming_stored env msg d
  refine ⟨hcurrent, ?_⟩
  rw [hstored, storedFor]
  cases d.table.executeCommand ⟨msg.netFn, msg.cmd⟩ msg.data <;> rfl

theorem Settled.processByte_messages {seen : List UInt8} (h : Settled mode d₀ seen d) (env : Env)
    (byte : UInt8) :
    (((streamPosition mode seen).step byte).2 = [] ∧
      SameMessages d (Daemon.processByte env byte d).state) ∨
    ∃ payload, ((streamPosition mode seen).step byte).2 = [payload] ∧
      (Daemon.processByte env byte d).state.handler.currentMsg = parsePayload mode payload ∧
      (Decoding.run Mailbox.step d.handler.outMessage
        (storedFor d₀.table (parsePayload mode payload))).1 =
        (Daemon.processByte env byte d).state.handler.outMessage := by
  rcases h.processByte_cases env byte with
    ⟨parser, -, hnone, hbyte⟩ | ⟨parser, payload, -, hstep, -, -, hbyte⟩
  · left
    rw [hbyte]
    exact ⟨hnone, rfl, rfl⟩
  · right
    obtain ⟨hcurrent, hstored⟩ := processIncoming_holds env (parsePayload mode payload)
      (d.withInput parser [byte])
    rw [withInput_table, h.table] at hstored
    refine ⟨payload, hstep, ?_⟩
    rw [hbyte]
    cases hresult : processIncoming env (parsePayload mode payload) (d.withInput parser [byte]) with
    | ok d' =>
      rw [hresult] at hcurrent hstored
      exact ⟨hcurrent, hstored⟩
    | thrown e d' =>
      rw [hresult] at hcurrent hstored
      exact ⟨hcurrent, hstored⟩

theorem Holds.processByte (h : Holds mode d₀ d ((position, current), stored)) (env : Env)
    (byte : UInt8) :
    Holds mode d₀ (Daemon.processByte env byte d).state
        (pipe (mailboxOps mode d₀.table) Mailbox.step ((position, current), stored)
          (.processByte byte)).1 ∧
      (pipe (mailboxOps mode d₀.table) Mailbox.step ((position, current), stored)
        (.processByte byte)).2 = [] := by
  obtain ⟨seen, hsettled, hposition⟩ := h.settled
  have hstored : stored = d.handler.outMessage := h.stored
  obtain rfl : position = streamPosition mode seen := hposition
  have hnext : ∃ seen', Settled mode d₀ seen' (Daemon.processByte env byte d).state ∧
      ((streamPosition mode seen).step byte).1 = streamPosition mode seen' :=
    ⟨seen ++ [byte], hsettled.processByte env byte, (streamPosition_append mode seen byte).symm⟩
  rcases hsettled.processByte_messages env byte with
    ⟨hnone, hsame⟩ | ⟨payload, hpayload, hcurrent, hout⟩
  · simp only [pipe, mailboxOps, hnone]
    exact ⟨⟨hnext, h.current.trans hsame.1.symm, h.stored.trans hsame.2.symm⟩, rfl⟩
  · simp only [pipe, mailboxOps, hpayload, List.map_singleton, List.flatMap_singleton]
    refine ⟨⟨hnext, hcurrent.symm, by rw [hstored, hout]⟩, ?_⟩
    unfold storedFor
    cases d₀.table.executeCommand ⟨(parsePayload mode payload).netFn,
      (parsePayload mode payload).cmd⟩ (parsePayload mode payload).data <;> rfl

theorem Holds.invoke (h : Holds mode d₀ d ((position, current), stored)) (env : Env)
    (call : ApiCall) :
    Holds mode d₀ (client env d call).1
        (pipe (mailboxOps mode d₀.table) Mailbox.step ((position, current), stored) call).1 ∧
      (client env d call).2 =
        (pipe (mailboxOps mode d₀.table) Mailbox.step ((position, current), stored) call).2 := by
  obtain ⟨seen, hsettled, hposition⟩ := h.settled
  cases call with
  | processByte byte =>
    obtain ⟨hholds, hnothing⟩ := h.processByte env byte
    exact ⟨hholds, hnothing.symm⟩
  | flushFrames =>
    obtain ⟨parser, -, hflush⟩ := hsettled.flushFrames_eq env
    have hsame : SameMessages d (flushFrames env d).state := by
      rw [hflush]
      exact ⟨rfl, rfl⟩
    exact ⟨h.of_same (fun hseen => hseen.flushFrames env) hsame, rfl⟩
  | sendResponse resp =>
    exact ⟨h.of_same (fun hseen => hseen.of_dispatches (sendResponse_dispatches env resp d))
      (sendResponse_sameMessages env resp d), rfl⟩
  | getResponse =>
    obtain ⟨hresult, hempty, -⟩ := getResponse_eq d
    have hcurrent : (getResponse d).2.handler.currentMsg = d.handler.currentMsg := by
      unfold getResponse
      cases d.handler.outMessage <;> rfl
    refine ⟨⟨⟨seen, hsettled.of_dispatches (getResponse_dispatches d), hposition⟩,
      h.current.trans hcurrent.symm, hempty.symm⟩, ?_⟩
    change [(getResponse d).1] = [stored]
    rw [hresult]
    exact congrArg (fun resp => [resp]) h.stored.symm
  | setResponsePayload payload =>
    have hcurrent : current = d.handler.currentMsg := h.current
    have hnext : Settled mode d₀ seen (setResponsePayload payload d) :=
      hsettled.of_dispatches (.of_log [] rfl rfl rfl rfl rfl (List.append_nil _).symm)
    have hput : some (payloadResponse current payload) =
        (setResponsePayload payload d).handler.outMessage := by
      rw [hcurrent]
      rfl
    exact ⟨⟨⟨seen, hnext, hposition⟩, h.current, hput⟩, rfl⟩
  | reply serial reply =>
    exact ⟨h.of_same (fun hseen => hseen.deliver env serial reply)
      (deliver_sameMessages env serial reply d), rfl⟩

end

/-- Whatever the port and the bus do, the calls of `getResponse` return what a mailbox would that
gets the local responses to the messages of the bytes and the payloads of `setResponsePayload`.
So no response is returned twice or out of order. -/
theorem getResponse_results (env : Env) (mode : ProtocolMode) (channel : Option Channel)
    (channelName : String) (bus : Option Bus) (table : Table) (calls : List ApiCall) :
    let results := (run (client env) { start mode channel channelName bus with table } calls).2
    let ops := (run (mailboxOps mode table) (.between mode, {}) calls).2
    results = (run Mailbox.step none ops).2 ∧
      (Mailbox.taken results).Sublist (ops.flatMap Mailbox.Op.item) := by
  intro results ops
  have hsettled := settled_fresh mode channel channelName bus table
  have hstart : Holds mode { start mode channel channelName bus with table }
      { start mode channel channelName bus with table } ((.between mode, {}), none) :=
    ⟨⟨[], hsettled, rfl⟩, rfl, rfl⟩
  have hinvoke : ∀ d s call, Holds mode { start mode channel channelName bus with table } d s →
      Holds mode { start mode channel channelName bus with table } (client env d call).1
          (pipe (mailboxOps mode table) Mailbox.step s call).1 ∧
        (client env d call).2 = (pipe (mailboxOps mode table) Mailbox.step s call).2 := by
    intro d s call h
    exact h.invoke env call
  obtain ⟨-, hresults⟩ := run_simulation hinvoke hstart calls
  have hresults : results = (run Mailbox.step none ops).2 := by
    rw [run_pipe] at hresults
    exact hresults
  refine ⟨hresults, ?_⟩
  rw [hresults]
  exact (List.sublist_append_left _ _).trans (Mailbox.taken_sublist none ops)

end Daemon

end SerialIpmi
