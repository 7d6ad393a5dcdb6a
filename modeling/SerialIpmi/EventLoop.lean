import SerialIpmi.Dispatch

/-! The event loop: polls, reads from the serial port and hands each byte to the
handler. A whole run is a run of the handler over the events it was given. -/
namespace SerialIpmi

open Decoding

/-- The result of one `read` into the buffer of 512 bytes. -/
inductive ReadResult where
  | error
  | bytes (data : List UInt8) (fits : data.length ≤ 512)

/-- What a readable bus has for `process_discard`, if anything: the call fails by itself, or
hands out one reply. -/
inductive BusResult where
  | error
  | reply (serial : Nat) (reply : Reply)

inductive Poll where
  | error
  | timeout
  | ready (serial : Option ReadResult) (bus : Option BusResult)

structure EventLoop where
  readAccumulator : List UInt8 := []
  daemon : Daemon

namespace EventLoop

def processSerialData (result : ReadResult) (loop : EventLoop) : EventLoop :=
  match result with
  | .error => loop
  | .bytes data _ => { loop with readAccumulator := loop.readAccumulator ++ data }

/-- The accumulated bytes are moved out before the first of them is processed. -/
def processFrames (env : Env) (loop : EventLoop) : Outcome Failure EventLoop :=
  if loop.readAccumulator = [] then .ok loop
  else
    (Outcome.each (Daemon.processByte env) loop.readAccumulator loop.daemon).map fun daemon =>
      { readAccumulator := [], daemon }

def serialReady (env : Env) (serial : Option ReadResult) (loop : EventLoop) :
    Outcome Failure EventLoop :=
  match serial with
  | some result => processFrames env (processSerialData result loop)
  | none => .ok loop

def busReady (env : Env) (bus : Option BusResult) (loop : EventLoop) :
    Outcome Failure EventLoop :=
  match bus with
  | some .error => .thrown .process loop
  | some (.reply serial reply) =>
      (Daemon.deliver env serial reply loop.daemon).map fun daemon => { loop with daemon }
  | none => .ok loop

def round (env : Env) (poll : Poll) (loop : EventLoop) : Outcome Failure EventLoop :=
  match poll with
  | .error => .ok loop
  | .timeout => .ok loop
  | .ready serial bus => (serialReady env serial loop).andThen (busReady env bus)

/-- No exception is caught inside the loop, so the first one ends it. -/
def startEventLoop (env : Env) : List Poll → EventLoop → Outcome Failure EventLoop :=
  Outcome.each (round env)

end EventLoop

/-- What reaches the handler from outside, or ends the loop around it. -/
inductive Event where
  | byte (ch : UInt8)
  | reply (serial : Nat) (reply : Reply)
  | busError

def Event.input : Event → List UInt8
  | .byte ch => [ch]
  | .reply .. => []
  | .busError => []

@[simp] theorem Event.append_input_reply (seen : List UInt8) (serial : Nat) (reply : Reply) :
    seen ++ (Event.reply serial reply).input = seen := List.append_nil seen

@[simp] theorem Event.append_input_busError (seen : List UInt8) :
    seen ++ Event.busError.input = seen := List.append_nil seen

def ReadResult.bytesRead : ReadResult → List UInt8
  | .error => []
  | .bytes data _ => data

def BusResult.event : BusResult → Event
  | .error => .busError
  | .reply serial message => .reply serial message

def Poll.events : Poll → List Event
  | .error => []
  | .timeout => []
  | .ready serial bus =>
      (serial.elim [] ReadResult.bytesRead).map .byte ++
        bus.elim [] fun result => [result.event]

namespace Daemon

def handle (env : Env) : Event → Daemon → Outcome Failure Daemon
  | .byte ch, d => processByte env ch d
  | .reply serial reply, d => deliver env serial reply d
  | .busError, d => .thrown .process d

section

variable {mode : ProtocolMode} {d₀ d : Daemon} {seen : List UInt8}

theorem Settled.handle (h : Settled mode d₀ seen d) (env : Env) (event : Event) :
    Settled mode d₀ (seen ++ event.input) (handle env event d).state := by
  cases event with
  | byte ch => exact h.processByte env ch
  | reply serial reply =>
    rw [Event.append_input_reply]
    exact h.deliver env serial reply
  | busError =>
    rw [Event.append_input_busError]
    exact h

theorem Settled.run_induction {P : List UInt8 → Daemon → Prop} {env : Env}
    (h : Settled mode d₀ seen d) (hP : P seen d)
    (next : ∀ seen d event, Settled mode d₀ seen d → P seen d →
      P (seen ++ event.input) (Daemon.handle env event d).state)
    (events : List Event) :
    P (seen ++ events.flatMap Event.input) (Outcome.eachCaught (Daemon.handle env) events d) := by
  have hboth : Settled mode d₀ (seen ++ events.flatMap Event.input)
        (Outcome.eachCaught (Daemon.handle env) events d) ∧
      P (seen ++ events.flatMap Event.input)
        (Outcome.eachCaught (Daemon.handle env) events d) := by
    apply Outcome.eachCaught_induction (motive := fun done s =>
      Settled mode d₀ (seen ++ done.flatMap Event.input) s ∧
        P (seen ++ done.flatMap Event.input) s)
    · rw [List.flatMap_nil, List.append_nil]
      exact ⟨h, hP⟩
    · rintro done event s ⟨hsettled, hkept⟩
      rw [List.flatMap_append, List.flatMap_singleton, ← List.append_assoc]
      exact ⟨hsettled.handle env event, next _ s event hsettled hkept⟩
  exact hboth.2

theorem Settled.run (h : Settled mode d₀ seen d) (env : Env) (events : List Event) :
    Settled mode d₀ (seen ++ events.flatMap Event.input)
      (Outcome.eachCaught (Daemon.handle env) events d) := by
  apply h.run_induction h
  intro seen d event hsettled _
  exact hsettled.handle env event

theorem Settled.handle_keeps {P : Daemon → Prop} {env : Env} (h : Settled mode d₀ seen d)
    (hinput : ∀ parser rxBuffer d, parser.mode = mode → P d → P (d.withInput parser rxBuffer))
    (hincoming : ∀ msg d, P d → P (processIncoming env msg d).state)
    (hdeliver : ∀ serial reply d, P d → P (Daemon.deliver env serial reply d).state)
    (hP : P d) (event : Event) : P (Daemon.handle env event d).state := by
  cases event with
  | reply serial reply => exact hdeliver serial reply d hP
  | busError => exact hP
  | byte ch =>
    change P (Daemon.processByte env ch d).state
    rcases h.processByte_cases env ch with
      ⟨parser, hready, -, hbyte⟩ | ⟨parser, payload, hready, -, -, -, hbyte⟩
    · rw [hbyte]
      exact hinput parser [] d hready.mode hP
    · have hkept := hincoming (parsePayload mode payload) _ (hinput parser [ch] d hready.mode hP)
      have hparser := (processIncoming_dispatches env (parsePayload mode payload)
        (d.withInput parser [ch])).parser
      rw [hbyte]
      cases hresult : processIncoming env (parsePayload mode payload) (d.withInput parser [ch]) with
      | ok d' =>
        rw [hresult] at hkept hparser
        have hmode : d'.handler.parser.mode = mode := by
          rw [← hready.mode]
          exact congrArg IParser.mode hparser
        exact hinput d'.handler.parser [] d' hmode hkept
      | thrown e d' =>
        rw [hresult] at hkept
        exact hkept

theorem Settled.run_keeps {P : Daemon → Prop} {env : Env} (h : Settled mode d₀ seen d)
    (hinput : ∀ parser rxBuffer d, parser.mode = mode → P d → P (d.withInput parser rxBuffer))
    (hincoming : ∀ msg d, P d → P (processIncoming env msg d).state)
    (hdeliver : ∀ serial reply d, P d → P (Daemon.deliver env serial reply d).state)
    (hP : P d) (events : List Event) : P (Outcome.eachCaught (Daemon.handle env) events d) := by
  apply h.run_induction (P := fun _ d => P d) hP
  intro seen d event hsettled hkept
  exact hsettled.handle_keeps hinput hincoming hdeliver hkept event

theorem eachCaught_byte (env : Env) (bytes : List UInt8) (d : Daemon) :
    Outcome.eachCaught (Daemon.handle env) (bytes.map .byte) d =
      Outcome.eachCaught (Daemon.processByte env) bytes d := by
  unfold Outcome.eachCaught
  rw [List.foldl_map]
  rfl

theorem input_byte (bytes : List UInt8) :
    (bytes.map Event.byte).flatMap Event.input = bytes := by
  rw [List.flatMap_map]
  exact List.flatMap_singleton' bytes

theorem Settled.processBytes (h : Settled mode d₀ seen d) (env : Env) (bytes : List UInt8) :
    Settled mode d₀ (seen ++ bytes) (Outcome.eachCaught (Daemon.processByte env) bytes d) := by
  have hrun := h.run env (bytes.map .byte)
  rw [input_byte, eachCaught_byte] at hrun
  exact hrun

theorem Settled.ok_induction {P : Daemon → Prop} {env : Env} {events : List Event} {d' : Daemon}
    (h : Settled mode d₀ seen d) (hP : P d)
    (next : ∀ seen d event d', Settled mode d₀ seen d → P d →
      Daemon.handle env event d = .ok d' → P d')
    (hok : Outcome.each (Daemon.handle env) events d = .ok d') : P d' := by
  have hboth : Settled mode d₀ (seen ++ events.flatMap Event.input) d' ∧ P d' := by
    apply Outcome.each_induction
      (motive := fun done s => Settled mode d₀ (seen ++ done.flatMap Event.input) s ∧ P s) hok
    · rw [List.flatMap_nil, List.append_nil]
      exact ⟨h, hP⟩
    · rintro done event s s' ⟨hsettled, hkept⟩ hstep
      have hnext := hsettled.handle env event
      rw [hstep, List.append_assoc] at hnext
      rw [List.flatMap_append, List.flatMap_singleton]
      exact ⟨hnext, next _ s event s' hsettled hkept hstep⟩
  exact hboth.2

theorem flushFrames_of_empty (env : Env) (h : d.handler.rxBuffer = []) :
    flushFrames env d = .ok d := by
  unfold flushFrames
  rw [if_neg (not_not_intro h)]

end

end Daemon

namespace EventLoop

theorem serialReady_eq (env : Env) (serial : Option ReadResult) (daemon : Daemon) :
    serialReady env serial { daemon } =
      (Outcome.each (Daemon.handle env) ((serial.elim [] ReadResult.bytesRead).map .byte)
        daemon).map fun daemon => { daemon } := by
  rw [Outcome.each_map]
  cases serial with
  | none => rfl
  | some result =>
    cases result with
    | error => rfl
    | bytes data fits => cases data <;> rfl

theorem busReady_eq (env : Env) (bus : Option BusResult) (daemon : Daemon) :
    busReady env bus { daemon } =
      (Outcome.each (Daemon.handle env) (bus.elim [] fun result => [result.event]) daemon).map
        fun daemon => { daemon } := by
  cases bus with
  | none => rfl
  | some result =>
    cases result with
    | error => rfl
    | reply serial reply =>
      rw [busReady, Option.elim_some, BusResult.event, Outcome.each_cons, Daemon.handle]
      cases Daemon.deliver env serial reply daemon <;> rfl

theorem round_eq (env : Env) (poll : Poll) (daemon : Daemon) :
    round env poll { daemon } =
      (Outcome.each (Daemon.handle env) poll.events daemon).map fun daemon => { daemon } := by
  cases poll with
  | error => rfl
  | timeout => rfl
  | ready serial bus =>
    rw [round, serialReady_eq, Poll.events, Outcome.each_append]
    cases Outcome.each (Daemon.handle env) ((serial.elim [] ReadResult.bytesRead).map .byte)
        daemon with
    | thrown e daemon => rfl
    | ok daemon => exact busReady_eq env bus daemon

/-- A run of the event loop is a run of the handler over the events of its rounds. -/
theorem startEventLoop_eq (env : Env) (polls : List Poll) (daemon : Daemon) :
    startEventLoop env polls { daemon } =
      (Outcome.each (Daemon.handle env) (polls.flatMap Poll.events) daemon).map
        fun daemon => { daemon } :=
  Outcome.each_simulation (round_eq env) polls daemon

end EventLoop

def Action.dispatched : Action → Option Message
  | .incoming msg => some msg
  | _ => none

theorem filterMap_dispatched (trace : List Action) :
    (trace.filter Action.isDispatch).filterMap Action.dispatched =
      trace.filterMap Action.dispatched := by
  rw [List.filterMap_filter]
  congr 1
  funext action
  cases action <;> rfl

theorem filterMap_dispatchActions (t : Table) (msgs : List Message) :
    (msgs.flatMap (Daemon.dispatchActions t)).filterMap Action.dispatched = msgs := by
  induction msgs with
  | nil => rfl
  | cons msg msgs ih =>
    rw [List.flatMap_cons, List.filterMap_append, ih]
    cases hexecute : t.executeCommand ⟨msg.netFn, msg.cmd⟩ msg.data <;>
      simp [Daemon.dispatchActions, hexecute, Action.dispatched]

theorem Daemon.Settled.dispatched {mode : ProtocolMode} {d₀ d : Daemon} {seen : List UInt8}
    (h : Daemon.Settled mode d₀ seen d) :
    d.trace.filterMap Action.dispatched = streamMessages mode seen := by
  rw [← filterMap_dispatched, h.trace, filterMap_dispatchActions]

namespace EventLoop

end EventLoop

def ProtocolMode.headerLength : ProtocolMode → Nat
  | .terminal => 3
  | .basic => 7

/-- A frame that is delivered although it is too short for a header. -/
def Terminal.Frame.Truncated (frame : Terminal.Frame) : Prop :=
  frame.ending.discards = false ∧ 2 ≤ frame.digits.length ∧ frame.digits.length < 6

theorem Basic.keep_length {frame payload : List UInt8} (h : Basic.keep frame = some payload) :
    7 ≤ payload.length := by
  unfold Basic.keep at h
  split_ifs at h with hvalid
  rw [← Option.some.inj h]
  exact Basic.validateChecksum_length hvalid

theorem Terminal.Frame.truncated_iff (frame : Terminal.Frame) :
    frame.Truncated ↔ ∃ payload, frame.payload = some payload ∧ payload.length < 3 := by
  simp only [Terminal.Frame.Truncated, Terminal.Frame.payload]
  constructor
  · rintro ⟨hending, hdigits, hshort⟩
    refine ⟨Terminal.pairBytes frame.digits, by simp [hending, hdigits], ?_⟩
    rw [Terminal.pairBytes_length]
    omega
  · rintro ⟨payload, hpayload, hshort⟩
    split_ifs at hpayload with hdelivered
    rw [← Option.some.inj hpayload, Terminal.pairBytes_length] at hshort
    exact ⟨by simpa using hdelivered.1, hdelivered.2, by omega⟩

theorem streamPayloads_complete (mode : ProtocolMode) (stream : List UInt8) :
    (∀ payload ∈ streamPayloads mode stream, mode.headerLength ≤ payload.length) ↔
      mode = .basic ∨ ∀ frame ∈ Terminal.frames stream, ¬ frame.Truncated := by
  cases mode with
  | basic =>
    refine iff_of_true (fun payload hpayload => ?_) (Or.inl rfl)
    obtain ⟨frame, -, hkeep⟩ := List.mem_filterMap.mp hpayload
    exact Basic.keep_length hkeep
  | terminal =>
    simp only [streamPayloads, List.mem_filterMap, reduceCtorEq, false_or,
      Terminal.Frame.truncated_iff, ProtocolMode.headerLength]
    constructor
    · rintro h frame hframe ⟨payload, hpayload, hshort⟩
      exact Nat.not_lt.mpr (h payload ⟨frame, hframe, hpayload⟩) hshort
    · rintro h payload ⟨frame, hframe, hpayload⟩
      exact Nat.not_lt.mp fun hshort => h frame hframe ⟨payload, hpayload, hshort⟩

namespace Daemon

/-- Every dispatched message comes from a frame with a complete header exactly when the
daemon speaks Basic mode or the stream has no truncated frame. -/
theorem dispatched_header_iff (env : Env) (mode : ProtocolMode) (channel : Option Channel)
    (channelName : String) (bus : Option Bus) (events : List Event) :
    (∀ msg ∈ (Outcome.eachCaught (handle env) events
        (start mode channel channelName bus)).trace.filterMap Action.dispatched,
      mode.headerLength ≤ msg.rawFrame.length) ↔
    mode = .basic ∨ ∀ frame ∈ Terminal.frames (events.flatMap Event.input), ¬ frame.Truncated := by
  have hsettled := (settled_start mode channel channelName bus).run env events
  rw [List.nil_append] at hsettled
  rw [hsettled.dispatched, streamMessages, List.forall_mem_map, ← streamPayloads_complete]
  simp only [parsePayload_rawFrame]

/-- `[04 01` and a line feed: the default message of the payload parser is forwarded. -/
theorem truncated_frame_forwarded :
    let d := Outcome.eachCaught (handle .reliable)
      ([0x5B, 0x30, 0x34, 0x20, 0x30, 0x31, 0x0A].map .byte)
      (start .terminal (some ⟨"/dev/ttyAMA1", 3⟩) "serial0" (some {}))
    Action.forward 0 0 0 [] 0 ∈ d.trace ∧
      ¬ ∀ msg ∈ d.trace.filterMap Action.dispatched,
        ProtocolMode.terminal.headerLength ≤ msg.rawFrame.length := by
  decide +kernel

end Daemon

end SerialIpmi
